import RXCore.Lib.Arrivals
import RXCore.Lib.Encoding
import RXCore.Std

/-!
# The frames of a mux connection

A frame is a header of 30 bits of identifier and 2 bits of command, a length of 16 bits, and the payload. The
reader collects what its reads return in a buffer, takes the frames off the front of it, and moves the rest to a
new buffer when the old one has grown.

* `MuxFrame`, `writeFrame`, `header_toNat`;
* `InFrame`, `frameAt`, `fillTo`, `readFrame`, `runConnectionReader`: the reader, as the frames that it decodes;
* `nextFrame`: the frame at the front of the buffer, **`nextFrame_writeFrame`**; the reader in small steps:
  `runConnectionReader_frame`, `runConnectionReader_read`, `runConnectionReader_end`;
* **`mux_codec_roundtrip`**: what was written is decoded, whatever pieces it arrives in.
-/

set_option autoImplicit false

namespace RXCore

open Encoding Arrivals

/-! ## Writing -/

structure MuxFrame where
  streamId : UInt32
  cmd : UInt8
  payload : List UInt8
  isUdp : Bool
deriving DecidableEq

/-- `(frame.stream_id & 0x3F_FF_FF_FF) | ((frame.cmd as u32) << 30)`. -/
def MuxFrame.header (frame : MuxFrame) : UInt32 :=
  (frame.streamId &&& (0x3FFFFFFF : UInt32)) ||| (frame.cmd.toUInt32 <<< (30 : UInt32))

/-- The bytes of a frame; one whose payload is too long is skipped. -/
def writeFrame (frame : MuxFrame) : List UInt8 :=
  if 65535 < frame.payload.length then []
  else beBytes 4 frame.header.toNat ++ u16Bytes frame.payload.length ++ frame.payload

/-- The header holds 30 bits of the identifier and 2 bits of the command. -/
theorem header_toNat (frame : MuxFrame) :
    frame.header.toNat = frame.cmd.toNat % 4 * 2 ^ 30 + frame.streamId.toNat % 2 ^ 30 := by
  have hlow : (frame.streamId &&& (0x3FFFFFFF : UInt32)).toNat = frame.streamId.toNat % 2 ^ 30 := by
    rw [UInt32.toNat_and]
    exact Nat.and_two_pow_sub_one_eq_mod frame.streamId.toNat 30
  have hhigh : (frame.cmd.toUInt32 <<< (30 : UInt32)).toNat = 2 ^ 30 * (frame.cmd.toNat % 4) := by
    rw [UInt32.toNat_shiftLeft, UInt8.toNat_toUInt32, show (30 : UInt32).toNat % 32 = 30 from rfl, Nat.shiftLeft_eq]
    omega
  rw [MuxFrame.header, UInt32.toNat_or, hlow, hhigh, Nat.or_comm,
    ← Nat.two_pow_add_eq_or_of_lt (Nat.mod_lt _ (by norm_num)), mul_comm]

/-! ## Reading -/

/-- What the reader decodes. -/
structure InFrame where
  streamId : UInt32
  cmd : UInt8
  payload : List UInt8
deriving DecidableEq

/-- How `run_connection_reader` ends: with the stream, with the stream inside a payload, with a failing read. -/
inductive ReaderEnd where
  | eof
  | truncated
  | failed
deriving DecidableEq

/-- `u16::from_be_bytes([main_buf[4], main_buf[5]])`. -/
def payloadLen (mainBuf : List UInt8) : ℕ := u16At mainBuf 4

/-- The frame at the front of a buffer that holds all of it. -/
def frameAt (mainBuf : List UInt8) : InFrame :=
  let header := UInt32.ofNat (ofBe (mainBuf.take 4))
  ⟨header &&& (0x3FFFFFFF : UInt32), (header >>> (30 : UInt32)).toUInt8, (mainBuf.drop 6).take (payloadLen mainBuf)⟩

/-- `while main_buf.len() < n { reader.read_buf(&mut main_buf) }`, where each piece is what one read returns. -/
def fillTo (n : ℕ) (atEnd : ReaderEnd) :
    List UInt8 → List (Arrival UInt8) → Except ReaderEnd (List UInt8 × List (Arrival UInt8))
  | mainBuf, [] => if mainBuf.length < n then .error atEnd else .ok (mainBuf, [])
  | mainBuf, .data bs :: reader =>
    if mainBuf.length < n then fillTo n atEnd (mainBuf ++ bs) reader else .ok (mainBuf, .data bs :: reader)
  | mainBuf, .fault :: reader => if mainBuf.length < n then .error .failed else .ok (mainBuf, .fault :: reader)

/-- One turn of the loop, up to the dispatch. -/
def readFrame (mainBuf : List UInt8) (reader : List (Arrival UInt8)) :
    Except ReaderEnd (InFrame × List UInt8 × List (Arrival UInt8)) := do
  let (mainBuf, reader) ← fillTo 6 .eof mainBuf reader
  let (mainBuf, reader) ← fillTo (6 + payloadLen mainBuf) .truncated mainBuf reader
  return (frameAt mainBuf, mainBuf.drop (6 + payloadLen mainBuf), reader)

/-- A buffer that has grown beyond 256 KiB is replaced by a new one with the bytes that are left. -/
def renewBuf (capacity : ℕ) (mainBuf : List UInt8) : List UInt8 :=
  if 256 * 1024 < capacity then (if mainBuf.isEmpty then [] else [] ++ mainBuf) else mainBuf

@[simp] theorem renewBuf_eq (capacity : ℕ) (mainBuf : List UInt8) : renewBuf capacity mainBuf = mainBuf := by
  rw [renewBuf]
  split_ifs with _ h
  · exact (List.isEmpty_iff.mp h).symm
  · rfl
  · rfl

theorem fillTo_of_le {n : ℕ} {atEnd : ReaderEnd} {mainBuf : List UInt8} {reader : List (Arrival UInt8)}
    (h : n ≤ mainBuf.length) : fillTo n atEnd mainBuf reader = .ok (mainBuf, reader) := by
  rcases reader with _ | ⟨_ | _, reader⟩ <;> simp [fillTo, h]

/-- A measure of what is yet to be decoded does not grow while the buffer is filled. -/
theorem fillTo_size {n : ℕ} {atEnd : ReaderEnd} {mainBuf mainBuf' : List UInt8} {reader reader' : List (Arrival UInt8)}
    (h : fillTo n atEnd mainBuf reader = .ok (mainBuf', reader')) :
    n ≤ mainBuf'.length ∧ mainBuf'.length + size reader' ≤ mainBuf.length + size reader := by
  induction reader generalizing mainBuf with
  | nil =>
    rw [fillTo] at h
    split_ifs at h with hlt
    cases h
    exact ⟨not_lt.mp hlt, le_refl _⟩
  | cons a reader ih =>
    cases a with
    | data bs =>
      rw [fillTo] at h
      split_ifs at h with hlt
      · have hih := ih h
        rw [List.length_append] at hih
        simp only [size]
        exact ⟨hih.1, by omega⟩
      · cases h
        exact ⟨not_lt.mp hlt, le_refl _⟩
    | fault =>
      rw [fillTo] at h
      split_ifs at h with hlt
      cases h
      exact ⟨not_lt.mp hlt, le_refl _⟩

theorem readFrame_size {mainBuf rest : List UInt8} {reader reader' : List (Arrival UInt8)} {f : InFrame}
    (h : readFrame mainBuf reader = .ok (f, rest, reader')) :
    rest.length + size reader' < mainBuf.length + size reader := by
  obtain ⟨⟨mainBuf₁, reader₁⟩, h₁, h⟩ := bind_ok.mp h
  obtain ⟨⟨mainBuf₂, reader₂⟩, h₂, h⟩ := bind_ok.mp h
  cases h
  have hs₁ := fillTo_size h₁
  have hs₂ := fillTo_size h₂
  rw [List.length_drop]
  omega

/-- `run_connection_reader`: the frames that it decodes, and how it ends. `capacity k` is the capacity of the buffer
after frame number `k`. -/
def runConnectionReader (capacity : ℕ → ℕ) (k : ℕ) (mainBuf : List UInt8) (reader : List (Arrival UInt8)) :
    List InFrame × ReaderEnd :=
  match h : readFrame mainBuf reader with
  | .error e => ([], e)
  | .ok (f, rest, reader') =>
    let (frames, e) := runConnectionReader capacity (k + 1) (renewBuf (capacity k) rest) reader'
    (f :: frames, e)
termination_by mainBuf.length + size reader
decreasing_by
  rw [renewBuf_eq]
  exact readFrame_size h

/-! ## Small steps -/

/-- The frame at the front of the buffer, if all of it is there, and what is left behind it. -/
def nextFrame (mainBuf : List UInt8) : Option (InFrame × List UInt8) :=
  if mainBuf.length < 6 ∨ mainBuf.length < 6 + payloadLen mainBuf then none
  else some (frameAt mainBuf, mainBuf.drop (6 + payloadLen mainBuf))

theorem nextFrame_some {mainBuf rest : List UInt8} {f : InFrame} (h : nextFrame mainBuf = some (f, rest)) :
    6 + payloadLen mainBuf ≤ mainBuf.length ∧ f = frameAt mainBuf ∧ rest = mainBuf.drop (6 + payloadLen mainBuf) := by
  rw [nextFrame] at h
  split_ifs at h with hlen
  rw [not_or, not_lt, not_lt] at hlen
  cases h
  exact ⟨hlen.2, rfl, rfl⟩

theorem readFrame_of_nextFrame {mainBuf rest : List UInt8} {f : InFrame} (h : nextFrame mainBuf = some (f, rest))
    (reader : List (Arrival UInt8)) : readFrame mainBuf reader = .ok (f, rest, reader) := by
  obtain ⟨hlen, rfl, rfl⟩ := nextFrame_some h
  rw [readFrame, fillTo_of_le (by omega)]
  simp only [bind, Except.bind, fillTo_of_le hlen]
  rfl

/-- A read goes on with the bytes that it returned. -/
theorem readFrame_data {mainBuf : List UInt8} (h : nextFrame mainBuf = none) (bs : List UInt8)
    (reader : List (Arrival UInt8)) : readFrame mainBuf (.data bs :: reader) = readFrame (mainBuf ++ bs) reader := by
  rw [nextFrame] at h
  split_ifs at h with hlen
  by_cases h6 : mainBuf.length < 6
  · rw [readFrame, fillTo, if_pos h6, readFrame]
  · -- the header is there, so the bytes that were read belong to the payload
    have hlt := hlen.resolve_left h6
    have hpay : payloadLen (mainBuf ++ bs) = payloadLen mainBuf := by
      unfold payloadLen u16At
      rw [List.getD_append _ _ _ _ (by omega), List.getD_append _ _ _ _ (by omega)]
    rw [readFrame, fillTo_of_le (by omega), readFrame, fillTo_of_le (by rw [List.length_append]; omega)]
    simp only [bind, Except.bind, hpay]
    rw [fillTo, if_pos hlt]

theorem readFrame_end {mainBuf : List UInt8} (h : nextFrame mainBuf = none) (reader : List (Arrival UInt8)) :
    (∃ e, readFrame mainBuf [] = .error e) ∧ readFrame mainBuf (.fault :: reader) = .error .failed := by
  rw [nextFrame] at h
  split_ifs at h with hlen
  by_cases h6 : mainBuf.length < 6
  · refine ⟨⟨.eof, ?_⟩, ?_⟩
    · rw [readFrame, fillTo, if_pos h6]
      rfl
    · rw [readFrame, fillTo, if_pos h6]
      rfl
  · have hlt := hlen.resolve_left h6
    refine ⟨⟨.truncated, ?_⟩, ?_⟩
    · rw [readFrame, fillTo_of_le (by omega)]
      simp only [bind, Except.bind]
      rw [fillTo, if_pos hlt]
    · rw [readFrame, fillTo_of_le (by omega)]
      simp only [bind, Except.bind]
      rw [fillTo, if_pos hlt]

section steps

variable {mainBuf rest : List UInt8} {reader : List (Arrival UInt8)} {f : InFrame} {capacity : ℕ → ℕ} {k : ℕ}

theorem runConnectionReader_of_ok {reader' : List (Arrival UInt8)}
    (h : readFrame mainBuf reader = .ok (f, rest, reader')) :
    runConnectionReader capacity k mainBuf reader =
      (f :: (runConnectionReader capacity (k + 1) rest reader').1,
        (runConnectionReader capacity (k + 1) rest reader').2) := by
  rw [runConnectionReader]
  split
  · next e he =>
    rw [h] at he
    cases he
  · next f' rest' reader'' he =>
    rw [h] at he
    cases he
    rw [renewBuf_eq]

theorem runConnectionReader_of_error {e : ReaderEnd} (h : readFrame mainBuf reader = .error e) :
    runConnectionReader capacity k mainBuf reader = ([], e) := by
  rw [runConnectionReader]
  split
  · next e' he =>
    rw [h] at he
    cases he
    rfl
  · next f' rest' reader'' he =>
    rw [h] at he
    cases he

/-- A whole frame in the buffer is decoded. -/
theorem runConnectionReader_frame (h : nextFrame mainBuf = some (f, rest)) :
    runConnectionReader capacity k mainBuf reader =
      (f :: (runConnectionReader capacity (k + 1) rest reader).1,
        (runConnectionReader capacity (k + 1) rest reader).2) :=
  runConnectionReader_of_ok (readFrame_of_nextFrame h reader)

/-- Without one the next read is made. -/
theorem runConnectionReader_read (h : nextFrame mainBuf = none) (bs : List UInt8) :
    runConnectionReader capacity k mainBuf (.data bs :: reader) =
      runConnectionReader capacity k (mainBuf ++ bs) reader := by
  have hread := readFrame_data h bs reader
  cases hr : readFrame (mainBuf ++ bs) reader with
  | error e => rw [runConnectionReader_of_error hr, runConnectionReader_of_error (hread.trans hr)]
  | ok r =>
    obtain ⟨f, rest, reader'⟩ := r
    rw [runConnectionReader_of_ok hr, runConnectionReader_of_ok (hread.trans hr)]

/-- Without one the end of the stream, or a failing read, ends the reader. -/
theorem runConnectionReader_end (h : nextFrame mainBuf = none) (reader : List (Arrival UInt8)) :
    (runConnectionReader capacity k mainBuf []).1 = [] ∧
      runConnectionReader capacity k mainBuf (.fault :: reader) = ([], .failed) := by
  obtain ⟨⟨e, he⟩, hf⟩ := readFrame_end h reader
  rw [runConnectionReader_of_error he, runConnectionReader_of_error hf]
  exact ⟨rfl, rfl⟩

end steps

/-! ## The round trip -/

/-- The frame that the reader makes of a frame that was written. -/
def MuxFrame.decoded (frame : MuxFrame) : InFrame :=
  ⟨frame.header &&& (0x3FFFFFFF : UInt32), (frame.header >>> (30 : UInt32)).toUInt8, frame.payload⟩

/-- The identifier fits 30 bits, the command 2 bits, and the length of the payload 16 bits. -/
def MuxFrame.Fits (frame : MuxFrame) : Prop :=
  frame.streamId.toNat < 2 ^ 30 ∧ frame.cmd.toNat ≤ 3 ∧ frame.payload.length ≤ 65535

/-- **A frame that was written is the next frame**, with its identifier and command cut to their bits. -/
theorem nextFrame_writeFrame {frame : MuxFrame} (hlen : frame.payload.length ≤ 65535) (rest : List UInt8) :
    nextFrame (writeFrame frame ++ rest) = some (frame.decoded, rest) := by
  rw [writeFrame, if_neg (not_lt.mpr hlen)]
  set buf := beBytes 4 frame.header.toNat ++ u16Bytes frame.payload.length ++ frame.payload ++ rest with hbuf
  have hpay : payloadLen buf = frame.payload.length := by
    have hat := u16At_append (beBytes 4 frame.header.toNat) (frame.payload ++ rest) frame.payload.length
    rw [beBytes_length, ← List.append_assoc, Nat.mod_eq_of_lt (by omega)] at hat
    exact hat
  have hhead : UInt32.ofNat (ofBe (buf.take 4)) = frame.header := by
    have htake : buf.take 4 = beBytes 4 frame.header.toNat := by
      simp only [hbuf, List.append_assoc]
      exact List.take_left' (beBytes_length 4 _)
    rw [htake, ofBe_beBytes, Nat.mod_eq_of_lt (by have := frame.header.toNat_lt; omega), UInt32.ofNat_toNat]
  have hdrop : buf.drop 6 = frame.payload ++ rest := by
    rw [hbuf, List.append_assoc]
    exact List.drop_left' (by rw [List.length_append, beBytes_length, u16Bytes_length])
  have hlength : buf.length = 6 + frame.payload.length + rest.length := by
    simp only [hbuf, List.length_append, beBytes_length, u16Bytes_length]
  have hrest : buf.drop (6 + frame.payload.length) = rest := by
    rw [← List.drop_drop, hdrop, List.drop_left]
  rw [nextFrame, hpay, if_neg (by omega), frameAt, hpay, hhead, hdrop, List.take_left, hrest, MuxFrame.decoded]

/-- A frame that fits its bits is decoded as it was. -/
theorem decoded_of_fits {frame : MuxFrame} (h : frame.Fits) :
    frame.decoded = ⟨frame.streamId, frame.cmd, frame.payload⟩ := by
  obtain ⟨hid, hcmd, -⟩ := h
  have hheader := header_toNat frame
  have hid' : frame.header &&& (0x3FFFFFFF : UInt32) = frame.streamId := by
    refine UInt32.toNat_inj.mp ?_
    rw [UInt32.toNat_and]
    have := Nat.and_two_pow_sub_one_eq_mod frame.header.toNat 30
    rw [show (0x3FFFFFFF : UInt32).toNat = 2 ^ 30 - 1 from rfl, this]
    omega
  have hcmd' : (frame.header >>> (30 : UInt32)).toUInt8 = frame.cmd := by
    refine UInt8.toNat_inj.mp ?_
    rw [UInt32.toNat_toUInt8, UInt32.toNat_shiftRight, show (30 : UInt32).toNat % 32 = 30 from rfl,
      Nat.shiftRight_eq_div_pow]
    omega
  rw [MuxFrame.decoded, hid', hcmd']

/-- What is complete stays the next frame when more arrives. -/
theorem nextFrame_append {mainBuf rest : List UInt8} {f : InFrame} (h : nextFrame mainBuf = some (f, rest))
    (more : List UInt8) : nextFrame (mainBuf ++ more) = some (f, rest ++ more) := by
  obtain ⟨hlen, rfl, rfl⟩ := nextFrame_some h
  have hpay : payloadLen (mainBuf ++ more) = payloadLen mainBuf := by
    unfold payloadLen u16At
    rw [List.getD_append _ _ _ _ (by omega), List.getD_append _ _ _ _ (by omega)]
  have htake : (mainBuf ++ more).take 4 = mainBuf.take 4 := List.take_append_of_le_length (by omega)
  have hpayload : ((mainBuf ++ more).drop 6).take (payloadLen mainBuf) = (mainBuf.drop 6).take (payloadLen mainBuf) := by
    rw [List.drop_append_of_le_length (by omega), List.take_append_of_le_length (by rw [List.length_drop]; omega)]
  rw [nextFrame, hpay, if_neg (by rw [List.length_append]; omega), frameAt, frameAt, hpay, htake, hpayload,
    List.drop_append_of_le_length hlen]

/-- What the reader decodes of the frames that are partly in its buffer and partly to come. -/
theorem runConnectionReader_of_frames {capacity : ℕ → ℕ} {k : ℕ} {frames : List MuxFrame}
    (hshort : ∀ frame ∈ frames, frame.payload.length ≤ 65535) {mainBuf : List UInt8} {reader : List (Arrival UInt8)}
    (h : mainBuf ++ content reader = frames.flatMap writeFrame) :
    (runConnectionReader capacity k mainBuf reader).1 = frames.map MuxFrame.decoded := by
  induction hn : mainBuf.length + size reader using Nat.strong_induction_on generalizing k frames mainBuf reader with
  | _ n ih =>
    cases hnext : nextFrame mainBuf with
    | some next =>
      obtain ⟨f, rest⟩ := next
      have hmore := nextFrame_append hnext (content reader)
      rw [h] at hmore
      cases frames with
      | nil => cases hmore
      | cons frame frames =>
        -- the frame in the buffer is the first of those that were written
        rw [List.flatMap_cons, nextFrame_writeFrame (hshort frame List.mem_cons_self)] at hmore
        obtain ⟨rfl, hrest⟩ := Prod.mk.inj (Option.some.inj hmore)
        obtain ⟨hlen, -, hdrop⟩ := nextFrame_some hnext
        have hlt : rest.length + size reader < n := by
          rw [hdrop, List.length_drop]
          omega
        have hih := ih _ hlt (fun frame hmem => hshort frame (List.mem_cons_of_mem _ hmem)) hrest.symm rfl (k := k + 1)
        rw [runConnectionReader_frame hnext, hih, List.map_cons]
    | none =>
      have hnil : content reader = [] →
          (runConnectionReader capacity k mainBuf []).1 = frames.map MuxFrame.decoded := by
        intro hc
        rw [hc, List.append_nil] at h
        rw [(runConnectionReader_end hnext []).1]
        cases frames with
        | nil => rfl
        | cons frame frames =>
          rw [h, List.flatMap_cons, nextFrame_writeFrame (hshort frame List.mem_cons_self)] at hnext
          cases hnext
      cases reader with
      | nil => exact hnil rfl
      | cons a reader =>
        cases a with
        | fault =>
          have := hnil rfl
          rw [(runConnectionReader_end hnext []).1] at this
          rw [(runConnectionReader_end hnext reader).2, this]
        | data bs =>
          rw [runConnectionReader_read hnext]
          refine ih ((mainBuf ++ bs).length + size reader) ?_ hshort ?_ rfl
          · rw [List.length_append, ← hn, size]
            omega
          · rw [List.append_assoc]
            exact h

/-- **The mux codec round trip**: frames that fit their bits are decoded as they were written, whatever the pieces
that they arrive in and whenever the buffer is replaced. -/
theorem mux_codec_roundtrip (frames : List MuxFrame) (reader : List (Arrival UInt8)) (capacity : ℕ → ℕ)
    (hfits : ∀ frame ∈ frames, frame.streamId.toNat < 2 ^ 30 ∧ frame.cmd.toNat ≤ 3 ∧ frame.payload.length ≤ 65535)
    (hcontent : content reader = frames.flatMap writeFrame) :
    (runConnectionReader capacity 0 [] reader).1 =
      frames.map fun frame => ⟨frame.streamId, frame.cmd, frame.payload⟩ := by
  rw [runConnectionReader_of_frames (fun frame hmem => (hfits frame hmem).2.2) hcontent]
  exact List.map_congr_left fun frame hmem => decoded_of_fits (hfits frame hmem)

/-- An opening and a data frame, of which the first arrives in two pieces. -/
theorem mux_codec_roundtrip_split :
    (runConnectionReader (fun _ => 300000) 0 []
        [.data [64, 0, 0], .data [7, 0, 1, 104, 0, 0, 0, 7, 0, 2, 1], .data [2]]).1 =
      [⟨7, 1, [104]⟩, ⟨7, 0, [1, 2]⟩] :=
  mux_codec_roundtrip [⟨7, 1, [104], false⟩, ⟨7, 0, [1, 2], false⟩] _ _ (by decide) (by decide)

end RXCore
