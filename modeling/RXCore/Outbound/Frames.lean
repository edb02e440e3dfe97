import RXCore.Lib.Arrivals
import RXCore.Inbound.Socks5

/-!
# Frames in one buffer

The reading halves of `handle_multiplexed` and of the downstream task of a client: over a stream that arrives
in pieces, with the buffer that both reuse and with the bounds that every index is checked against.

* `frameRead`, `framesRead`: frames with a length and a number in front, for any way to decode them;
* `frameTarget`, `downstreamTarget`: the two ways; `bodyTarget`, `bodyOffset`: what they find in a frame alone;
* **`frames_isolated`**: no index is out of range, and every frame is decoded as if it were the only one;
* `multiplexedFrame_wire`, `downstreamFrame_wire`: the loops without bounds do the same.
-/

set_option autoImplicit false

namespace RXCore

open Arrivals Encoding

/-! ## Indices -/

/-- `buf[i]`. -/
def indexAt (buf : List UInt8) (i : ℕ) : Except String UInt8 :=
  match buf[i]? with
  | some b => .ok b
  | none => .error "index out of bounds"

/-- `buf[i..j]`. -/
def rangeAt (buf : List UInt8) (i j : ℕ) : Except String (List UInt8) :=
  if i ≤ j ∧ j ≤ buf.length then .ok (slice buf i (j - i)) else .error "range out of bounds"

/-- `u16::from_be_bytes([buf[i], buf[i + 1]])`. -/
def portIndexed (buf : List UInt8) (i : ℕ) : Except String UInt16 := do
  let hi ← indexAt buf i
  let lo ← indexAt buf (i + 1)
  return .ofNat (u16 hi lo)

section

variable {body tail : List UInt8} {i j n : ℕ}

theorem getD_body (h : i < body.length) : (body ++ tail).getD i 0 = body.getD i 0 := List.getD_append _ _ _ _ h

theorem slice_body (h : i + n ≤ body.length) : slice (body ++ tail) i n = slice body i n := by
  rw [slice, slice, List.drop_append_of_le_length (by omega),
    List.take_append_of_le_length (by rw [List.length_drop]; omega)]

theorem portAt_body (h : i + 1 < body.length) : portAt (body ++ tail) i = portAt body i := by
  rw [portAt, portAt, u16At, u16At, getD_body (by omega), getD_body h]

theorem indexAt_eq {buf : List UInt8} (h : i < buf.length) : indexAt buf i = .ok (buf.getD i 0) := by
  rw [indexAt, List.getElem?_eq_getElem h, List.getD_eq_getElem _ _ h]

theorem indexAt_body (h : i < body.length) : indexAt (body ++ tail) i = .ok (body.getD i 0) := by
  rw [indexAt_eq (by rw [List.length_append]; omega), getD_body h]

theorem rangeAt_body (hij : i ≤ j) (h : j ≤ body.length) :
    rangeAt (body ++ tail) i j = .ok (slice body i (j - i)) := by
  rw [rangeAt, if_pos ⟨hij, by rw [List.length_append]; omega⟩, slice_body (by omega)]

theorem portIndexed_body (h : i + 1 < body.length) : portIndexed (body ++ tail) i = .ok (portAt body i) := by
  rw [portIndexed, indexAt_body (by omega), indexAt_body h]
  rfl

end

/-! ## Reading -/

/-- A frame: its number, what was found in it, its header and its payload. -/
structure RawFrame (τ : Type) where
  assocId : UInt16
  found : τ
  header : List UInt8
  payload : List UInt8
deriving DecidableEq

/-- A frame is decoded from the buffer: what is found, and the offset of the payload. -/
abbrev Decode (τ : Type) := (payloadBuf : List UInt8) → (frameLen : ℕ) → Except String (Option (τ × ℕ))

/-- A frame in the buffer, cut into header and payload. -/
def frameBody {τ : Type} (decode : Decode τ) (payloadBuf : List UInt8) (frameLen : ℕ) :
    Except String (Option (τ × List UInt8 × List UInt8)) :=
  match decode payloadBuf frameLen with
  | .error e => .error e
  | .ok none => .ok none
  | .ok (some (found, offset)) =>
    if frameLen < offset then .ok none
    else do
      let payload ← rangeAt payloadBuf offset frameLen
      let header ← rangeAt payloadBuf 0 offset
      return some (found, header, payload)

/-- The reading part of either loop; `none` ends it. -/
def frameRead {τ : Type} (decode : Decode τ) (stream : List (Arrival UInt8)) (payloadBuf : List UInt8) :
    Except String (Option (List (Arrival UInt8) × List UInt8 × Option (RawFrame τ))) :=
  match recvExact 4 stream with
  | (none, _) => .ok none
  | (some headerBuf, stream) =>
    let totalLen := u16At headerBuf 0
    if totalLen < 2 ∨ 65535 < totalLen then .ok none
    else if payloadBuf.length < totalLen - 2 then .error "range out of bounds"
    else match recvExact (totalLen - 2) stream with
      | (none, _) => .ok none
      | (some frame, stream) =>
        let payloadBuf := frame ++ payloadBuf.drop frame.length
        (frameBody decode payloadBuf frame.length).map fun found => some (stream, payloadBuf,
          found.map fun (found, header, payload) => ⟨portAt headerBuf 2, found, header, payload⟩)

/-- So many frames in turn. -/
def framesRead {τ : Type} (decode : Decode τ) : ℕ → List (Arrival UInt8) → List UInt8 →
    Except String (Option (List (Arrival UInt8) × List UInt8 × List (Option (RawFrame τ))))
  | 0, stream, payloadBuf => .ok (some (stream, payloadBuf, []))
  | n + 1, stream, payloadBuf => match frameRead decode stream payloadBuf with
    | .error e => .error e
    | .ok none => .ok none
    | .ok (some (stream, payloadBuf, frame)) => match framesRead decode n stream payloadBuf with
      | .error e => .error e
      | .ok none => .ok none
      | .ok (some (stream, payloadBuf, frames)) => .ok (some (stream, payloadBuf, frame :: frames))

/-! ## Decoding -/

/-- The target of a frame in `handle_multiplexed`, before its name is resolved. -/
def frameTarget (ipv4Only : Bool) : Decode UdpTarget := fun payloadBuf frameLen => do
  let atyp ← indexAt payloadBuf 0
  if atyp = 1 then
    if frameLen < 1 + 4 + 2 then return none
    else
      let ip ← rangeAt payloadBuf 1 5
      let port ← portIndexed payloadBuf 5
      return some (.ip (.v4 (.ofOctets ip)) port, 7)
  else if atyp = 4 then
    if ipv4Only ∨ frameLen < 1 + 16 + 2 then return none
    else
      let ip ← rangeAt payloadBuf 1 17
      let port ← portIndexed payloadBuf 17
      return some (.ip (.v6 (.ofOctets ip)) port, 19)
  else if atyp = 3 then
    if frameLen < 1 + 1 then return none
    else
      let len ← indexAt payloadBuf 1
      if frameLen < 2 + len.toNat + 2 then return none
      else
        let domainBytes ← rangeAt payloadBuf 2 (2 + len.toNat)
        let port ← portIndexed payloadBuf (2 + len.toNat)
        return (fromUtf8 domainBytes).map fun domain => (.domain domain port, 2 + len.toNat + 2)
  else return none

/-- The downstream task looks for the payload only. -/
def downstreamTarget : Decode Unit := fun payloadBuf _ => do
  let atyp ← indexAt payloadBuf 0
  if atyp = 1 then return some ((), 1 + 4 + 2)
  else if atyp = 3 then
    let len ← indexAt payloadBuf 1
    return some ((), 1 + 1 + len.toNat + 2)
  else if atyp = 4 then return some ((), 1 + 16 + 2)
  else return none

/-- The target in the body of a frame, and where its payload starts. -/
def bodyTarget (ipv4Only : Bool) (body : List UInt8) : Option (UdpTarget × ℕ) :=
  let atyp := body.getD 0 0
  let len := (body.getD 1 0).toNat
  if atyp = 1 ∧ 7 ≤ body.length then some (.ip (.v4 (.ofOctets (slice body 1 4))) (portAt body 5), 7)
  else if atyp = 4 ∧ ipv4Only = false ∧ 19 ≤ body.length then
    some (.ip (.v6 (.ofOctets (slice body 1 16))) (portAt body 17), 19)
  else if atyp = 3 ∧ 2 + len + 2 ≤ body.length then
    (fromUtf8 (slice body 2 len)).map fun domain => (.domain domain (portAt body (2 + len)), 2 + len + 2)
  else none

/-- Where the payload starts in the body of a frame on the way back. -/
def bodyOffset (body : List UInt8) : Option (Unit × ℕ) :=
  ((downstreamOffset body).filter (· ≤ body.length)).map fun offset => ((), offset)

/-- A body cut where its payload starts. -/
def cut {τ : Type} (body : List UInt8) (found : Option (τ × ℕ)) : Option (τ × List UInt8 × List UInt8) :=
  found.map fun (t, offset) => (t, body.take offset, body.drop offset)

/-- In whatever buffer it lies, a frame is decoded without a panic, to what is in its body. -/
def Finds {τ : Type} (decode : Decode τ) (spec : List UInt8 → Option (τ × ℕ)) : Prop :=
  ∀ body tail : List UInt8, 2 ≤ body.length + tail.length → ∃ found,
    decode (body ++ tail) body.length = .ok found ∧ found.filter (fun f => f.2 ≤ body.length) = spec body

theorem Finds.frameBody {τ : Type} {decode : Decode τ} {spec : List UInt8 → Option (τ × ℕ)} (h : Finds decode spec)
    {body tail : List UInt8} (hlen : 2 ≤ body.length + tail.length) :
    frameBody decode (body ++ tail) body.length = .ok (cut body (spec body)) := by
  obtain ⟨found, hfound, hspec⟩ := h body tail hlen
  rw [RXCore.frameBody, hfound, ← hspec]
  cases found with
  | none => rfl
  | some f =>
    obtain ⟨t, offset⟩ := f
    by_cases hoffset : offset ≤ body.length
    · have hdrop : slice body offset (body.length - offset) = body.drop offset := by
        rw [slice, List.take_of_length_le (by rw [List.length_drop])]
      simp only [if_neg (not_lt.mpr hoffset), rangeAt_body hoffset le_rfl, rangeAt_body (Nat.zero_le _) hoffset, hdrop,
        Option.filter, hoffset, decide_true, if_true]
      rfl
    · simp [not_le.mp hoffset, cut]

theorem frameTarget_eq (ipv4Only : Bool) {body tail : List UInt8} (hlen : 2 ≤ body.length + tail.length) :
    frameTarget ipv4Only (body ++ tail) body.length = .ok (bodyTarget ipv4Only body) := by
  rcases Nat.eq_zero_or_pos body.length with hzero | hpos
  · -- whatever an earlier frame has left, the length excludes every address
    obtain rfl := List.length_eq_zero_iff.mp hzero
    have hb : indexAt tail 0 = .ok (tail.getD 0 0) := indexAt_eq (by rw [List.length_nil] at hlen; omega)
    simp [frameTarget, bodyTarget, hb, bind, Except.bind, pure, Except.pure]
  simp only [frameTarget, bodyTarget, indexAt_body hpos, bind, Except.bind]
  by_cases h1 : body.getD 0 0 = 1
  · by_cases h7 : 7 ≤ body.length
    · simp only [h1, if_true, if_neg (not_lt.mpr h7), rangeAt_body (show 1 ≤ 5 by decide) (by omega : 5 ≤ body.length),
        portIndexed_body (by omega : 5 + 1 < body.length), true_and, h7]
      rfl
    · simp only [h1, if_true, if_pos (not_le.mp h7), h7, and_false, if_false]
      rfl
  by_cases h4 : body.getD 0 0 = 4
  · by_cases h19 : ipv4Only = false ∧ 19 ≤ body.length
    · obtain ⟨hmode, h19⟩ := h19
      simp only [h4, if_true, hmode, Bool.false_eq_true, false_or, if_neg (not_lt.mpr h19),
        rangeAt_body (show 1 ≤ 17 by decide) (by omega : 17 ≤ body.length),
        portIndexed_body (by omega : 17 + 1 < body.length), true_and, h19]
      rfl
    · have hrefused : ipv4Only = true ∨ body.length < 1 + 16 + 2 := by
        by_contra hc
        rw [not_or, Bool.not_eq_true, not_lt] at hc
        exact h19 hc
      simp only [h4, if_true, if_pos hrefused, h19, and_false, if_false]
      rfl
  by_cases h3 : body.getD 0 0 = 3
  · by_cases h2 : body.length < 1 + 1
    · have hshort : ¬ 2 + (body.getD 1 0).toNat + 2 ≤ body.length := by omega
      simp only [h3, if_true, if_pos h2, hshort, and_false, if_false]
      rfl
    · simp only [h3, if_true, if_neg h2, indexAt_body (by omega : 1 < body.length), true_and]
      by_cases hdomain : 2 + (body.getD 1 0).toNat + 2 ≤ body.length
      · simp only [if_neg (not_lt.mpr hdomain), if_pos hdomain,
          rangeAt_body (show 2 ≤ 2 + (body.getD 1 0).toNat by omega) (by omega : 2 + (body.getD 1 0).toNat ≤ body.length),
          portIndexed_body (by omega : 2 + (body.getD 1 0).toNat + 1 < body.length), Nat.add_sub_cancel_left]
        rfl
      · simp only [if_pos (not_le.mp hdomain), if_neg hdomain]
        rfl
  · simp only [h1, h4, h3, if_false, false_and]
    rfl

theorem bodyTarget_le {ipv4Only : Bool} {body : List UInt8} {f : UdpTarget × ℕ}
    (h : bodyTarget ipv4Only body = some f) : f.2 ≤ body.length := by
  simp only [bodyTarget] at h
  split_ifs at h with h1 h4 h3
  · obtain rfl := Option.some.inj h
    exact h1.2
  · obtain rfl := Option.some.inj h
    exact h4.2.2
  · obtain ⟨domain, -, rfl⟩ := Option.map_eq_some_iff.mp h
    exact h3.2

theorem frameTarget_finds (ipv4Only : Bool) : Finds (frameTarget ipv4Only) (bodyTarget ipv4Only) := by
  intro body tail hlen
  refine ⟨_, frameTarget_eq ipv4Only hlen, ?_⟩
  cases h : bodyTarget ipv4Only body with
  | none => rfl
  | some f => exact Option.filter_some_pos (decide_eq_true (bodyTarget_le h))

theorem downstreamTarget_eq {payloadBuf : List UInt8} (h : 2 ≤ payloadBuf.length) (frameLen : ℕ) :
    downstreamTarget payloadBuf frameLen = .ok ((downstreamOffset payloadBuf).map ((), ·)) := by
  simp only [downstreamTarget, downstreamOffset, bind, Except.bind, indexAt_eq (by omega : 0 < payloadBuf.length),
    indexAt_eq (by omega : 1 < payloadBuf.length)]
  split_ifs <;> rfl

theorem downstreamOffset_ge {buf : List UInt8} {offset : ℕ} (h : downstreamOffset buf = some offset) : 4 ≤ offset := by
  simp only [downstreamOffset] at h
  split_ifs at h
  · obtain rfl := Option.some.inj h
    omega
  · obtain rfl := Option.some.inj h
    omega
  · obtain rfl := Option.some.inj h
    omega

/-- An offset that comes from what an earlier frame has left is behind the frame. -/
theorem downstreamOffset_body (body tail : List UInt8) :
    (downstreamOffset (body ++ tail)).filter (· ≤ body.length) =
      (downstreamOffset body).filter (· ≤ body.length) := by
  rcases Nat.lt_or_ge 1 body.length with hlong | hshort
  · simp only [downstreamOffset, getD_body (by omega : 0 < body.length), getD_body hlong]
  · have hnone : ∀ buf, (downstreamOffset buf).filter (· ≤ body.length) = none := by
      intro buf
      rw [Option.filter_eq_none_iff]
      intro offset hoffset
      have := downstreamOffset_ge hoffset
      rw [decide_eq_true_eq]
      omega
    rw [hnone, hnone]

theorem downstreamTarget_finds : Finds downstreamTarget bodyOffset := by
  intro body tail hlen
  refine ⟨_, downstreamTarget_eq (by rw [List.length_append]; exact hlen) _, ?_⟩
  rw [Option.filter_map, bodyOffset, ← downstreamOffset_body body tail]
  rfl

/-! ## Sequences -/

/-- A frame on the wire: its number and its body, with the length in front. -/
def wireFrame (frame : UInt16 × List UInt8) : List UInt8 :=
  u16Bytes (2 + frame.2.length) ++ u16Bytes frame.1.toNat ++ frame.2

/-- What is in the body of a frame. -/
def isolated {τ : Type} (spec : List UInt8 → Option (τ × ℕ)) (frame : UInt16 × List UInt8) : Option (RawFrame τ) :=
  (cut frame.2 (spec frame.2)).map fun (found, header, payload) => ⟨frame.1, found, header, payload⟩

/-- The room for the body of a frame. -/
def payloadRoom : ℕ := 65535

/-- A frame that is the only one to arrive, in a new buffer. -/
def onlyFrame {τ : Type} (decode : Decode τ) (frame : UInt16 × List UInt8) : Except String (Option (RawFrame τ)) :=
  (frameRead decode [.data (wireFrame frame)] (.replicate payloadRoom 0)).map fun r => r.bind fun (_, _, f) => f

section

variable {τ : Type} {decode : Decode τ} {spec : List UInt8 → Option (τ × ℕ)} {stream : List (Arrival UInt8)}
  {payloadBuf rest : List UInt8}

/-- Header and payload are the body of the frame. -/
theorem isolated_body {frame : UInt16 × List UInt8} {f : RawFrame τ} (h : isolated spec frame = some f) :
    f.assocId = frame.1 ∧ f.header ++ f.payload = frame.2 := by
  obtain ⟨⟨t, header, payload⟩, hcut, rfl⟩ := Option.map_eq_some_iff.mp h
  obtain ⟨⟨t', offset⟩, -, hcut⟩ := Option.map_eq_some_iff.mp hcut
  obtain ⟨rfl, rfl, rfl⟩ := by simpa using hcut
  exact ⟨rfl, List.take_append_drop _ _⟩

/-- The buffer keeps its length. -/
theorem refill_length {frame : List UInt8} (hroom : payloadBuf.length = payloadRoom) (h : frame.length ≤ payloadRoom) :
    (frame ++ payloadBuf.drop frame.length).length = payloadRoom := by
  rw [List.length_append, List.length_drop, hroom]
  omega

/-- The length in the header of a frame. -/
theorem u16At_header {n : ℕ} (hfits : n ≤ 65535) (assocId : UInt16) :
    u16At (u16Bytes n ++ u16Bytes assocId.toNat) 0 = n := by
  have := u16At_append [] (u16Bytes assocId.toNat) n
  rwa [Nat.mod_eq_of_lt (by omega)] at this

/-- The association in the header of a frame. -/
theorem portAt_header (n : ℕ) (assocId : UInt16) :
    portAt (u16Bytes n ++ u16Bytes assocId.toNat) 2 = assocId := by
  have := portAt_append (u16Bytes n) [] assocId
  rwa [List.append_nil] at this

/-- **A frame is read in whatever pieces it arrives**, and whatever is in the buffer. -/
theorem frameRead_wire (hdecode : Finds decode spec) (frame : UInt16 × List UInt8)
    (hfits : 2 + frame.2.length ≤ 65535) (hroom : payloadBuf.length = payloadRoom)
    (h : content stream = wireFrame frame ++ rest) : ∃ stream', content stream' = rest ∧
      frameRead decode stream payloadBuf =
        .ok (some (stream', frame.2 ++ payloadBuf.drop frame.2.length, isolated spec frame)) := by
  obtain ⟨assocId, body⟩ := frame
  replace hfits : 2 + body.length ≤ 65535 := hfits
  rw [payloadRoom] at hroom
  have hheader : content stream = (u16Bytes (2 + body.length) ++ u16Bytes assocId.toNat) ++ (body ++ rest) := by
    rw [h, wireFrame]
    simp only [List.append_assoc]
  obtain ⟨stream₁, hrecv, hcontent⟩ := recvExact_eq hheader
  obtain ⟨stream₂, hrecv', hcontent'⟩ := recvExact_eq hcontent
  have hlen := u16At_header hfits assocId
  have hid := portAt_header (2 + body.length) assocId
  have hframe := hdecode.frameBody
    (show 2 ≤ body.length + (payloadBuf.drop body.length).length by rw [List.length_drop]; omega)
  refine ⟨stream₂, hcontent', ?_⟩
  rw [frameRead, show (4 : ℕ) = (u16Bytes (2 + body.length) ++ u16Bytes assocId.toNat).length from rfl, hrecv]
  simp only [hlen, hid, Nat.add_sub_cancel_left]
  rw [if_neg (by omega), if_neg (by omega), hrecv']
  simp only [hframe]
  rfl

/-- **Every frame of a sequence is read as what is in its body.** -/
theorem framesRead_wire (hdecode : Finds decode spec) (frames : List (UInt16 × List UInt8))
    (hfits : ∀ f ∈ frames, 2 + f.2.length ≤ 65535) (hroom : payloadBuf.length = payloadRoom)
    (h : content stream = frames.flatMap wireFrame ++ rest) : ∃ stream' payloadBuf', content stream' = rest ∧
      payloadBuf'.length = payloadRoom ∧
      framesRead decode frames.length stream payloadBuf =
        .ok (some (stream', payloadBuf', frames.map (isolated spec))) := by
  induction frames generalizing stream payloadBuf with
  | nil => exact ⟨stream, payloadBuf, h, hroom, rfl⟩
  | cons frame frames ih =>
    have hframe := hfits frame List.mem_cons_self
    rw [List.flatMap_cons, List.append_assoc] at h
    obtain ⟨stream₁, hcontent, hread⟩ := frameRead_wire hdecode frame hframe hroom h
    have hroom' := refill_length hroom (show frame.2.length ≤ payloadRoom by rw [payloadRoom]; omega)
    obtain ⟨stream', payloadBuf', hcontent', hlen', hread'⟩ :=
      ih (fun f hf => hfits f (List.mem_cons_of_mem _ hf)) hroom' hcontent
    refine ⟨stream', payloadBuf', hcontent', hlen', ?_⟩
    rw [List.length_cons, framesRead, hread]
    simp only [hread']
    rfl

theorem frameRead_ok (hdecode : Finds decode spec) (stream : List (Arrival UInt8))
    (hroom : payloadBuf.length = payloadRoom) : ∃ r, frameRead decode stream payloadBuf = .ok r ∧
      ∀ x ∈ r, x.2.1.length = payloadRoom := by
  rw [payloadRoom] at hroom ⊢
  unfold frameRead
  rcases recvExact 4 stream with ⟨_ | headerBuf, stream₁⟩
  · exact ⟨none, rfl, fun x hx => nomatch hx⟩
  · simp only
    split_ifs with hlen hpanic
    · exact ⟨none, rfl, fun x hx => nomatch hx⟩
    · rw [not_or] at hlen
      omega
    · rcases hrecv : recvExact (u16At headerBuf 0 - 2) stream₁ with ⟨_ | frame, stream₂⟩
      · exact ⟨none, rfl, fun x hx => nomatch hx⟩
      · have hframe := recvExact_length hrecv
        have hbody := hdecode.frameBody
          (show 2 ≤ frame.length + (payloadBuf.drop frame.length).length by rw [List.length_drop]; omega)
        simp only [hbody]
        refine ⟨_, rfl, fun x hx => ?_⟩
        obtain rfl := Option.some.inj hx
        exact refill_length hroom (by rw [payloadRoom]; omega)

/-- **Whatever arrives, no index is out of range.** -/
theorem framesRead_ok (hdecode : Finds decode spec) (n : ℕ) (stream : List (Arrival UInt8))
    (hroom : payloadBuf.length = payloadRoom) : ∃ r, framesRead decode n stream payloadBuf = .ok r := by
  induction n generalizing stream payloadBuf with
  | zero => exact ⟨_, rfl⟩
  | succ n ih =>
    obtain ⟨r, hread, hlen⟩ := frameRead_ok hdecode stream hroom
    rw [framesRead, hread]
    rcases r with _ | ⟨stream', payloadBuf', f⟩
    · exact ⟨none, rfl⟩
    · obtain ⟨r', hread'⟩ := ih stream' (hlen _ rfl)
      simp only [hread']
      rcases r' with _ | ⟨stream'', payloadBuf'', frames⟩
      · exact ⟨none, rfl⟩
      · exact ⟨_, rfl⟩

/-- Also the only frame is read so. -/
theorem onlyFrame_eq (hdecode : Finds decode spec) (frame : UInt16 × List UInt8)
    (hfits : 2 + frame.2.length ≤ 65535) : onlyFrame decode frame = .ok (isolated spec frame) := by
  obtain ⟨stream', -, hread⟩ := frameRead_wire hdecode frame hfits
    (List.length_replicate (n := payloadRoom) (a := 0))
    (show content [.data (wireFrame frame)] = wireFrame frame ++ [] from rfl)
  rw [onlyFrame, hread]
  rfl

end

/-! ## Isolation -/

/-- A loop reads a sequence of frames, and each as it reads it when it is the only one; what it takes from a
frame is the body of the frame. -/
def ReadsAlone {τ : Type} (decode : Decode τ) (frames : List (UInt16 × List UInt8)) (stream : List (Arrival UInt8))
    (payloadBuf rest : List UInt8) : Prop :=
  ∃ stream' payloadBuf' found,
    framesRead decode frames.length stream payloadBuf = .ok (some (stream', payloadBuf', found)) ∧
      content stream' = rest ∧
        List.Forall₂ (fun frame f => onlyFrame decode frame = .ok f ∧
          ∀ x ∈ f, x.assocId = frame.1 ∧ x.header ++ x.payload = frame.2) frames found

theorem Finds.readsAlone {τ : Type} {decode : Decode τ} {spec : List UInt8 → Option (τ × ℕ)} (hdecode : Finds decode spec)
    {frames : List (UInt16 × List UInt8)} {stream : List (Arrival UInt8)} {payloadBuf rest : List UInt8}
    (hfits : ∀ f ∈ frames, 2 + f.2.length ≤ 65535) (hroom : payloadBuf.length = payloadRoom)
    (h : content stream = frames.flatMap wireFrame ++ rest) : ReadsAlone decode frames stream payloadBuf rest := by
  obtain ⟨stream', payloadBuf', hcontent, -, hread⟩ := framesRead_wire hdecode frames hfits hroom h
  refine ⟨stream', payloadBuf', _, hread, hcontent, ?_⟩
  rw [List.forall₂_map_right_iff, List.forall₂_same]
  intro f hf
  exact ⟨onlyFrame_eq hdecode f (hfits f hf), fun x hx => isolated_body hx⟩

/-- **Frames are isolated.** In either loop no index is out of range, whatever arrives, and in a sequence of frames
every one is decoded as if it were the only one, whatever bodies the others have. -/
theorem frames_isolated (ipv4Only : Bool) (payloadBuf : List UInt8) (hroom : payloadBuf.length = payloadRoom) :
    (∀ n stream, (∃ r, framesRead (frameTarget ipv4Only) n stream payloadBuf = .ok r) ∧
      ∃ r, framesRead downstreamTarget n stream payloadBuf = .ok r) ∧
    ∀ (frames : List (UInt16 × List UInt8)) (rest : List UInt8) (stream : List (Arrival UInt8)),
      (∀ f ∈ frames, 2 + f.2.length ≤ 65535) → content stream = frames.flatMap wireFrame ++ rest →
        ReadsAlone (frameTarget ipv4Only) frames stream payloadBuf rest ∧
          ReadsAlone downstreamTarget frames stream payloadBuf rest := by
  have hup := frameTarget_finds ipv4Only
  have hdown := downstreamTarget_finds
  constructor
  · intro n stream
    exact ⟨framesRead_ok hup n stream hroom, framesRead_ok hdown n stream hroom⟩
  · intro frames rest stream hfits h
    exact ⟨hup.readsAlone hfits hroom h, hdown.readsAlone hfits hroom h⟩

/-- A name server's address, nothing, a name that is cut off, and a type alone. -/
def oddFrames : List (UInt16 × List UInt8) := [(1, [1, 8, 8, 8, 8, 0, 53, 7]), (1, []), (2, [3, 9, 97]), (1, [3])]

theorem oddFrames_isolated :
    ReadsAlone (frameTarget false) oddFrames [.data (oddFrames.flatMap wireFrame)] (.replicate payloadRoom 0) [] ∧
      ReadsAlone downstreamTarget oddFrames [.data (oddFrames.flatMap wireFrame)] (.replicate payloadRoom 0) [] :=
  (frames_isolated false _ List.length_replicate).2 oddFrames [] _ (by decide) rfl

/-! ## The loops -/

/-- The host, the port and the address of a target. -/
def UdpTarget.locate (A : Answers) : UdpTarget → Option (String × UInt16 × SocketAddr)
  | .ip addr port => some (addr.display, port, ⟨addr, port⟩)
  | .domain name port => match A.resolve name port .direct with
    | .ok ((addr, port') :: _) => some (name, port, ⟨.v4 addr, port'⟩)
    | _ => none

/-- The frame that the loop of `handle_multiplexed` sends on. -/
def RawFrame.toFrame (A : Answers) (f : RawFrame UdpTarget) : Option Frame :=
  (f.found.locate A).map fun (host, port, addr) => ⟨.assoc f.assocId, host, port, some addr, f.header, f.payload⟩

section

variable {A : Answers} {body tail rest payloadBuf : List UInt8} {i n : ℕ}

/-- The target that the loop finds in its buffer is the target in the body of the frame. -/
theorem multiplexedTarget_body (A : Answers) (ipv4Only : Bool) (body tail : List UInt8) :
    multiplexedTarget A ipv4Only (body ++ tail) body.length = (bodyTarget ipv4Only body).bind fun (t, offset) =>
      (t.locate A).map fun (host, port, addr) => (host, port, addr, offset) := by
  rcases Nat.eq_zero_or_pos body.length with hzero | hpos
  · obtain rfl := List.length_eq_zero_iff.mp hzero
    have hnone : bodyTarget ipv4Only [] = none := by simp [bodyTarget]
    rw [hnone, multiplexedTarget]
    simp
  rw [multiplexedTarget, bodyTarget]
  simp only [getD_body hpos]
  by_cases h1 : body.getD 0 0 = 1
  · by_cases h7 : 7 ≤ body.length
    · simp only [h1, if_true, if_neg (not_lt.mpr h7), h7, and_self, slice_body (by omega : 1 + 4 ≤ body.length),
        portAt_body (by omega : 5 + 1 < body.length)]
      rfl
    · simp only [h1, if_true, if_pos (not_le.mp h7), h7, and_false, if_false]
      rfl
  by_cases h4 : body.getD 0 0 = 4
  · by_cases h19 : ipv4Only = false ∧ 19 ≤ body.length
    · obtain ⟨hmode, h19⟩ := h19
      simp only [h4, if_true, hmode, Bool.false_eq_true, false_or, if_neg (not_lt.mpr h19), h19, and_self,
        slice_body (by omega : 1 + 16 ≤ body.length), portAt_body (by omega : 17 + 1 < body.length)]
      rfl
    · have hrefused : ipv4Only = true ∨ body.length < 1 + 16 + 2 := by
        by_contra hc
        rw [not_or, Bool.not_eq_true, not_lt] at hc
        exact h19 hc
      simp only [h4, if_true, if_pos hrefused, h19, and_false, if_false]
      rfl
  by_cases h3 : body.getD 0 0 = 3
  · by_cases h2 : body.length < 1 + 1
    · have hshort : ¬ 2 + (body.getD 1 0).toNat + 2 ≤ body.length := by omega
      simp only [h3, if_true, h2, true_or, hshort, and_false, if_false]
      rfl
    · simp only [h3, if_true, getD_body (by omega : 1 < body.length), h2, false_or, true_and]
      by_cases hdomain : 2 + (body.getD 1 0).toNat + 2 ≤ body.length
      · simp only [if_neg (not_lt.mpr hdomain), if_pos hdomain, slice_body (by omega : 2 + (body.getD 1 0).toNat ≤ body.length),
          portAt_body (by omega : 2 + (body.getD 1 0).toNat + 1 < body.length)]
        cases fromUtf8 (slice body 2 (body.getD 1 0).toNat) with
        | none => rfl
        | some domain =>
          have h31 : ¬ (3 : UInt8) = 1 := by decide
          have h34 : ¬ (3 : UInt8) = 4 := by decide
          simp only [h31, h34, if_false, false_and, Option.map_some, Option.bind_some, UdpTarget.locate]
          rcases A.resolve domain (portAt body (2 + (body.getD 1 0).toNat)) .direct with e | _ | ⟨addr, l⟩ <;> rfl
      · simp only [if_pos (not_le.mp hdomain), if_neg hdomain]
        rfl
  · simp only [h1, h4, h3, if_false, false_and]
    rfl

theorem readExact_append (bs rest : List UInt8) : readExact bs.length (bs ++ rest) = some (bs, rest) := by
  rw [readExact, if_pos (by rw [List.length_append]; omega), List.take_left, List.drop_left]

/-- What the header of a frame says. -/
theorem readExact_wire (frame : UInt16 × List UInt8) (hfits : 2 + frame.2.length ≤ 65535) (rest : List UInt8) :
    ∃ headerBuf, readExact 4 (wireFrame frame ++ rest) = some (headerBuf, frame.2 ++ rest) ∧
      u16At headerBuf 0 = 2 + frame.2.length ∧ portAt headerBuf 2 = frame.1 := by
  obtain ⟨assocId, body⟩ := frame
  replace hfits : 2 + body.length ≤ 65535 := hfits
  refine ⟨u16Bytes (2 + body.length) ++ u16Bytes assocId.toNat, ?_, u16At_header hfits assocId,
    portAt_header (2 + body.length) assocId⟩
  rw [wireFrame, List.append_assoc]
  exact readExact_append (u16Bytes (2 + body.length) ++ u16Bytes assocId.toNat) (body ++ rest)

/-- **The loop of `handle_multiplexed` sends on what is in the body of a frame.** -/
theorem multiplexedFrame_wire (A : Answers) (ipv4Only : Bool) (frame : UInt16 × List UInt8)
    (hfits : 2 + frame.2.length ≤ 65535) (payloadBuf rest : List UInt8) :
    multiplexedFrame A ipv4Only (wireFrame frame ++ rest) payloadBuf =
      some (rest, frame.2 ++ payloadBuf.drop frame.2.length,
        (isolated (bodyTarget ipv4Only) frame).bind (·.toFrame A)) := by
  obtain ⟨headerBuf, hheader, hlen, hid⟩ := readExact_wire frame hfits rest
  simp only [multiplexedFrame, hheader, Option.bind_eq_bind, Option.bind_some, hlen, hid, Nat.add_sub_cancel_left,
    readExact_append, multiplexedTarget_body]
  rw [if_neg (by omega)]
  refine congrArg (fun f => some (rest, frame.2 ++ payloadBuf.drop frame.2.length, f)) ?_
  rw [isolated, cut]
  cases hbody : bodyTarget ipv4Only frame.2 with
  | none => rfl
  | some f =>
    obtain ⟨t, offset⟩ := f
    have hle := bodyTarget_le hbody
    have hpayload : slice (frame.2 ++ payloadBuf.drop frame.2.length) offset (frame.2.length - offset) =
        frame.2.drop offset := by
      rw [slice_body (by simp only at hle; omega), slice, List.take_of_length_le (by rw [List.length_drop])]
    cases ht : t.locate A with
    | none => simp [RawFrame.toFrame, ht]
    | some located => simp [RawFrame.toFrame, ht, hpayload, List.take_append_of_le_length hle]

/-- **The downstream task passes on what is in the body of a frame.** -/
theorem downstreamFrame_wire (frame : UInt16 × List UInt8) (hfits : 2 + frame.2.length ≤ 65535)
    (payloadBuf rest : List UInt8) :
    downstreamFrame (wireFrame frame ++ rest) payloadBuf =
      some (rest, frame.2 ++ payloadBuf.drop frame.2.length,
        (isolated bodyOffset frame).map fun f => ⟨f.assocId, f.header, f.payload⟩) := by
  obtain ⟨headerBuf, hheader, hlen, hid⟩ := readExact_wire frame hfits rest
  simp only [downstreamFrame, hheader, Option.bind_eq_bind, Option.bind_some, hlen, hid, Nat.add_sub_cancel_left,
    readExact_append]
  rw [if_neg (by omega)]
  refine congrArg (fun f => some (rest, frame.2 ++ payloadBuf.drop frame.2.length, f)) ?_
  rw [isolated, cut, bodyOffset, ← downstreamOffset_body frame.2 (payloadBuf.drop frame.2.length)]
  cases downstreamOffset (frame.2 ++ payloadBuf.drop frame.2.length) with
  | none => rfl
  | some offset =>
    by_cases hle : offset ≤ frame.2.length
    · have hpayload : slice (frame.2 ++ payloadBuf.drop frame.2.length) offset (frame.2.length - offset) =
          frame.2.drop offset := by
        rw [slice_body (by omega), slice, List.take_of_length_le (by rw [List.length_drop])]
      have hfilter : (some offset).filter (· ≤ frame.2.length) = some offset := by simp [hle]
      rw [hfilter, Option.bind_some, if_neg (by omega), hpayload, List.take_append_of_le_length hle]
      rfl
    · have hfilter : (some offset).filter (· ≤ frame.2.length) = none := by simpa using hle
      rw [hfilter, Option.bind_some, if_pos (by omega)]
      rfl

end

end RXCore
