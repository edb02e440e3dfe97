import RXCore.Transport.Mux.Registry

/-!
# What a mux stream delivers

* `decoded`, **`reader_decodes`**: the frames that a run dispatches are those that the reader decodes from its reads;
* `MuxVirtualStream.Delivered`: what was read and what waits to be read is the data that arrived, and the end was
  reported after a close only, and for good;
* `pollRead_spec`, `onRead_kept`, **`delivered_pollRead`**: a poll;
* `taking_toRead`, **`delivered_dispatch`**: a frame;
* `StepDelivers`, **`delivered_step`**: the steps that keep the delivery;
* `Registry.Mapped`, `MuxVirtualStream.Marked`: the map leads to all present streams, and an empty chunk stands for a
  close;
* `DeliveryKept`, **`mux_delivery_kept`**, **`slow_reader_loses`**: runs in which all streams deliver.
-/

set_option autoImplicit false

namespace RXCore

open Channel Parties Tables Run Arrivals

/-! ## The reader in a run -/

/-- The pieces that the reads of a run return. -/
def arrivals : List MuxEvent → List (Arrival UInt8)
  | [] => []
  | .read bs :: es => .data bs :: arrivals es
  | _ :: es => arrivals es

/-- The frame that an event dispatches. -/
def MuxConnection.dispatched (s : MuxConnection) : MuxEvent → List InFrame
  | .dispatch _ => ((nextFrame s.mainBuf).map (·.1)).toList
  | _ => []

/-- The frames that a run dispatches. -/
def decoded : MuxConnection → List MuxEvent → List InFrame
  | _, [] => []
  | s, e :: es => match s.step e with
    | none => []
    | some s' => s.dispatched e ++ decoded s' es

section reader

variable {s s' : MuxConnection} {e : MuxEvent}

/-- What a step does to the reader: it decodes on as it would have, from what is left of the stream. -/
theorem reader_step (h : s.step e = some s') (capacity : ℕ → ℕ) (k : ℕ) (es : List MuxEvent) (r : List (Arrival UInt8)) :
    (runConnectionReader capacity k s.mainBuf (arrivals (e :: es) ++ r)).1 =
      s.dispatched e ++
        (runConnectionReader capacity (k + (s.dispatched e).length) s'.mainBuf (arrivals es ++ r)).1 := by
  have hsame : s'.mainBuf = s.mainBuf → arrivals (e :: es) = arrivals es → s.dispatched e = [] →
      (runConnectionReader capacity k s.mainBuf (arrivals (e :: es) ++ r)).1 = s.dispatched e ++
        (runConnectionReader capacity (k + (s.dispatched e).length) s'.mainBuf (arrivals es ++ r)).1 := by
    intro hbuf harr hnil
    rw [hbuf, harr, hnil]
    rfl
  by_cases hstream : e.ofStream
  · have hrest := MuxConnection.rest_of_ofStream h hstream
    simp only [MuxConnection.rest, Prod.mk.injEq] at hrest
    refine hsame hrest.2.2.2.2.1 ?_ ?_
    · cases e <;> first | rfl | cases hstream
    · cases e <;> first | rfl | cases hstream
  · cases e with
    | read bs =>
      obtain ⟨-, hnext, rfl⟩ := read_some h
      exact congrArg Prod.fst (runConnectionReader_read hnext bs)
    | dispatch cap =>
      obtain ⟨-, f, rest, hnext, rfl⟩ := dispatch_some h
      simp only [MuxConnection.dispatched, hnext]
      exact congrArg Prod.fst (runConnectionReader_frame hnext)
    | readEnd failed =>
      obtain ⟨-, e, rfl⟩ := readEnd_some h
      exact hsame rfl rfl rfl
    | write =>
      obtain ⟨-, ⟨isUdp, m, c, -, rfl⟩ | ⟨-, rfl⟩⟩ := write_some h
      · exact hsame MuxConnection.setTx_mainBuf rfl rfl
      · exact hsame rfl rfl rfl
    | writeFail =>
      obtain ⟨-, rfl⟩ := writeFail_some h
      exact hsame rfl rfl rfl
    | release =>
      obtain rfl := release_some h
      exact hsame rfl rfl rfl
    | _ => exact absurd rfl hstream

/-- **A run dispatches what the reader decodes from its reads**, and the reader goes on from its last buffer. -/
theorem reader_decodes {es : List MuxEvent} (h : exec MuxConnection.step s es = some s') (capacity : ℕ → ℕ) (k : ℕ)
    (r : List (Arrival UInt8)) :
    (runConnectionReader capacity k s.mainBuf (arrivals es ++ r)).1 =
      decoded s es ++ (runConnectionReader capacity (k + (decoded s es).length) s'.mainBuf r).1 := by
  induction es generalizing s k with
  | nil =>
    obtain rfl := Option.some.inj h
    rfl
  | cons e es ih =>
    obtain ⟨t, ht, h⟩ := exec_cons_some h
    rw [reader_step ht, ih h, decoded, ht, List.length_append, ← add_assoc, List.append_assoc]

end reader

/-! ## Delivery -/

/-- What waits to be read. -/
def MuxVirtualStream.toRead (st : MuxVirtualStream) : List UInt8 :=
  st.currentReadChunk.getD [] ++ st.rxData.queue.flatten

/-- The payloads of the data frames that arrived. -/
def History.dataArrived (h : History) : List UInt8 := (h.arrived.filter fun a => a.1 == 0).flatMap (·.2)

/-- Nothing is missing between what was read and what waits to be read, and no end was reported too early or taken
back. -/
structure MuxVirtualStream.Delivered (st : MuxVirtualStream) : Prop where
  bytes : st.history.bytesRead ++ st.toRead = st.history.dataArrived
  early : st.history.early = false
  resumed : st.history.resumed = false

/-- The next poll reports the end: of an empty chunk, or since no sender is left. -/
def MuxVirtualStream.AtEnd (st : MuxVirtualStream) (senderAlive : Bool) : Prop :=
  st.currentReadChunk = none ∧ (st.rxData.queue.head? = some [] ∨ st.rxData.queue = [] ∧ senderAlive = false)

section poll

variable {st : MuxVirtualStream}

theorem takeChunk_spec (st : MuxVirtualStream) {chunk : List UInt8} (hne : chunk ≠ []) (n : ℕ) :
    ∃ bs, (st.takeChunk chunk n).2 = .ready bs ∧
      chunk ++ st.rxData.queue.flatten = bs ++ (st.takeChunk chunk n).1.toRead ∧ (0 < n → bs ≠ []) := by
  refine ⟨chunk.take (min chunk.length n), rfl, ?_, fun hn => ?_⟩
  · have hleft : (st.takeChunk chunk n).1.currentReadChunk.getD [] = chunk.drop (min chunk.length n) := by
      simp only [MuxVirtualStream.takeChunk]
      split_ifs with h
      · exact (List.isEmpty_iff.mp h).symm
      · rfl
    rw [MuxVirtualStream.toRead, hleft, ← List.append_assoc, List.take_append_drop]
    rfl
  · intro hnil
    have hlen := congrArg List.length hnil
    have := List.length_pos_of_ne_nil hne
    rw [List.length_take, List.length_nil] at hlen
    omega

theorem pollRead_of_chunk {chunk : List UInt8} (h : st.currentReadChunk = some chunk) (senderAlive : Bool) (n : ℕ) :
    st.pollRead senderAlive n = st.takeChunk chunk n := by
  unfold MuxVirtualStream.pollRead
  split
  · next c hc =>
    obtain rfl := Option.some.inj (h.symm.trans hc)
    rfl
  · next hc =>
    rw [h] at hc
    cases hc

theorem pollRead_of_recv (h : st.currentReadChunk = none) {chunk : List UInt8} {rxData : Chan Empty (List UInt8)}
    (hrecv : st.rxData.recv = some (chunk, rxData)) (senderAlive : Bool) (n : ℕ) :
    st.pollRead senderAlive n = if chunk.isEmpty then ({ st with rxData := rxData }, .ready [])
      else ({ st with rxData := rxData } : MuxVirtualStream).takeChunk chunk n := by
  unfold MuxVirtualStream.pollRead
  split
  · next c hc =>
    rw [h] at hc
    cases hc
  · simp only [hrecv]

theorem pollRead_of_empty (h : st.currentReadChunk = none) (hq : st.rxData.queue = []) (senderAlive : Bool) (n : ℕ) :
    st.pollRead senderAlive n = (st, if senderAlive then .pending else .ready []) := by
  unfold MuxVirtualStream.pollRead
  split
  · next c hc =>
    rw [h] at hc
    cases hc
  · rw [Chan.recv_eq_none.mpr hq]

theorem toRead_of_none (h : st.currentReadChunk = none) : st.toRead = st.rxData.queue.flatten := by
  rw [MuxVirtualStream.toRead, h]
  rfl

/-- **What a poll does**: it waits, or it returns the next of what waits to be read; with room in the buffer it returns
nothing exactly at the end. -/
theorem pollRead_spec (st : MuxVirtualStream) (senderAlive : Bool) (n : ℕ) :
    ((st.pollRead senderAlive n).2 = .pending ∧ (st.pollRead senderAlive n).1.toRead = st.toRead ∧
        ¬ st.AtEnd senderAlive) ∨
      ∃ bs, (st.pollRead senderAlive n).2 = .ready bs ∧ st.toRead = bs ++ (st.pollRead senderAlive n).1.toRead ∧
        (0 < n → (bs = [] ↔ st.AtEnd senderAlive)) := by
  cases hcur : st.currentReadChunk with
  | some chunk =>
    have hne : chunk ≠ [] := fun h => st.chunk_ne_nil (by rw [hcur, h])
    obtain ⟨bs, hbs, hbytes, hpos⟩ := takeChunk_spec st hne n
    rw [pollRead_of_chunk hcur]
    refine .inr ⟨bs, hbs, ?_, fun hn => ⟨fun h => absurd h (hpos hn), fun h => ?_⟩⟩
    · rw [← hbytes, MuxVirtualStream.toRead, hcur]
      rfl
    · rw [MuxVirtualStream.AtEnd, hcur] at h
      cases h.1
  | none =>
    cases hq : st.rxData.queue with
    | nil =>
      rw [pollRead_of_empty hcur hq]
      cases senderAlive with
      | true =>
        refine .inl ⟨rfl, rfl, fun h => ?_⟩
        rcases h.2 with h | h
        · rw [hq] at h
          cases h
        · cases h.2
      | false => exact .inr ⟨[], rfl, rfl, fun _ => iff_of_true rfl ⟨hcur, .inr ⟨hq, rfl⟩⟩⟩
    | cons chunk queue =>
      obtain ⟨rxData, hrecv, rfl⟩ := Chan.recv_of_queue hq
      rw [pollRead_of_recv hcur hrecv]
      split_ifs with hempty
      · obtain rfl := List.isEmpty_iff.mp hempty
        refine .inr ⟨[], rfl, ?_, fun _ => iff_of_true rfl ⟨hcur, .inl (by rw [hq]; rfl)⟩⟩
        have hleft : MuxVirtualStream.toRead { st with rxData := rxData } = rxData.queue.flatten := toRead_of_none hcur
        rw [toRead_of_none hcur, hq]
        exact hleft.symm
      · have hne : chunk ≠ [] := fun h => hempty (List.isEmpty_iff.mpr h)
        obtain ⟨bs, hbs, hbytes, hpos⟩ := takeChunk_spec { st with rxData := rxData } hne n
        refine .inr ⟨bs, hbs, ?_, fun hn => ⟨fun h => absurd h (hpos hn), fun h => ?_⟩⟩
        · rw [← hbytes, toRead_of_none hcur, hq, List.flatten_cons]
        · rcases h.2 with h | h
          · rw [hq, List.head?_cons] at h
            exact absurd (Option.some.inj h) hne
          · rw [hq] at h
            cases h.1

/-- The history stays clean if a poll with room reports the end only when it may, and always after it did. -/
theorem onRead_kept {h : History} (he : h.early = false) (hr : h.resumed = false) (n : ℕ) (mayEnd : Bool)
    (r : Poll (List UInt8)) :
    ((h.onRead n mayEnd r).early = false ∧ (h.onRead n mayEnd r).resumed = false) ↔
      (0 < n → (r = .ready [] → h.ended = true ∨ mayEnd = true) ∧ (h.ended = true → r = .ready [])) := by
  cases r with
  | pending => cases hd : h.ended <;> simp [History.onRead, he, hr, hd]
  | ready bs => cases bs <;> cases hd : h.ended <;> cases mayEnd <;> simp [History.onRead, he, hr, hd]

theorem onRead_bytes (h : History) (n : ℕ) (mayEnd : Bool) (r : Poll (List UInt8)) :
    (h.onRead n mayEnd r).dataArrived = h.dataArrived ∧
      (h.onRead n mayEnd r).bytesRead = h.bytesRead ++ match r with | .ready bs => bs | .pending => [] := by
  cases r with
  | pending => exact ⟨rfl, (List.append_nil _).symm⟩
  | ready bs => exact ⟨rfl, rfl⟩

/-- **A poll keeps the delivery** exactly if, with room in the buffer, the stream is at its end only when the end was
reported already or may be, and always when it was reported. -/
theorem delivered_pollRead (hst : st.Delivered) (senderAlive : Bool) (n : ℕ) (mayEnd : Bool) :
    ({ (st.pollRead senderAlive n).1 with
        history := st.history.onRead n mayEnd (st.pollRead senderAlive n).2 } : MuxVirtualStream).Delivered ↔
      (0 < n → (st.AtEnd senderAlive → st.history.ended = true ∨ mayEnd = true) ∧
        (st.history.ended = true → st.AtEnd senderAlive)) := by
  obtain ⟨hdata, hread⟩ := onRead_bytes st.history n mayEnd (st.pollRead senderAlive n).2
  have hkept := onRead_kept hst.early hst.resumed n mayEnd (st.pollRead senderAlive n).2
  have hbytes : (st.history.onRead n mayEnd (st.pollRead senderAlive n).2).bytesRead ++
      (st.pollRead senderAlive n).1.toRead = st.history.dataArrived := by
    rw [hread, ← hst.bytes]
    obtain ⟨hr, hto, -⟩ | ⟨bs, hr, hto, -⟩ := pollRead_spec st senderAlive n
    · rw [hr, hto, List.append_nil]
    · rw [hr, hto, List.append_assoc]
  have hend : 0 < n → ((st.pollRead senderAlive n).2 = .ready [] ↔ st.AtEnd senderAlive) := by
    intro hn
    obtain ⟨hr, -, hnot⟩ | ⟨bs, hr, -, hiff⟩ := pollRead_spec st senderAlive n
    · rw [hr]
      exact iff_of_false (fun h => by cases h) hnot
    · rw [hr, ← hiff hn, Poll.ready.injEq]
  constructor
  · intro h hn
    rw [← hend hn]
    exact hkept.mp ⟨h.early, h.resumed⟩ hn
  · intro h
    obtain ⟨hearly, hresumed⟩ := hkept.mpr fun hn => by rw [hend hn]; exact h hn
    exact ⟨hbytes.trans hdata.symm, hearly, hresumed⟩

end poll

/-! ## Frames -/

section frame

variable {s : MuxConnection} {st : MuxVirtualStream} {f : InFrame} {j : ℕ}

/-- A decoded identifier has 30 bits. -/
theorem cut_of_nextFrame {mainBuf rest : List UInt8} (h : nextFrame mainBuf = some (f, rest)) :
    f.streamId &&& (0x3FFFFFFF : UInt32) = f.streamId := by
  obtain ⟨-, rfl, -⟩ := nextFrame_some h
  simp only [frameAt]
  rw [UInt32.and_assoc]
  rfl

theorem toRead_push (chunk : List UInt8) : ({ st with rxData := st.rxData.trySend chunk } : MuxVirtualStream).toRead =
    st.toRead ++ if st.rxData.Room then chunk else [] := by
  simp only [MuxVirtualStream.toRead, Chan.trySend_queue]
  split_ifs <;> simp

/-- A stream to which `x` has been added, when `y` has arrived. -/
theorem delivered_append {st' : MuxVirtualStream} {x y : List UInt8} (hst : st.Delivered)
    (hread : st'.toRead = st.toRead ++ x) (hdata : st'.history.dataArrived = st.history.dataArrived ++ y)
    (hbytes : st'.history.bytesRead = st.history.bytesRead) (hearly : st'.history.early = st.history.early)
    (hresumed : st'.history.resumed = st.history.resumed) : st'.Delivered ↔ x = y := by
  have hiff : st'.history.bytesRead ++ st'.toRead = st'.history.dataArrived ↔ x = y := by
    rw [hread, hdata, hbytes, ← List.append_assoc, hst.bytes]
    exact List.append_right_inj _
  exact ⟨fun h => hiff.mp h.bytes, fun h => ⟨hiff.mpr h, hearly.trans hst.early, hresumed.trans hst.resumed⟩⟩

/-- The history that a frame makes, if it is for the stream. -/
theorem note_history (st : MuxVirtualStream) (f : InFrame) :
    (st.note f).rxData = st.rxData ∧ (st.note f).present = st.present ∧ (st.note f).toRead = st.toRead ∧
      (st.note f).history.bytesRead = st.history.bytesRead ∧ (st.note f).history.early = st.history.early ∧
      (st.note f).history.resumed = st.history.resumed := by
  unfold MuxVirtualStream.note
  split_ifs <;> exact ⟨rfl, rfl, rfl, rfl, rfl, rfl⟩

theorem note_dataArrived (hp : st.present = true) (hw : st.wireId = f.streamId) :
    (st.note f).history.dataArrived = st.history.dataArrived ++ if f.cmd = 0 then f.payload else [] := by
  rw [MuxVirtualStream.note, hp, hw, if_pos (by simp)]
  simp only [History.dataArrived, List.filter_append, List.flatMap_append]
  split_ifs with hc <;> simp [hc]

theorem taking_toRead (hp : st.present = true) :
    (st.taking f).toRead = st.toRead ++ if f.cmd = 0 ∧ st.rxData.Room then f.payload else [] := by
  simp only [MuxVirtualStream.taking, hp, if_true]
  by_cases h0 : f.cmd = 0
  · simp only [h0, if_true, true_and, toRead_push]
  · by_cases h2 : f.cmd = 2
    · simp only [h2, if_true]
      rw [if_neg (by decide), toRead_push, ite_self]
      exact congrArg _ (if_neg fun h => absurd h.1 (by decide)).symm
    · rw [if_neg h0, if_neg h2, if_neg (fun h => h0 h.1), List.append_nil]

/-- **A frame keeps the delivery of a stream** exactly if it is not a data frame of the stream with a payload, or the
map leads to the stream and its queue has a place. -/
theorem delivered_dispatch (hst : st.Delivered) (hcut : f.streamId &&& (0x3FFFFFFF : UInt32) = f.streamId)
    (hkey : s.activeStreams.lookup f.streamId = some j → st.streamId = f.streamId) :
    (if s.activeStreams.lookup f.streamId = some j then (st.note f).taking f else st.note f).Delivered ↔
      (f.cmd = 0 → f.payload ≠ [] → st.present → st.wireId = f.streamId →
        s.activeStreams.lookup f.streamId = some j ∧ st.rxData.Room) := by
  obtain ⟨hrx, hpres, hto, hbytes, hearly, hresumed⟩ := note_history st f
  by_cases hmine : st.present = true ∧ st.wireId = f.streamId
  · obtain ⟨hp, hw⟩ := hmine
    have hdata := note_dataArrived hp hw
    by_cases hl : s.activeStreams.lookup f.streamId = some j
    · have htaking := taking_toRead (f := f) (hpres.trans hp)
      rw [hto, hrx] at htaking
      have hhist := (taking_same f (st.note f)).2.2.2
      rw [if_pos hl, delivered_append hst htaking (by rw [hhist, hdata]) (by rw [hhist, hbytes])
        (by rw [hhist, hearly]) (by rw [hhist, hresumed])]
      -- what is pushed is what arrived, unless a payload finds no place
      by_cases h0 : f.cmd = 0
      · by_cases hroom : st.rxData.Room
        · simp [h0, hroom, hl]
        · simp [h0, hroom, hp, hw, eq_comm]
      · simp [h0]
    · rw [if_neg hl, delivered_append hst (hto.trans (List.append_nil _).symm) hdata hbytes hearly hresumed]
      by_cases h0 : f.cmd = 0
      · simp [h0, hp, hw, hl, eq_comm]
      · simp [h0]
  · -- the frame is not for this stream, and the map does not lead to it
    have hnote : st.note f = st := by
      rw [MuxVirtualStream.note, if_neg]
      simpa using hmine
    have hsame : (if s.activeStreams.lookup f.streamId = some j then (st.note f).taking f else st.note f) = st := by
      rw [hnote]
      split_ifs with hl
      · have hgone : st.present = false := by
          by_contra hp
          refine hmine ⟨by simpa using hp, ?_⟩
          rw [MuxVirtualStream.wireId, hkey hl, hcut]
        simp [MuxVirtualStream.taking, hgone]
      · rfl
    rw [hsame]
    exact iff_of_true hst fun _ _ hp hw => absurd ⟨hp, hw⟩ hmine

end frame

/-! ## Runs -/

/-- Every stream of the connection has delivered what arrived for it. -/
def MuxConnection.Delivered (s : MuxConnection) : Prop :=
  ∀ (i : ℕ) (st : MuxVirtualStream), s.streams[i]? = some st → st.Delivered

/-- A data frame with a payload finds its stream in the map, with a place in the stream's queue. A poll with room in the
buffer is at the end of the stream only if the end was reported before, the peer has closed the stream or the reader has
ended, and always if it was reported before. -/
def StepDelivers (s : MuxConnection) : MuxEvent → Prop
  | .dispatch _ => ∀ f rest, nextFrame s.mainBuf = some (f, rest) → f.cmd = 0 → f.payload ≠ [] →
      ∀ (i : ℕ) (st : MuxVirtualStream), s.streams[i]? = some st → st.present → st.wireId = f.streamId →
        s.activeStreams.lookup f.streamId = some i ∧ st.rxData.Room
  | .pollRead i n => ∀ st, s.streams[i]? = some st → 0 < n →
      (st.AtEnd (s.senderAlive i st) →
        st.history.ended = true ∨ st.history.closed = true ∨ s.readerEnd.isSome = true) ∧
      (st.history.ended = true → st.AtEnd (s.senderAlive i st))
  | _ => True

section runs

variable {s s' : MuxConnection} {i : ℕ} {st st' : MuxVirtualStream} {e : MuxEvent}

/-- One stream is set. -/
theorem delivered_set (hs : s.Delivered) (hst : s.streams[i]? = some st) (h : s'.streams = s.streams.set i st') :
    s'.Delivered ↔ st'.Delivered := by
  rw [MuxConnection.Delivered, h]
  constructor
  · exact fun h => h i st' (getElem?_set_self hst st')
  · intro h j u hu
    rcases getElem?_set_cases hu with ⟨-, rfl⟩ | ⟨-, hu⟩
    · exact h
    · exact hs j u hu

/-- A stream is set to one that has delivered as much. -/
theorem delivered_set_same (hs : s.Delivered) (hst : s.streams[i]? = some st) (h : s'.streams = s.streams.set i st')
    (hread : st'.toRead = st.toRead) (hbytes : st'.history.bytesRead = st.history.bytesRead)
    (harrived : st'.history.arrived = st.history.arrived) (hearly : st'.history.early = st.history.early)
    (hresumed : st'.history.resumed = st.history.resumed) : s'.Delivered := by
  have hdel := hs i st hst
  refine (delivered_set hs hst h).mpr ⟨?_, hearly.trans hdel.early, hresumed.trans hdel.resumed⟩
  rw [hbytes, hread, hdel.bytes, History.dataArrived, History.dataArrived, harrived]

/-- **The steps that keep the delivery.** -/
theorem delivered_step (hv : s.registry.Valid) (hs : s.Delivered) (h : s.step e = some s') :
    s'.Delivered ↔ StepDelivers s e := by
  cases e with
  | lease targetHost targetPort isUdp =>
    obtain ⟨-, rfl⟩ := lease_some h
    refine iff_of_true (fun j u hu => ?_) trivial
    rcases getElem?_append_cases hu with hu | ⟨-, rfl⟩
    · exact hs j u hu
    · exact ⟨rfl, rfl, rfl⟩
  | opened i =>
    obtain ⟨-, st, target, hst, -, rfl⟩ := opened_some h
    exact iff_of_true (delivered_set_same hs hst (MuxConnection.opened_streams target) rfl rfl rfl rfl rfl) trivial
  | abandon i =>
    obtain ⟨st, target, hst, -, rfl⟩ := MuxConnection.onOpening_some h
    exact iff_of_true (delivered_set_same hs hst MuxConnection.abandon_streams rfl rfl rfl rfl rfl) trivial
  | pollRead i n =>
    obtain ⟨st, hst, -, rfl⟩ := MuxConnection.onLive_some h
    rw [delivered_set hs hst (MuxConnection.pollRead_streams n), delivered_pollRead (hs i st hst)]
    simp only [StepDelivers, hst, Option.some.injEq, forall_eq', Bool.or_eq_true]
  | pollWrite i buf =>
    obtain ⟨st, hst, -, rfl⟩ := MuxConnection.onLive_some h
    refine iff_of_true (delivered_set_same hs hst (MuxConnection.pollWrite_streams hst buf) rfl ?_ ?_ ?_ ?_) trivial
    all_goals
      simp only
      split_ifs <;> rfl
  | pollShutdown i =>
    obtain ⟨st, hst, -, rfl⟩ := MuxConnection.onLive_some h
    exact iff_of_true (delivered_set_same hs hst MuxConnection.pollShutdown_streams rfl rfl rfl rfl rfl) trivial
  | dropStream i =>
    obtain ⟨st, hst, -, rfl⟩ := MuxConnection.onLive_some h
    exact iff_of_true (delivered_set_same hs hst MuxConnection.dropStream_streams rfl rfl rfl rfl rfl) trivial
  | read bs =>
    obtain ⟨-, -, rfl⟩ := read_some h
    exact iff_of_true hs trivial
  | dispatch capacity =>
    obtain ⟨-, f, rest, hnext, rfl⟩ := dispatch_some h
    have hkey : ∀ i st, s.streams[i]? = some st → s.activeStreams.lookup f.streamId = some i →
        st.streamId = f.streamId := by
      intro i st hst hl
      obtain ⟨b, hb⟩ := hv _ _ hl
      rw [entries_of_stream hst] at hb
      exact (Prod.mk.inj (Option.some.inj hb)).1
    have hone : ∀ i st, s.streams[i]? = some st → _ := fun i st hst =>
      delivered_dispatch (hs i st hst) (cut_of_nextFrame hnext) (hkey i st hst)
    constructor
    · rintro hall g rest' hg h0 hpay i st hst
      obtain ⟨rfl, -⟩ := Prod.mk.inj (Option.some.inj (hnext.symm.trans hg))
      refine (hone i st hst).mp (hall i _ ?_) h0 hpay
      exact dispatch_getElem?.trans (by rw [hst]; rfl)
    · intro hkept i st' hst'
      have hmap := dispatch_getElem?.symm.trans hst'
      obtain ⟨st, hst, rfl⟩ := Option.map_eq_some_iff.mp hmap
      exact (hone i st hst).mpr fun h0 hpay => hkept f rest hnext h0 hpay i st hst
  | readEnd failed =>
    obtain ⟨-, e, rfl⟩ := readEnd_some h
    exact iff_of_true hs trivial
  | write =>
    obtain ⟨-, ⟨isUdp, m, c, -, rfl⟩ | ⟨-, rfl⟩⟩ := write_some h
    · refine iff_of_true (fun i st hst => ?_) trivial
      rw [MuxConnection.taken_streams] at hst
      exact hs i st hst
    · exact iff_of_true hs trivial
  | writeFail =>
    obtain ⟨-, rfl⟩ := writeFail_some h
    exact iff_of_true hs trivial
  | release =>
    obtain rfl := release_some h
    exact iff_of_true hs trivial

end runs

/-! ## The map and the marks -/

/-- The map leads to every present stream by its identifier. -/
def Registry.Mapped (r : Registry) : Prop :=
  ∀ (i : ℕ) (a : UInt32), r.entries[i]? = some (a, true) → r.activeStreams.lookup a = some i

/-- Only the lease of an identifier that is in use takes a stream out of the map. -/
theorem mapped_step {r r' : Registry} {e : RegistryEvent} (hm : r.Mapped)
    (hfresh : e = .lease → ∀ (j : ℕ) (a : UInt32), r.entries[j]? = some (a, true) → a ≠ r.nextStreamId)
    (h : r.step e = some r') : r'.Mapped := by
  cases e with
  | lease =>
    obtain rfl := Option.some.inj h
    intro i a hi
    rcases getElem?_append_cases hi with hi | ⟨rfl, ha⟩
    · exact (AList.lookup_insert_ne (hfresh rfl i a hi)).trans (hm i a hi)
    · obtain ⟨rfl, -⟩ := Prod.mk.inj ha
      exact AList.lookup_insert _
  | abandon j =>
    obtain ⟨id, hid, rfl⟩ := abandon_some h
    exact fun i a hi => hm i a (entries_set_gone.mp hi).2
  | drop j =>
    obtain ⟨id, hid, rfl⟩ := drop_some h
    intro i a hset
    obtain ⟨hne, hi⟩ := entries_set_gone.mp hset
    -- another present stream has another identifier
    have hkey : a ≠ id := by
      rintro rfl
      exact hne (Option.some.inj ((hm i a hi).symm.trans (hm j a hid)))
    exact (AList.lookup_erase_ne hkey).trans (hm i a hi)
  | other =>
    obtain rfl := Option.some.inj h
    exact hm

/-- An empty chunk that waits stands for a close. -/
def MuxVirtualStream.Marked (st : MuxVirtualStream) : Prop := [] ∈ st.rxData.queue → st.history.closed = true

def MuxConnection.Marked (s : MuxConnection) : Prop :=
  ∀ (i : ℕ) (st : MuxVirtualStream), s.streams[i]? = some st → st.Marked

/-- What a step has to meet: a lease does not take the identifier of a present stream; a data frame for a present stream
has a payload, the map leads to the stream, and a place is free in the stream's queue; a stream whose end was reported is
polled again only when its sender has left the map. -/
def DeliveryKept (s : MuxConnection) : MuxEvent → Prop
  | .lease .. => ∀ (i : ℕ) (st : MuxVirtualStream), s.streams[i]? = some st → st.present → st.streamId ≠ s.nextStreamId
  | .dispatch _ => ∀ f rest, nextFrame s.mainBuf = some (f, rest) → f.cmd = 0 →
      ∀ (i : ℕ) (st : MuxVirtualStream), s.streams[i]? = some st → st.present → st.wireId = f.streamId →
        f.payload ≠ [] ∧ s.activeStreams.lookup f.streamId = some i ∧ st.rxData.Room
  | .pollRead i n => ∀ st, s.streams[i]? = some st → 0 < n → st.history.ended = true → s.senderAlive i st = false
  | _ => True

section kept

variable {s s' : MuxConnection} {i : ℕ} {st st' : MuxVirtualStream} {e : MuxEvent}

/-- A poll takes chunks off the queue. -/
theorem pollRead_queue (st : MuxVirtualStream) (senderAlive : Bool) (n : ℕ) :
    (st.pollRead senderAlive n).1.rxData.queue ⊆ st.rxData.queue := by
  unfold MuxVirtualStream.pollRead
  split
  · exact fun _ h => h
  · split
    · next chunk rxData hrecv =>
      have hqueue := Chan.recv_queue hrecv
      have hsub : rxData.queue ⊆ st.rxData.queue := by
        rw [hqueue]
        exact List.subset_cons_self ..
      split_ifs
      · exact hsub
      · exact hsub
    · exact fun _ h => h

theorem onRead_arrived (h : History) (n : ℕ) (mayEnd : Bool) (r : Poll (List UInt8)) :
    (h.onRead n mayEnd r).arrived = h.arrived := by
  cases r <;> rfl

/-- A stream is set to one with fewer chunks. -/
theorem marked_set (hs : s.Marked) (hst : s.streams[i]? = some st) (h : s'.streams = s.streams.set i st')
    (hqueue : st'.rxData.queue ⊆ st.rxData.queue) (harrived : st'.history.arrived = st.history.arrived) : s'.Marked := by
  intro j u hu
  rw [h] at hu
  rcases getElem?_set_cases hu with ⟨-, rfl⟩ | ⟨-, hu⟩
  · intro hmem
    rw [History.closed, harrived]
    exact hs i st hst (hqueue hmem)
  · exact hs j u hu

/-- A frame marks a stream if it is a close. -/
theorem marked_dispatch {f : InFrame} {j : ℕ} (hst : st.Marked)
    (hcut : f.streamId &&& (0x3FFFFFFF : UInt32) = f.streamId)
    (hkey : s.activeStreams.lookup f.streamId = some j → st.streamId = f.streamId)
    (hpayload : f.cmd = 0 → st.present → st.wireId = f.streamId → f.payload ≠ []) :
    (if s.activeStreams.lookup f.streamId = some j then (st.note f).taking f else st.note f).Marked := by
  obtain ⟨hrx, hpres, -⟩ := note_history st f
  have hnote : (st.note f).Marked := by
    intro hmem
    rw [hrx] at hmem
    have hclosed := hst hmem
    unfold MuxVirtualStream.note
    split_ifs
    · simp only [History.closed, List.any_append, Bool.or_eq_true]
      exact .inl hclosed
    · exact hclosed
  split_ifs with hl
  · by_cases hp : st.present = true
    · have hw : st.wireId = f.streamId := by rw [MuxVirtualStream.wireId, hkey hl, hcut]
      intro hmem
      have hhist := (taking_same f (st.note f)).2.2.2
      rw [hhist]
      simp only [MuxVirtualStream.taking, hpres, hp, if_true] at hmem
      split_ifs at hmem with h0 h2
      · -- a payload is no mark
        rw [Chan.trySend_queue] at hmem
        split_ifs at hmem
        · rcases List.mem_append.mp hmem with hmem | hmem
          · exact hnote hmem
          · exact absurd (List.mem_singleton.mp hmem).symm (hpayload h0 hp hw)
        · exact hnote hmem
      · rw [MuxVirtualStream.note, hp, hw, if_pos (by simp)]
        simp [History.closed, h2]
      · exact hnote hmem
    · have hgone : (st.note f).present = false := by
        rw [hpres]
        simpa using hp
      have hsame : (st.note f).taking f = st.note f := by simp [MuxVirtualStream.taking, hgone]
      rw [hsame]
      exact hnote
  · exact hnote

/-- **An empty chunk stands for a close** as long as no data frame is empty. -/
theorem marked_step (hv : s.registry.Valid) (hs : s.Marked) (hkept : DeliveryKept s e) (h : s.step e = some s') :
    s'.Marked := by
  cases e with
  | lease targetHost targetPort isUdp =>
    obtain ⟨-, rfl⟩ := lease_some h
    intro j u hu
    rcases getElem?_append_cases hu with hu | ⟨-, rfl⟩
    · exact hs j u hu
    · exact fun hmem => absurd hmem List.not_mem_nil
  | opened i =>
    obtain ⟨-, st, target, hst, -, rfl⟩ := opened_some h
    exact marked_set hs hst (MuxConnection.opened_streams target) (fun _ h => h) rfl
  | abandon i =>
    obtain ⟨st, target, hst, -, rfl⟩ := MuxConnection.onOpening_some h
    exact marked_set hs hst MuxConnection.abandon_streams (fun _ h => h) rfl
  | pollRead i n =>
    obtain ⟨st, hst, -, rfl⟩ := MuxConnection.onLive_some h
    exact marked_set hs hst (MuxConnection.pollRead_streams n) (pollRead_queue ..) (onRead_arrived ..)
  | pollWrite i buf =>
    obtain ⟨st, hst, -, rfl⟩ := MuxConnection.onLive_some h
    refine marked_set hs hst (MuxConnection.pollWrite_streams hst buf) (fun _ h => h) ?_
    simp only
    split_ifs <;> rfl
  | pollShutdown i =>
    obtain ⟨st, hst, -, rfl⟩ := MuxConnection.onLive_some h
    exact marked_set hs hst MuxConnection.pollShutdown_streams (fun _ h => h) rfl
  | dropStream i =>
    obtain ⟨st, hst, -, rfl⟩ := MuxConnection.onLive_some h
    exact marked_set hs hst MuxConnection.dropStream_streams (fun _ h => h) rfl
  | dispatch capacity =>
    obtain ⟨-, f, rest, hnext, rfl⟩ := dispatch_some h
    intro j u hu
    have hmap := dispatch_getElem?.symm.trans hu
    obtain ⟨st, hst, rfl⟩ := Option.map_eq_some_iff.mp hmap
    refine marked_dispatch (hs j st hst) (cut_of_nextFrame hnext) (fun hl => ?_) fun h0 hp hw =>
      (hkept f rest hnext h0 j st hst hp hw).1
    obtain ⟨b, hb⟩ := hv _ _ hl
    rw [entries_of_stream hst] at hb
    exact (Prod.mk.inj (Option.some.inj hb)).1
  | read bs =>
    obtain ⟨-, -, rfl⟩ := read_some h
    exact hs
  | readEnd failed =>
    obtain ⟨-, e, rfl⟩ := readEnd_some h
    exact hs
  | write =>
    obtain ⟨-, ⟨isUdp, m, c, -, rfl⟩ | ⟨-, rfl⟩⟩ := write_some h
    · intro j u hu
      rw [MuxConnection.taken_streams] at hu
      exact hs j u hu
    · exact hs
  | writeFail =>
    obtain ⟨-, rfl⟩ := writeFail_some h
    exact hs
  | release =>
    obtain rfl := release_some h
    exact hs

/-! ## Runs -/

/-- The invariant of these runs. -/
structure MuxConnection.Delivering (s : MuxConnection) : Prop where
  valid : s.registry.Valid
  mapped : s.registry.Mapped
  marked : s.Marked
  delivered : s.Delivered

theorem delivering_start : MuxConnection.start.Delivering :=
  ⟨valid_start, fun i a h => (by cases h), fun j u h => (by cases h), fun i st h => (by cases h)⟩

/-- A stream in use has its sender in the map. -/
theorem senderAlive_of_mapped (hm : s.registry.Mapped) (hst : s.streams[i]? = some st) (hlive : st.phase = .live) :
    s.senderAlive i st = true := by
  have hpresent : st.present = true := by simp [MuxVirtualStream.present, hlive]
  have hentry : s.registry.entries[i]? = some (st.streamId, true) := by
    rw [entries_of_stream hst, MuxVirtualStream.entry, hpresent]
  have hmapped : s.activeStreams.lookup st.streamId = some i := hm i st.streamId hentry
  rw [MuxConnection.senderAlive, hmapped]
  simp

/-- A step that meets the conditions keeps the delivery. -/
theorem stepDelivers_of_kept (hs : s.Delivering) (hkept : DeliveryKept s e) (h : s.step e = some s') :
    StepDelivers s e := by
  cases e with
  | dispatch capacity => exact fun f rest hnext h0 _ j st hst hp hw => (hkept f rest hnext h0 j st hst hp hw).2
  | pollRead i n =>
    intro st hst hn
    obtain ⟨st', hst', hlive, -⟩ := MuxConnection.onLive_some h
    obtain rfl := Option.some.inj (hst'.symm.trans hst)
    have halive := senderAlive_of_mapped hs.mapped hst hlive
    refine ⟨fun hend => ?_, fun hended => ?_⟩
    · rcases hend.2 with hchunk | ⟨-, hgone⟩
      · exact .inr (.inl (hs.marked i st' hst (List.mem_of_head? hchunk)))
      · exact absurd (halive.symm.trans hgone) (by simp)
    · exact absurd (halive.symm.trans (hkept st' hst hn hended)) (by simp)
  | _ => trivial

theorem delivering_step (hs : s.Delivering) (hkept : DeliveryKept s e) (h : s.step e = some s') : s'.Delivering := by
  refine ⟨valid_step hs.valid (registry_step h), mapped_step hs.mapped ?_ (registry_step h),
    marked_step hs.valid hs.marked hkept h,
    (delivered_step hs.valid hs.delivered h).mpr (stepDelivers_of_kept hs hkept h)⟩
  intro he j a hj
  cases e with
  | lease targetHost targetPort isUdp =>
    rw [entries_getElem?, Option.map_eq_some_iff] at hj
    obtain ⟨st, hst, hentry⟩ := hj
    obtain ⟨rfl, hp⟩ := Prod.mk.inj hentry
    exact hkept j st hst hp
  | _ => cases he

/-- **Mux delivery**: a run all of whose steps meet the conditions delivers, on every stream, what arrives for it, and
reports the end after a close only and for good. -/
theorem mux_delivery_kept (es : List MuxEvent) (h : Meets MuxConnection.step DeliveryKept .start es) :
    Always MuxConnection.step MuxConnection.Delivered .start es :=
  always_of_meets (fun _ _ _ hs hkept hstep => delivering_step hs hkept hstep) (fun _ hs => hs.delivered)
    delivering_start h

/-- A stream that gets a byte and is closed, polled twice. -/
theorem mux_delivery_kept_close : Always MuxConnection.step MuxConnection.Delivered .start
    [.lease "a" 80 false, .opened 0, .read [0, 0, 0, 1, 0, 1, 7], .dispatch 0, .pollRead 0 9,
      .read [128, 0, 0, 1, 0, 0], .dispatch 0, .pollRead 0 9] := by
  refine mux_delivery_kept _ ⟨fun i st h => (by cases h), trivial, trivial, ?_, ?_, trivial, ?_, ?_, trivial⟩
  · intro f rest hnext _ i st hst _ _
    obtain ⟨rfl, -⟩ := Prod.mk.inj (Option.some.inj hnext)
    cases i with
    | zero =>
      obtain rfl := Option.some.inj hst
      exact ⟨by decide, by decide, by decide⟩
    | succ i => cases hst
  · intro st hst _ hended
    obtain rfl := Option.some.inj hst
    cases hended
  · intro f rest hnext h0
    obtain ⟨rfl, -⟩ := Prod.mk.inj (Option.some.inj hnext)
    exact absurd h0 (by decide)
  · intro st hst _ hended
    obtain rfl := Option.some.inj hst
    cases hended

/-- **A slow consumer loses data**: of 129 frames that arrive before it reads, the last is dropped. -/
theorem slow_reader_loses : ¬ ∀ es : List MuxEvent, Always MuxConnection.step MuxConnection.Delivered .start es := by
  intro hall
  have hrun : (exec MuxConnection.step .start (.lease "a" 80 false :: .opened 0 ::
      (List.replicate 129 [.read [0, 0, 0, 1, 0, 1, 7], .dispatch 0]).flatten)).map (fun s => s.streams.map fun st =>
        (st.history.bytesRead.length + st.toRead.length, st.history.dataArrived.length)) = some [(128, 129)] := by
    decide +kernel
  obtain ⟨s, hs, hlengths⟩ := Option.map_eq_some_iff.mp hrun
  obtain ⟨st, hst, hlength⟩ := List.map_eq_singleton_iff.mp hlengths
  have hbytes := ((hall _).last hs 0 st (by rw [hst]; rfl)).bytes
  obtain ⟨h1, h2⟩ := Prod.mk.inj hlength
  have := congrArg List.length hbytes
  rw [List.length_append] at this
  omega

end kept

end RXCore
