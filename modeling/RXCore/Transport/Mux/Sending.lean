import RXCore.Transport.Mux

/-!
# What a mux stream sends

* `framesOf`, `onWire`: the data and close frames of a stream that `write_frame` writes; `carried`: those that are
  written or in the queue of the stream; `wire_decodes`: what the peer's reader makes of the bytes that are written;
* `MuxVirtualStream.expected`: the frames that a stream was told are sent;
* `Sends`, `carried_sends`: a step that appends frames of one stream to its queue;
* `SendingValid`: the tags of the messages, and a stream that is not shut down has just what was accepted on the way;
* `carried_taken`, **`writer_drains`**: the writer, left alone, writes what is in the queues;
* `SendingKept`, **`mux_sending_iff`**, **`long_write_vanishes`**: the runs in which all that was accepted is written.
-/

set_option autoImplicit false

namespace RXCore

open Channel Parties Run Arrivals

/-! ## Frames on the wire -/

/-- A data or close frame that is not skipped for its length. -/
def MuxFrame.onWire (frame : MuxFrame) : Bool := frame.cmd != 1 && decide (frame.payload.length ≤ 65535)

/-- The data and close frames of stream `i` among some messages. -/
def framesOf (i : ℕ) (messages : List (ℕ × MuxFrame)) : List MuxFrame :=
  ((messages.filter fun m => m.1 == i).map (·.2)).filter MuxFrame.onWire

theorem framesOf_append (i : ℕ) (l l' : List (ℕ × MuxFrame)) : framesOf i (l ++ l') = framesOf i l ++ framesOf i l' := by
  simp only [framesOf, List.filter_append, List.map_append]

theorem framesOf_tagged (i : ℕ) (frames : List MuxFrame) :
    framesOf i (frames.map (i, ·)) = frames.filter MuxFrame.onWire := by
  have hfilter : (frames.map (i, ·)).filter (fun m => m.1 == i) = frames.map (i, ·) :=
    List.filter_eq_self.mpr fun m hm => by
      obtain ⟨f, -, rfl⟩ := List.mem_map.mp hm
      exact beq_self_eq_true i
  rw [framesOf, hfilter, List.map_map]
  exact congrArg _ (List.map_id frames)

/-- There are none among the messages of others. -/
theorem framesOf_others {i : ℕ} {messages : List (ℕ × MuxFrame)} (h : ∀ m ∈ messages, m.1 ≠ i) :
    framesOf i messages = [] := by
  have hfilter : messages.filter (fun m => m.1 == i) = [] :=
    List.filter_eq_nil_iff.mpr fun m hm => by simpa using h m hm
  rw [framesOf, hfilter]
  rfl

/-- A frame that is too long is skipped. -/
theorem framesOf_skipped {i : ℕ} {frame : MuxFrame} (h : 65535 < frame.payload.length) :
    framesOf i [(i, frame)] = [] := by
  have hlong : frame.onWire = false := by
    simpa [MuxFrame.onWire] using fun _ => h
  simp [framesOf, hlong]

namespace MuxConnection

/-- The frames of stream `i` that are written, or in the queue of its kind. -/
def carried (s : MuxConnection) (i : ℕ) (isUdp : Bool) : List MuxFrame :=
  framesOf i (s.written ++ (s.tx isUdp).queue)

/-- **What the peer's reader decodes of the bytes that were written**: all frames that are not too long, in order. -/
theorem wire_decodes (s : MuxConnection) (capacity : ℕ → ℕ) :
    (runConnectionReader capacity 0 [] [.data s.wire]).1 =
      ((s.written.map (·.2)).filter fun frame => frame.payload.length ≤ 65535).map MuxFrame.decoded := by
  refine runConnectionReader_of_frames (fun frame hmem => by simpa using (List.mem_filter.mp hmem).2) ?_
  have hskip : ∀ frames : List MuxFrame,
      frames.flatMap writeFrame = (frames.filter fun frame => frame.payload.length ≤ 65535).flatMap writeFrame := by
    intro frames
    induction frames with
    | nil => rfl
    | cons frame frames ih =>
      by_cases hlen : frame.payload.length ≤ 65535
      · rw [List.filter_cons_of_pos (by simpa using hlen), List.flatMap_cons, List.flatMap_cons, ih]
      · rw [List.filter_cons_of_neg (by simpa using hlen), List.flatMap_cons, ih, writeFrame, if_pos (not_le.mp hlen)]
        rfl
  rw [content, content, List.append_nil, List.nil_append, wire, ← hskip, List.flatMap_map]

end MuxConnection

/-- The frames that a stream was told are sent: its accepted buffers, and the close frame when it was shut down. -/
def MuxVirtualStream.expected (st : MuxVirtualStream) : List MuxFrame :=
  st.history.accepted.map st.dataFrame ++ if st.history.shut then [st.closeFrame] else []

/-! ## Sending -/

/-- The step appends some frames of stream `i` to the queue of a kind, and does nothing else to the queues and the
writer. -/
structure Sends (s s' : MuxConnection) (i : ℕ) (isUdp : Bool) (frames : List MuxFrame) : Prop where
  written : s'.written = s.written
  writerEnd : s'.writerEnd = s.writerEnd
  queue : (s'.tx isUdp).queue = (s.tx isUdp).queue ++ frames.map (i, ·)
  other : ∀ b, b ≠ isUdp → (s'.tx b).queue = (s.tx b).queue

section sends

variable {s s' : MuxConnection} {i j : ℕ} {isUdp b : Bool} {frames : List MuxFrame} {st : MuxVirtualStream}

/-- What is carried of the stream that sends. -/
theorem carried_sends (h : Sends s s' i isUdp frames) :
    s'.carried i isUdp = s.carried i isUdp ++ frames.filter MuxFrame.onWire := by
  rw [MuxConnection.carried, h.written, h.queue, ← List.append_assoc, framesOf_append, framesOf_tagged]
  rfl

/-- Nothing changes for the others. -/
theorem carried_sends_other (h : Sends s s' i isUdp frames) (hj : j ≠ i) : s'.carried j b = s.carried j b := by
  rw [MuxConnection.carried, MuxConnection.carried, h.written]
  by_cases hb : b = isUdp
  · subst hb
    have hnone : framesOf j (frames.map (i, ·)) = [] := framesOf_others fun m hm => by
      obtain ⟨f, -, rfl⟩ := List.mem_map.mp hm
      exact Ne.symm hj
    rw [h.queue, ← List.append_assoc, framesOf_append, hnone, List.append_nil]
  · rw [h.other b hb]

theorem sends_setTx {c : Chan ℕ (ℕ × MuxFrame)} (hq : c.queue = (s.tx isUdp).queue ++ frames.map (i, ·)) :
    Sends s (s.setTx isUdp c) i isUdp frames :=
  ⟨MuxConnection.setTx_written, MuxConnection.setTx_writerEnd, by rw [MuxConnection.tx_setTx, hq],
    fun b hb => by rw [MuxConnection.tx_setTx_ne hb]⟩

theorem sends_trySend (i : ℕ) (st : MuxVirtualStream) (frame : MuxFrame) : Sends s (s.trySend i st frame) i st.isUdp
    (if s.writerEnd = none ∧ (s.tx st.isUdp).Room then [frame] else []) := by
  unfold MuxConnection.trySend
  by_cases hw : s.writerEnd.isSome
  · rw [if_pos hw, if_neg (fun h => by rw [h.1] at hw; cases hw)]
    exact ⟨rfl, rfl, (List.append_nil _).symm, fun b _ => rfl⟩
  · rw [if_neg hw]
    refine sends_setTx ?_
    rw [Option.not_isSome_iff_eq_none] at hw
    rw [Chan.trySend_queue]
    by_cases hr : (s.tx st.isUdp).Room <;> simp [hw, hr]

theorem Sends.setStream (h : Sends s s' i isUdp frames) (st' : MuxVirtualStream) :
    Sends s (s'.setStream j st') i isUdp frames :=
  ⟨h.written, h.writerEnd, by rw [MuxConnection.setStream_tx, h.queue],
    fun b hb => by rw [MuxConnection.setStream_tx, h.other b hb]⟩

theorem sends_opened (i : ℕ) (st : MuxVirtualStream) (target : String) : Sends s (s.opened i st target) i st.isUdp
    (if (s.tx st.isUdp).Ready i then [st.openFrame target] else []) := by
  refine Sends.setStream (sends_setTx ?_) _
  rw [Chan.pollSend_queue]
  split_ifs <;> simp

theorem sends_abandon (i : ℕ) (st : MuxVirtualStream) : Sends s (s.abandon i st) i st.isUdp [] :=
  (sends_setTx (by simp)).setStream _

theorem sends_pollWrite (i : ℕ) (st : MuxVirtualStream) (buf : List UInt8) : Sends s (s.pollWrite i st buf).1 i st.isUdp
    (if s.writerEnd = none ∧ (s.tx st.isUdp).Ready i then [st.dataFrame buf] else []) := by
  unfold MuxConnection.pollWrite
  by_cases hw : s.writerEnd.isSome
  · rw [if_pos hw, if_neg (fun h => by rw [h.1] at hw; cases hw)]
    exact ⟨rfl, rfl, (List.append_nil _).symm, fun b _ => rfl⟩
  · rw [if_neg hw]
    rw [Option.not_isSome_iff_eq_none] at hw
    refine Sends.setStream (sends_setTx ?_) _
    rw [Chan.pollSend_queue]
    by_cases hr : (s.tx st.isUdp).Ready i <;> simp [hw, hr]

theorem sends_pollShutdown (i : ℕ) (st : MuxVirtualStream) : Sends s (s.pollShutdown i st) i st.isUdp
    (if s.writerEnd = none ∧ (s.tx st.isUdp).Room then [st.closeFrame] else []) :=
  (sends_trySend i st st.closeFrame).setStream _

theorem sends_dropStream (i : ℕ) (st : MuxVirtualStream) : Sends s (s.dropStream i st) i st.isUdp
    (if s.writerEnd = none ∧ (s.tx st.isUdp).Room then [st.closeFrame] else []) := by
  have hsend := sends_trySend (s := s) i st st.closeFrame
  obtain ⟨hw, he, hq, ho⟩ := hsend
  set u := s.trySend i st st.closeFrame with hu
  have hleave : Sends u (u.setTx st.isUdp ((u.tx st.isUdp).leave i)) i st.isUdp [] := sends_setTx (by simp)
  have htx : ∀ b, (s.dropStream i st).tx b = (u.setTx st.isUdp ((u.tx st.isUdp).leave i)).tx b := by
    intro b
    cases b <;> rfl
  refine ⟨?_, ?_, ?_, fun b hb => ?_⟩
  · exact hleave.written.trans hw
  · exact hleave.writerEnd.trans he
  · rw [htx, hleave.queue, hq, List.map_nil, List.append_nil]
  · rw [htx, hleave.other b hb, ho b hb]

end sends

/-! ## What is carried -/

/-- What a stream was told is sent comes first of what is written or in its queue, unless a write has failed. -/
def MuxConnection.Carried (s : MuxConnection) : Prop :=
  s.writerEnd ≠ some .failed → ∀ (i : ℕ) (st : MuxVirtualStream), s.streams[i]? = some st →
    st.expected <+: s.carried i st.isUdp

def MuxConnection.kinds (s : MuxConnection) : List Bool := s.streams.map (·.isUdp)

/-- Messages are those of streams, in the queues of their kinds; of a stream that is not shut down nothing is carried but
what it was told is sent. -/
structure SendingValid (s : MuxConnection) : Prop where
  written : ∀ m ∈ s.written, m.1 < s.kinds.length
  queued : ∀ b, ∀ m ∈ (s.tx b).queue, s.kinds[m.1]? = some b
  complete : s.writerEnd ≠ some .failed → ∀ (i : ℕ) (st : MuxVirtualStream), s.streams[i]? = some st →
    st.phase ≠ .gone → st.history.shut = false → (s.carried i st.isUdp).length = st.expected.length

section carried

variable {s s' : MuxConnection} {i : ℕ} {frames : List MuxFrame} {st st' : MuxVirtualStream}

theorem kinds_of_stream (h : s.streams[i]? = some st) : s.kinds[i]? = some st.isUdp := by
  rw [MuxConnection.kinds, List.getElem?_map, h]
  rfl

theorem kinds_set (hst : s.streams[i]? = some st) (h : s'.streams = s.streams.set i st') (hudp : st'.isUdp = st.isUdp) :
    s'.kinds = s.kinds := by
  rw [MuxConnection.kinds, h, List.map_set, hudp]
  exact set_of_getElem? (kinds_of_stream hst)

/-- A stream sends, and is set. -/
theorem carried_set (hs : s.Carried) (hst : s.streams[i]? = some st) (h : Sends s s' i st.isUdp frames)
    (hset : s'.streams = s.streams.set i st') (hudp : st'.isUdp = st.isUdp) :
    s'.Carried ↔ (s.writerEnd ≠ some .failed →
      st'.expected <+: s.carried i st.isUdp ++ frames.filter MuxFrame.onWire) := by
  rw [MuxConnection.Carried, h.writerEnd, hset]
  refine forall_congr' fun hup => ⟨fun hall => ?_, fun hone j u hu => ?_⟩
  · rw [← carried_sends h, ← hudp]
    exact hall i st' (getElem?_set_self hst st')
  · rcases getElem?_set_cases hu with ⟨rfl, rfl⟩ | ⟨hji, hu⟩
    · rw [hudp, carried_sends h]
      exact hone
    · rw [carried_sends_other h hji]
      exact hs hup j u hu

theorem valid_set (hv : SendingValid s) (hst : s.streams[i]? = some st) (h : Sends s s' i st.isUdp frames)
    (hset : s'.streams = s.streams.set i st') (hudp : st'.isUdp = st.isUdp)
    (hcomplete : s.writerEnd ≠ some .failed → st'.phase ≠ .gone → st'.history.shut = false → st.phase ≠ .gone ∧
      st.history.shut = false ∧ st'.expected.length = st.expected.length + (frames.filter MuxFrame.onWire).length) :
    SendingValid s' := by
  have hkinds := kinds_set hst hset hudp
  refine ⟨fun m hm => ?_, fun b m hm => ?_, fun hup j u hu hphase hshut => ?_⟩
  · rw [hkinds]
    rw [h.written] at hm
    exact hv.written m hm
  · rw [hkinds]
    by_cases hb : b = st.isUdp
    · subst hb
      rw [h.queue] at hm
      rcases List.mem_append.mp hm with hm | hm
      · exact hv.queued _ m hm
      · obtain ⟨f, -, rfl⟩ := List.mem_map.mp hm
        exact kinds_of_stream hst
    · rw [h.other b hb] at hm
      exact hv.queued b m hm
  · rw [h.writerEnd] at hup
    rw [hset] at hu
    rcases getElem?_set_cases hu with ⟨rfl, rfl⟩ | ⟨hji, hu⟩
    · obtain ⟨hphase', hshut', hlen⟩ := hcomplete hup hphase hshut
      rw [hudp, carried_sends h, List.length_append, hv.complete hup j st hst hphase' hshut', hlen]
    · rw [carried_sends_other h hji]
      exact hv.complete hup j u hu hphase hshut

/-- Of a stream that is not shut down exactly what it was told is sent is carried. -/
theorem carried_eq (hv : SendingValid s) (hs : s.Carried) (hup : s.writerEnd ≠ some .failed)
    (hst : s.streams[i]? = some st) (hphase : st.phase ≠ .gone) (hshut : st.history.shut = false) :
    s.carried i st.isUdp = st.expected :=
  ((hs hup i st hst).eq_of_length (hv.complete hup i st hst hphase hshut).symm).symm

end carried

/-! ## The writer -/

/-- The writer finds a queue that is empty and has no senders left, and does not find a frame before it. -/
def MuxConnection.Stops (s : MuxConnection) : Prop :=
  (s.tx s.first).queue = [] ∧
    (s.closed s.first = true ∨ (s.tx !s.first).queue = [] ∧ s.closed (!s.first) = true)

section writer

variable {s s' : MuxConnection} {isUdp b : Bool} {m : ℕ × MuxFrame} {c : Chan ℕ (ℕ × MuxFrame)} {i : ℕ}

/-- What `rx.recv()` finds. -/
theorem recv_cases (s : MuxConnection) (b : Bool) :
    (∃ m c, (s.tx b).recv = some (m, c) ∧ s.recv b = .ready (some (m, c))) ∨
      (s.tx b).queue = [] ∧ (s.closed b = true ∧ s.recv b = .ready none ∨ s.closed b = false ∧ s.recv b = .pending) := by
  cases hr : (s.tx b).recv with
  | some mc => exact .inl ⟨mc.1, mc.2, rfl, by rw [MuxConnection.recv, hr]⟩
  | none =>
    refine .inr ⟨Chan.recv_eq_none.mp hr, ?_⟩
    cases hc : s.closed b with
    | true => exact .inl ⟨rfl, by rw [MuxConnection.recv, hr, hc]; rfl⟩
    | false => exact .inr ⟨rfl, by rw [MuxConnection.recv, hr, hc]; rfl⟩

/-- **What the writer finds**: a frame, none ever, or nothing yet. -/
theorem select_cases (s : MuxConnection) :
    (∃ isUdp m c, s.select = (isUdp, .ready (some (m, c))) ∧ (s.tx isUdp).recv = some (m, c) ∧ ¬ s.Stops) ∨
      ((∃ isUdp, s.select = (isUdp, .ready none)) ∧ s.Stops) ∨
      ((∃ isUdp, s.select = (isUdp, .pending)) ∧ ∀ b, (s.tx b).queue = [] ∧ s.closed b = false) := by
  obtain ⟨m, c, hm, hr⟩ | ⟨hq, ⟨hc, hr⟩ | ⟨hc, hr⟩⟩ := recv_cases s s.first
  · refine .inl ⟨s.first, m, c, by rw [MuxConnection.select, hr], hm, fun h => ?_⟩
    have hq := h.1
    rw [Chan.recv_queue hm] at hq
    cases hq
  · exact .inr (.inl ⟨⟨s.first, by rw [MuxConnection.select, hr]⟩, hq, .inl hc⟩)
  · have hsel : s.select = (!s.first, s.recv !s.first) := by rw [MuxConnection.select, hr]
    rw [hsel]
    obtain ⟨m, c, hm, hr'⟩ | ⟨hq', ⟨hc', hr'⟩ | ⟨hc', hr'⟩⟩ := recv_cases s !s.first
    · refine .inl ⟨!s.first, m, c, by rw [hr'], hm, fun h => ?_⟩
      rcases h.2 with h | h
      · rw [hc] at h
        cases h
      · rw [Chan.recv_queue hm] at h
        cases h.1
    · exact .inr (.inl ⟨⟨!s.first, by rw [hr']⟩, hq, .inr ⟨hq', hc'⟩⟩)
    · refine .inr (.inr ⟨⟨!s.first, by rw [hr']⟩, fun b => ?_⟩)
      by_cases hb : b = s.first
      · exact hb ▸ ⟨hq, hc⟩
      · obtain rfl := Bool.eq_not.mpr hb
        exact ⟨hq', hc'⟩

theorem taken_kinds : (s.taken isUdp m c).kinds = s.kinds := by
  cases isUdp <;> rfl

/-- **What the writer takes stays carried.** -/
theorem carried_taken (hv : SendingValid s) (hm : (s.tx isUdp).recv = some (m, c)) (hi : s.kinds[i]? = some b) :
    (s.taken isUdp m c).carried i b = s.carried i b := by
  have hq := Chan.recv_queue hm
  have hw : (s.taken isUdp m c).written = s.written ++ [m] := rfl
  rw [MuxConnection.carried, MuxConnection.carried, hw, MuxConnection.taken_tx]
  by_cases hb : b = isUdp
  · subst hb
    rw [MuxConnection.tx_setTx, hq, List.append_assoc]
    rfl
  · -- the frame is of a stream of the other kind
    have hother : framesOf i [m] = [] := framesOf_others fun m' hm' => by
      obtain rfl := List.mem_singleton.mp hm'
      rintro rfl
      have := hv.queued isUdp m' (by rw [hq]; exact List.mem_cons_self)
      exact hb (Option.some.inj (hi.symm.trans this))
    rw [MuxConnection.tx_setTx_ne hb, framesOf_append, framesOf_append, hother, List.append_nil, framesOf_append]

theorem valid_taken (hv : SendingValid s) (hm : (s.tx isUdp).recv = some (m, c)) : SendingValid (s.taken isUdp m c) := by
  have hq := Chan.recv_queue hm
  have hkind : s.kinds[m.1]? = some isUdp := hv.queued isUdp m (by rw [hq]; exact List.mem_cons_self)
  refine ⟨fun m' hm' => ?_, fun b m' hm' => ?_, fun hup i st hst hphase hshut => ?_⟩
  · rw [taken_kinds]
    rcases List.mem_append.mp hm' with hm' | hm'
    · exact hv.written m' hm'
    · rw [List.mem_singleton.mp hm']
      exact lt_of_getElem? hkind
  · rw [taken_kinds]
    rw [MuxConnection.taken_tx] at hm'
    by_cases hb : b = isUdp
    · subst hb
      rw [MuxConnection.tx_setTx] at hm'
      exact hv.queued b m' (by rw [hq]; exact List.mem_cons_of_mem _ hm')
    · rw [MuxConnection.tx_setTx_ne hb] at hm'
      exact hv.queued b m' hm'
  · rw [MuxConnection.taken_streams] at hst
    rw [MuxConnection.taken_writerEnd] at hup
    rw [carried_taken hv hm (kinds_of_stream hst)]
    exact hv.complete hup i st hst hphase hshut

/-- The messages that wait for the writer. -/
def MuxConnection.waiting (s : MuxConnection) : ℕ := s.txHigh.queue.length + s.txLow.queue.length

theorem waiting_taken (hm : (s.tx isUdp).recv = some (m, c)) : (s.taken isUdp m c).waiting + 1 = s.waiting := by
  have hq := Chan.recv_queue hm
  cases isUdp with
  | true =>
    have hq' : s.txHigh.queue = m :: c.queue := hq
    simp only [MuxConnection.waiting, MuxConnection.taken, MuxConnection.setTx, hq', List.length_cons]
    omega
  | false =>
    have hq' : s.txLow.queue = m :: c.queue := hq
    simp only [MuxConnection.waiting, MuxConnection.taken, MuxConnection.setTx, hq', List.length_cons]
    omega

/-- **The writer, left alone, writes all that is carried**, as long as the pool has the connection. -/
theorem writer_drains (hv : SendingValid s) (hw : s.writerEnd = none) (hp : s.pooled = true) :
    ∃ n s', exec MuxConnection.step s (List.replicate n .write) = some s' ∧
      ∀ i b, s.kinds[i]? = some b → framesOf i s'.written = s.carried i b := by
  induction hn : s.waiting generalizing s with
  | zero =>
    refine ⟨0, s, rfl, fun i b _ => ?_⟩
    have hq : (s.tx b).queue = [] := by
      rw [MuxConnection.waiting, Nat.add_eq_zero_iff] at hn
      cases b
      · exact List.eq_nil_of_length_eq_zero hn.2
      · exact List.eq_nil_of_length_eq_zero hn.1
    rw [MuxConnection.carried, hq, List.append_nil]
  | succ n ih =>
    have hopen : ∀ b, s.closed b = false := fun b => by rw [MuxConnection.closed, hp]; rfl
    obtain ⟨isUdp, m, c, hsel, hm, -⟩ | ⟨-, hq, hc⟩ | ⟨-, hempty⟩ := select_cases s
    · have hstep : s.step .write = some (s.taken isUdp m c) := by
        simp only [MuxConnection.step, hw, hsel]
        rfl
      have hwait := waiting_taken hm
      obtain ⟨k, s', hs', hall⟩ := ih (valid_taken hv hm)
        (by rw [← hw]; exact MuxConnection.setTx_writerEnd) (by rw [← hp]; exact MuxConnection.setTx_pooled) (by omega)
      refine ⟨k + 1, s', ?_, fun i b hi => ?_⟩
      · rw [List.replicate_succ, exec_cons_of_step hstep]
        exact hs'
      · rw [hall i b (by rw [taken_kinds]; exact hi), carried_taken hv hm hi]
    · -- no queue of a pooled connection is without senders
      rcases hc with hc | ⟨-, hc⟩ <;> (rw [hopen] at hc; cases hc)
    · have hhigh : s.txHigh.queue = [] := (hempty true).1
      have hlow : s.txLow.queue = [] := (hempty false).1
      rw [MuxConnection.waiting, hhigh, hlow] at hn
      cases hn

end writer

/-! ## Runs -/

/-- **What was accepted is written**: unless a write has failed, the frames that a stream was told are sent come first of
its frames that are written or in its queue, and turns of the writer alone write them while the pool has the connection. -/
def MuxConnection.Sent (s : MuxConnection) : Prop :=
  s.writerEnd ≠ some .failed → ∀ (i : ℕ) (st : MuxVirtualStream), s.streams[i]? = some st →
    st.expected <+: s.carried i st.isUdp ∧
      (s.writerEnd = none → s.pooled = true → ∃ n s', exec MuxConnection.step s (List.replicate n .write) = some s' ∧
        st.expected <+: framesOf i s'.written)

/-- A buffer that is accepted before the shutdown has at most 65,535 bytes. The first shutdown finds the writer running
and a place in the queue. When the writer stops for a queue without senders, what streams were told is sent has left the
queues. -/
def SendingKept (s : MuxConnection) : MuxEvent → Prop
  | .pollWrite i buf => ∀ st, s.streams[i]? = some st → s.writerEnd = none → (s.tx st.isUdp).Ready i →
      st.history.shut = false → buf.length ≤ 65535
  | .pollShutdown i => ∀ st, s.streams[i]? = some st → s.writerEnd ≠ some .failed → st.history.shut = false →
      s.writerEnd = none ∧ (s.tx st.isUdp).Room
  | .write => s.Stops → ∀ (i : ℕ) (st : MuxVirtualStream), s.streams[i]? = some st →
      st.expected.length ≤ (framesOf i s.written).length
  | _ => True

section runs

variable {s s' : MuxConnection} {e : MuxEvent}

theorem sent_iff_carried (hv : SendingValid s) : s.Sent ↔ s.Carried := by
  refine ⟨fun h hup i st hst => (h hup i st hst).1, fun h hup i st hst => ⟨h hup i st hst, fun hw hp => ?_⟩⟩
  obtain ⟨n, s', hs', hall⟩ := writer_drains hv hw hp
  exact ⟨n, s', hs', by rw [hall i _ (kinds_of_stream hst)]; exact h hup i st hst⟩

theorem expected_congr {st st' : MuxVirtualStream} (hid : st'.streamId = st.streamId) (hudp : st'.isUdp = st.isUdp)
    (haccepted : st'.history.accepted = st.history.accepted) (hshut : st'.history.shut = st.history.shut) :
    st'.expected = st.expected := by
  have hdata : st'.dataFrame = st.dataFrame := by
    funext buf
    rw [MuxVirtualStream.dataFrame, MuxVirtualStream.dataFrame, hid, hudp]
  rw [MuxVirtualStream.expected, MuxVirtualStream.expected, haccepted, hshut, hdata, MuxVirtualStream.closeFrame,
    MuxVirtualStream.closeFrame, hid, hudp]

/-- The queues and the writer are as before, and the streams have what they had for sending. -/
theorem sending_of_same (hv : SendingValid s) (hs : s.Carried) (htx : ∀ b, s'.tx b = s.tx b)
    (hw : s'.written = s.written) (he : s'.writerEnd = s.writerEnd)
    (hstreams : ∀ i : ℕ, ∃ g : MuxVirtualStream → MuxVirtualStream, s'.streams[i]? = s.streams[i]?.map g ∧
      ∀ st, (g st).streamId = st.streamId ∧ (g st).isUdp = st.isUdp ∧ (g st).phase = st.phase ∧
        (g st).history.accepted = st.history.accepted ∧ (g st).history.shut = st.history.shut) :
    s'.Carried ∧ SendingValid s' := by
  have hcarried : ∀ i b, s'.carried i b = s.carried i b := fun i b => by
    rw [MuxConnection.carried, MuxConnection.carried, htx, hw]
  have hkinds : s'.kinds = s.kinds := by
    refine List.ext_getElem? fun i => ?_
    obtain ⟨g, hg, hsame⟩ := hstreams i
    rw [MuxConnection.kinds, MuxConnection.kinds, List.getElem?_map, List.getElem?_map, hg, Option.map_map]
    exact congrArg (Option.map · _) (funext fun st => (hsame st).2.1)
  have hold : ∀ (i : ℕ) (st' : MuxVirtualStream), s'.streams[i]? = some st' → ∃ st, s.streams[i]? = some st ∧
      st'.isUdp = st.isUdp ∧ st'.phase = st.phase ∧ st'.history.shut = st.history.shut ∧ st'.expected = st.expected := by
    intro i st' hst'
    obtain ⟨g, hg, hsame⟩ := hstreams i
    rw [hg] at hst'
    obtain ⟨st, hst, rfl⟩ := Option.map_eq_some_iff.mp hst'
    obtain ⟨h1, h2, h3, h4, h5⟩ := hsame st
    exact ⟨st, hst, h2, h3, h5, expected_congr h1 h2 h4 h5⟩
  refine ⟨fun hup i st' hst' => ?_, ⟨fun m hm => ?_, fun b m hm => ?_, fun hup i st' hst' hphase hshut => ?_⟩⟩
  · obtain ⟨st, hst, hudp, -, -, hexp⟩ := hold i st' hst'
    rw [hcarried, hudp, hexp]
    exact hs (by rwa [← he]) i st hst
  · rw [hkinds]
    rw [hw] at hm
    exact hv.written m hm
  · rw [hkinds]
    rw [htx] at hm
    exact hv.queued b m hm
  · obtain ⟨st, hst, hudp, hph, hsh, hexp⟩ := hold i st' hst'
    rw [hcarried, hudp, hexp]
    exact hv.complete (by rwa [← he]) i st hst (by rwa [← hph]) (by rwa [← hsh])

/-- A stream that sends nothing that counts, or is set to one that was told as much. -/
theorem sending_quiet {i : ℕ} {frames : List MuxFrame} {st st' : MuxVirtualStream} (hv : SendingValid s) (hs : s.Carried)
    (hst : s.streams[i]? = some st) (h : Sends s s' i st.isUdp frames) (hset : s'.streams = s.streams.set i st')
    (hudp : st'.isUdp = st.isUdp) (hexp : st'.expected = st.expected)
    (hquiet : st'.phase ≠ .gone → st.phase ≠ .gone ∧ st'.history.shut = st.history.shut ∧
      (st.history.shut = false → frames.filter MuxFrame.onWire = [])) : s'.Carried ∧ SendingValid s' := by
  constructor
  · refine (carried_set hs hst h hset hudp).mpr fun hup => ?_
    rw [hexp]
    exact (hs hup i st hst).trans (List.prefix_append _ _)
  · refine valid_set hv hst h hset hudp fun _ hphase hshut => ?_
    obtain ⟨hphase', hsh, hnil⟩ := hquiet hphase
    rw [hsh] at hshut
    exact ⟨hphase', hshut, by rw [hexp, hnil hshut]; rfl⟩

/-- A stream that is told that one more frame is sent: it is carried exactly if it was put on the way. -/
theorem sending_more {i : ℕ} {frames : List MuxFrame} (frame : MuxFrame) (q : Prop) [Decidable q]
    {st st' : MuxVirtualStream} (hv : SendingValid s) (hs : s.Carried) (hst : s.streams[i]? = some st)
    (h : Sends s s' i st.isUdp frames) (hset : s'.streams = s.streams.set i st') (hudp : st'.isUdp = st.isUdp)
    (hphase : st.phase ≠ .gone) (hshut : st.history.shut = false) (hexp : st'.expected = st.expected ++ [frame])
    (hframes : frames.filter MuxFrame.onWire = if q then [frame] else []) :
    (s'.Carried ↔ (s.writerEnd ≠ some .failed → q)) ∧ ((s.writerEnd ≠ some .failed → q) → SendingValid s') := by
  constructor
  · rw [carried_set hs hst h hset hudp]
    refine forall_congr' fun hup => ?_
    rw [carried_eq hv hs hup hst hphase hshut, hexp, hframes, List.prefix_append_right_inj]
    split_ifs with hq
    · exact iff_of_true (List.prefix_refl _) hq
    · exact iff_of_false (fun hnil => by cases List.prefix_nil.mp hnil) hq
  · intro hq
    refine valid_set hv hst h hset hudp fun hup _ _ => ⟨hphase, hshut, ?_⟩
    rw [hexp, hframes, if_pos (hq hup), List.length_append]

theorem live_ne_gone {st : MuxVirtualStream} (h : st.phase = .live) : st.phase ≠ .gone := by
  rw [h]
  exact MuxPhase.noConfusion

theorem pollRead_same (st : MuxVirtualStream) (alive : Bool) (n : ℕ) :
    (st.pollRead alive n).1.streamId = st.streamId ∧ (st.pollRead alive n).1.isUdp = st.isUdp ∧
      (st.pollRead alive n).1.phase = st.phase := by
  unfold MuxVirtualStream.pollRead
  split
  · exact ⟨rfl, rfl, rfl⟩
  · split
    · split_ifs <;> exact ⟨rfl, rfl, rfl⟩
    · exact ⟨rfl, rfl, rfl⟩

theorem onRead_same (h : History) (n : ℕ) (mayEnd : Bool) (r : Poll (List UInt8)) :
    (h.onRead n mayEnd r).accepted = h.accepted ∧ (h.onRead n mayEnd r).shut = h.shut := by
  cases r <;> exact ⟨rfl, rfl⟩

/-- A write: what is accepted before the shutdown must not be too long. -/
theorem sending_pollWrite {i : ℕ} {st : MuxVirtualStream} (hv : SendingValid s) (hs : s.Carried)
    (hst : s.streams[i]? = some st) (hlive : st.phase = .live) (buf : List UInt8) :
    ((s.pollWrite i st buf).1.Carried ↔ SendingKept s (.pollWrite i buf)) ∧
      (SendingKept s (.pollWrite i buf) → SendingValid (s.pollWrite i st buf).1) := by
  have hsends := sends_pollWrite (s := s) i st buf
  have hset := MuxConnection.pollWrite_streams hst buf
  have hkept : SendingKept s (.pollWrite i buf) ↔ (s.writerEnd = none → (s.tx st.isUdp).Ready i →
      st.history.shut = false → buf.length ≤ 65535) := by
    simp only [SendingKept, hst, Option.some.injEq, forall_eq']
  rw [hkept]
  by_cases hacc : s.writerEnd = none ∧ (s.tx st.isUdp).Ready i ∧ st.history.shut = false
  · obtain ⟨hw, hr, hshut⟩ := hacc
    rw [if_pos ⟨hw, hr⟩] at hsends
    rw [if_pos ⟨hw, hr, hshut⟩] at hset
    have hup : s.writerEnd ≠ some .failed := by rw [hw]; simp
    have hmore := sending_more (st.dataFrame buf) (buf.length ≤ 65535) hv hs hst hsends hset rfl
      (live_ne_gone hlive) hshut (by simp [MuxVirtualStream.expected, hshut, MuxVirtualStream.dataFrame])
      (by by_cases hlen : buf.length ≤ 65535 <;> simp [MuxFrame.onWire, MuxVirtualStream.dataFrame, hlen])
    have hiff : (s.writerEnd ≠ some .failed → buf.length ≤ 65535) ↔ (s.writerEnd = none →
        (s.tx st.isUdp).Ready i → st.history.shut = false → buf.length ≤ 65535) :=
      ⟨fun h _ _ _ => h hup, fun h _ => h hw hr hshut⟩
    rw [← hiff]
    exact hmore
  · rw [if_neg hacc] at hset
    have hquiet := sending_quiet hv hs hst hsends hset rfl rfl fun hphase => ⟨hphase, rfl, fun hshut => by
      rw [if_neg (fun h => hacc ⟨h.1, h.2, hshut⟩)]
      rfl⟩
    exact ⟨iff_of_true hquiet.1 fun hw hr hshut => absurd ⟨hw, hr, hshut⟩ hacc, fun _ => hquiet.2⟩

/-- A shutdown: the first close frame must find a place. -/
theorem sending_pollShutdown {i : ℕ} {st : MuxVirtualStream} (hv : SendingValid s) (hs : s.Carried)
    (hst : s.streams[i]? = some st) (hlive : st.phase = .live) :
    ((s.pollShutdown i st).Carried ↔ SendingKept s (.pollShutdown i)) ∧
      (SendingKept s (.pollShutdown i) → SendingValid (s.pollShutdown i st)) := by
  have hsends := sends_pollShutdown (s := s) i st
  have hset : (s.pollShutdown i st).streams = _ := MuxConnection.pollShutdown_streams
  have hkept : SendingKept s (.pollShutdown i) ↔ (s.writerEnd ≠ some .failed → st.history.shut = false →
      s.writerEnd = none ∧ (s.tx st.isUdp).Room) := by
    simp only [SendingKept, hst, Option.some.injEq, forall_eq']
  rw [hkept]
  by_cases hshut : st.history.shut = false
  · have hmore := sending_more st.closeFrame (s.writerEnd = none ∧ (s.tx st.isUdp).Room) hv hs hst hsends hset
      rfl (live_ne_gone hlive) hshut (by simp [MuxVirtualStream.expected, hshut, MuxVirtualStream.closeFrame,
        MuxVirtualStream.dataFrame])
      (by split_ifs <;> simp [MuxFrame.onWire, MuxVirtualStream.closeFrame])
    simpa only [hshut, forall_const] using hmore
  · rw [Bool.not_eq_false] at hshut
    have hquiet := sending_quiet hv hs hst hsends hset rfl (expected_congr rfl rfl rfl hshut.symm)
      fun hphase => ⟨hphase, hshut.symm, fun hsh => by rw [hshut] at hsh; cases hsh⟩
    exact ⟨iff_of_true hquiet.1 fun _ hsh => (by rw [hshut] at hsh; cases hsh), fun _ => hquiet.2⟩

/-- The writer ends: what streams were told is sent must have been written, unless a write has failed. -/
theorem sending_stop (hv : SendingValid s) (hs : s.Carried) (hup : s.writerEnd ≠ some .failed) :
    ((s.stop .closed).Carried ↔ ∀ (i : ℕ) (st : MuxVirtualStream), s.streams[i]? = some st →
        st.expected.length ≤ (framesOf i s.written).length) ∧
      ((∀ (i : ℕ) (st : MuxVirtualStream), s.streams[i]? = some st →
        st.expected.length ≤ (framesOf i s.written).length) → SendingValid (s.stop .closed)) := by
  have hcarried : ∀ i b, (s.stop .closed).carried i b = framesOf i s.written := by
    intro i b
    cases b <;> exact congrArg (framesOf i) (List.append_nil _)
  have hqueue : ∀ b, ((s.stop .closed).tx b).queue = [] := fun b => by cases b <;> rfl
  have hpre : ∀ i st, s.streams[i]? = some st → framesOf i s.written <+: s.carried i st.isUdp := fun i st _ => by
    rw [MuxConnection.carried, framesOf_append]
    exact List.prefix_append _ _
  constructor
  · constructor
    · intro h i st hst
      have := h (by simp [MuxConnection.stop]) i st hst
      rw [hcarried] at this
      exact this.length_le
    · intro h _ i st hst
      rw [hcarried]
      exact List.prefix_of_prefix_length_le (hs hup i st hst) (hpre i st hst) (h i st hst)
  · intro h
    refine ⟨hv.written, fun b m hm => ?_, fun _ i st hst hphase hshut => ?_⟩
    · rw [hqueue] at hm
      cases hm
    · rw [hcarried]
      refine le_antisymm ?_ (h i st hst)
      rw [← hv.complete hup i st hst hphase hshut]
      exact (hpre i st hst).length_le

/-- A new stream has sent nothing. -/
theorem sending_lease (hv : SendingValid s) (hs : s.Carried) (targetHost : String) (targetPort : UInt16) (isUdp : Bool) :
    (s.lease targetHost targetPort isUdp).Carried ∧ SendingValid (s.lease targetHost targetPort isUdp) := by
  have hkinds : (s.lease targetHost targetPort isUdp).kinds = s.kinds ++ [isUdp] := List.map_append ..
  have hlen : s.kinds.length = s.streams.length := List.length_map ..
  have hcarried : ∀ i b, (s.lease targetHost targetPort isUdp).carried i b = s.carried i b := fun i b => by
    cases b <;> rfl
  have hnew : ∀ b, s.carried s.streams.length b = [] := fun b => framesOf_others fun m hm => by
    rcases List.mem_append.mp hm with hm | hm
    · exact (hlen ▸ hv.written m hm).ne
    · exact (hlen ▸ lt_of_getElem? (hv.queued b m hm)).ne
  refine ⟨fun hup i st hst => ?_, fun m hm => ?_, fun b m hm => ?_, fun hup i st hst hphase hshut => ?_⟩
  · rw [hcarried]
    rcases getElem?_append_cases hst with hst | ⟨-, rfl⟩
    · exact hs hup i st hst
    · exact List.nil_prefix
  · rw [hkinds, List.length_append]
    exact (hv.written m hm).trans_le (Nat.le_add_right _ _)
  · rw [hkinds]
    refine getElem?_append_of_some _ (hv.queued b m ?_)
    cases b <;> exact hm
  · rw [hcarried]
    rcases getElem?_append_cases hst with hst | ⟨rfl, rfl⟩
    · exact hv.complete hup i st hst hphase hshut
    · rw [hnew]
      rfl

theorem select_taken {isUdp : Bool} {m : ℕ × MuxFrame} {c : Chan ℕ (ℕ × MuxFrame)}
    (h : s.select = (isUdp, .ready (some (m, c)))) : (s.tx isUdp).recv = some (m, c) ∧ ¬ s.Stops := by
  obtain ⟨b, m', c', hsel, hm, hstops⟩ | ⟨⟨b, hsel⟩, -⟩ | ⟨⟨b, hsel⟩, -⟩ := select_cases s
  · rw [h] at hsel
    cases hsel
    exact ⟨hm, hstops⟩
  · rw [h] at hsel
    cases hsel
  · rw [h] at hsel
    cases hsel

theorem select_stops {isUdp : Bool} (h : s.select = (isUdp, .ready none)) : s.Stops := by
  obtain ⟨b, m', c', hsel, -, -⟩ | ⟨-, hstops⟩ | ⟨⟨b, hsel⟩, -⟩ := select_cases s
  · rw [h] at hsel
    cases hsel
  · exact hstops
  · rw [h] at hsel
    cases hsel

/-- **The steps that keep what is carried**, and with it that it is just what was accepted. -/
theorem sending_step (hv : SendingValid s) (hs : s.Carried) (h : s.step e = some s') :
    (s'.Carried ↔ SendingKept s e) ∧ (SendingKept s e → SendingValid s') := by
  -- the steps that need no condition
  have hkeeps : s'.Carried ∧ SendingValid s' → SendingKept s e →
      (s'.Carried ↔ SendingKept s e) ∧ (SendingKept s e → SendingValid s') :=
    fun h hk => ⟨iff_of_true h.1 hk, fun _ => h.2⟩
  have hsame : ∀ i : ℕ, ∃ g : MuxVirtualStream → MuxVirtualStream, s.streams[i]? = s.streams[i]?.map g ∧
      ∀ st, (g st).streamId = st.streamId ∧ (g st).isUdp = st.isUdp ∧ (g st).phase = st.phase ∧
        (g st).history.accepted = st.history.accepted ∧ (g st).history.shut = st.history.shut :=
    fun i => ⟨id, Option.map_id_apply.symm, fun st => ⟨rfl, rfl, rfl, rfl, rfl⟩⟩
  cases e with
  | lease targetHost targetPort isUdp =>
    obtain ⟨-, rfl⟩ := lease_some h
    exact hkeeps (sending_lease hv hs targetHost targetPort isUdp) trivial
  | opened i =>
    obtain ⟨-, st, target, hst, hphase, rfl⟩ := opened_some h
    refine hkeeps (sending_quiet hv hs hst (sends_opened i st target) (MuxConnection.opened_streams target) rfl rfl
      fun _ => ⟨by rw [hphase]; exact MuxPhase.noConfusion, rfl, fun _ => ?_⟩) trivial
    -- an open frame does not count
    split_ifs <;> rfl
  | abandon i =>
    obtain ⟨st, target, hst, -, rfl⟩ := MuxConnection.onOpening_some h
    exact hkeeps (sending_quiet hv hs hst (sends_abandon i st) MuxConnection.abandon_streams rfl rfl
      fun hg => absurd rfl hg) trivial
  | pollRead i n =>
    obtain ⟨st, hst, -, rfl⟩ := MuxConnection.onLive_some h
    obtain ⟨h1, h2, h3⟩ := pollRead_same st (s.senderAlive i st) n
    obtain ⟨h4, h5⟩ := onRead_same st.history n (st.history.closed || s.readerEnd.isSome)
      (st.pollRead (s.senderAlive i st) n).2
    have hsends : Sends s (s.pollRead i st n).1 i st.isUdp [] :=
      Sends.setStream ⟨rfl, rfl, (List.append_nil _).symm, fun b _ => rfl⟩ _
    exact hkeeps (sending_quiet hv hs hst hsends (MuxConnection.pollRead_streams n) h2 (expected_congr h1 h2 h4 h5)
      fun hg => ⟨by rw [← h3]; exact hg, h5, fun _ => rfl⟩) trivial
  | pollWrite i buf =>
    obtain ⟨st, hst, hlive, rfl⟩ := MuxConnection.onLive_some h
    exact sending_pollWrite hv hs hst hlive buf
  | pollShutdown i =>
    obtain ⟨st, hst, hlive, rfl⟩ := MuxConnection.onLive_some h
    exact sending_pollShutdown hv hs hst hlive
  | dropStream i =>
    obtain ⟨st, hst, -, rfl⟩ := MuxConnection.onLive_some h
    exact hkeeps (sending_quiet hv hs hst (sends_dropStream i st) MuxConnection.dropStream_streams rfl rfl
      fun hg => absurd rfl hg) trivial
  | read bs =>
    obtain ⟨-, -, rfl⟩ := read_some h
    exact hkeeps (sending_of_same hv hs (fun b => rfl) rfl rfl hsame) trivial
  | dispatch capacity =>
    obtain ⟨-, f, rest, -, rfl⟩ := dispatch_some h
    obtain ⟨streams, hstreams⟩ := dispatch_eq s f
    exact hkeeps (sending_of_same hv hs (fun b => by rw [hstreams]; rfl) (by rw [hstreams]) (by rw [hstreams])
      dispatch_same) trivial
  | readEnd failed =>
    obtain ⟨-, e, rfl⟩ := readEnd_some h
    exact hkeeps (sending_of_same hv hs (fun b => rfl) rfl rfl hsame) trivial
  | write =>
    obtain ⟨hw, ⟨isUdp, m, c, hsel, rfl⟩ | ⟨⟨isUdp, hsel⟩, rfl⟩⟩ := write_some h
    · refine hkeeps ⟨fun hup i st hst => ?_, valid_taken hv (select_taken hsel).1⟩ fun hstops =>
        absurd hstops (select_taken hsel).2
      rw [MuxConnection.taken_streams] at hst
      rw [carried_taken hv (select_taken hsel).1 (kinds_of_stream hst)]
      exact hs (by rw [hw]; simp) i st hst
    · have hkept : SendingKept s .write ↔ _ := forall_prop_of_true (select_stops hsel)
      rw [hkept]
      exact sending_stop hv hs (by rw [hw]; simp)
  | writeFail =>
    obtain ⟨-, rfl⟩ := writeFail_some h
    refine hkeeps ⟨fun hup => absurd rfl hup, hv.written, fun b m hm => ?_, fun hup => absurd rfl hup⟩ trivial
    cases b <;> cases hm
  | release =>
    obtain rfl := release_some h
    exact hkeeps (sending_of_same hv hs (fun b => rfl) rfl rfl hsame) trivial

/-- **Mux sending**: the runs of a connection in which all that streams were told is sent is written, as long as no
write fails, are those that meet `SendingKept`. -/
theorem mux_sending_iff (es : List MuxEvent) :
    Always MuxConnection.step MuxConnection.Sent .start es ↔ Meets MuxConnection.step SendingKept .start es := by
  have hstart : SendingValid .start :=
    ⟨fun m hm => (by cases hm), fun b m hm => (by cases b <;> cases hm), fun _ i st hst => (by cases hst)⟩
  refine always_iff_meets (I := SendingValid) (fun s e s' hv hs hk h => ?_) (fun s e s' hv hs h => ?_) hstart
    (fun _ i st hst => by cases hst) es
  · exact (sending_step hv ((sent_iff_carried hv).mp hs) h).2 hk
  · obtain ⟨hiff, hvalid⟩ := sending_step hv ((sent_iff_carried hv).mp hs) h
    constructor
    · intro hsent
      exact hiff.mp fun hup i st hst => (hsent hup i st hst).1
    · intro hk
      exact (sent_iff_carried (hvalid hk)).mpr (hiff.mpr hk)

/-- A run in which a stream is leased and opened, and a buffer is written: what the stream was told is sent, and what is
on the way. -/
theorem exec_openAndWrite (buf : List UInt8) :
    (exec MuxConnection.step .start [.lease "a" 80 false, .opened 0, .pollWrite 0 buf]).map
      (fun s => (s.writerEnd, s.streams.map fun st => (st.expected, s.carried 0 st.isUdp))) =
        some (none, [([⟨1, 0, buf, false⟩], framesOf 0 [(0, ⟨1, 0, buf, false⟩)])]) :=
  rfl

/-- **A long write vanishes**: a buffer of 65,536 bytes is accepted, and its frame is skipped. -/
theorem long_write_vanishes : ¬ ∀ es : List MuxEvent, Always MuxConnection.step MuxConnection.Sent .start es := by
  intro hall
  obtain ⟨s, hs, hfacts⟩ := Option.map_eq_some_iff.mp (exec_openAndWrite (List.replicate 65536 7))
  obtain ⟨hw, hstreams⟩ := Prod.mk.inj hfacts
  obtain ⟨st, hst, hst'⟩ := List.map_eq_singleton_iff.mp hstreams
  obtain ⟨hexpected, hcarried⟩ := Prod.mk.inj hst'
  have hpre := ((hall _).last hs (by rw [hw]; simp) 0 st (by rw [hst]; rfl)).1
  have hskipped : framesOf 0 [(0, (⟨1, 0, List.replicate 65536 7, false⟩ : MuxFrame))] = [] :=
    framesOf_skipped (by rw [List.length_replicate]; norm_num)
  rw [hexpected, hcarried, hskipped] at hpre
  cases List.prefix_nil.mp hpre

end runs

end RXCore
