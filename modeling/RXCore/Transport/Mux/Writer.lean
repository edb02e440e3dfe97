import RXCore.Transport.Mux.Sending

/-!
# The writer of a mux connection

`run_connection_writer` on its own: a queue for each kind of frames, in which anything is enqueued at any time until
all its senders are dropped, and the loop that takes frames from both by turns. In a place for either queue `true` is
the high one.

* `MuxWriter`, `MuxWriter.select`: the queues and the counter, and what the biased `select!` receives;
* `WriterRun`, `WriterRun.step`: a writer with what was enqueued and what was written;
* **`write_toWriter`**: the writer of a connection is this one;
* `WriterRun.Sound`: nothing is lost or out of order, and the low queue does not wait for more than 32 frames;
* **`mux_writer_iff`**: the runs in which this holds, and that the writer ends once both queues are closed;
* **`low_frame_discarded`**: a frame that waits when the high queue is closed.
-/

set_option autoImplicit false

namespace RXCore

/-! ## The loop -/

/-- The queues of the writer, whether they have senders, and `consecutive_high`. -/
structure MuxWriter where
  rx : Bool → List MuxFrame
  senders : Bool → Bool
  consecutiveHigh : UInt32
  ended : Bool

namespace MuxWriter

/-- `rx.recv()`: a frame, or none if there will not be any. -/
def recv (s : MuxWriter) (high : Bool) : Poll (Option MuxFrame) :=
  match s.rx high with
  | frame :: _ => .ready (some frame)
  | [] => if s.senders high then .pending else .ready none

/-- The queue that is tried first. -/
def first (s : MuxWriter) : Bool := decide (s.consecutiveHigh < 32)

/-- `tokio::select!`, biased: what is received, and from which queue. -/
def select (s : MuxWriter) : Bool × Poll (Option MuxFrame) :=
  match s.recv s.first with
  | .ready frame => (s.first, .ready frame)
  | .pending => (!s.first, s.recv !s.first)

/-- A frame is taken. -/
def taken (s : MuxWriter) (high : Bool) : MuxWriter :=
  { s with
    rx := Function.update s.rx high (s.rx high).tail
    consecutiveHigh := if high then s.consecutiveHigh + 1 else 0 }

/-- The writer returns, and drops the queues with what is in them. -/
def stop (s : MuxWriter) : MuxWriter := { s with rx := fun _ => [], ended := true }

end MuxWriter

/-- A frame that was written, with its queue, and whether the low queue had frames when it was taken. -/
structure WrittenFrame where
  high : Bool
  frame : MuxFrame
  lowWaits : Bool

/-- A writer, the frames that were enqueued and those that were written. -/
structure WriterRun where
  writer : MuxWriter
  enqueued : Bool → List MuxFrame
  written : List WrittenFrame

/-- A frame is enqueued, all senders of a queue are dropped, the loop makes a turn, or the write in it fails. -/
inductive WriterEvent where
  | enqueue (high : Bool) (frame : MuxFrame)
  | close (high : Bool)
  | turn
  | writeFail

namespace WriterRun

def start : WriterRun := ⟨⟨fun _ => [], fun _ => true, 0, false⟩, fun _ => [], []⟩

/-- `write_frame`, which skips a frame whose payload is too long. -/
def wrote (s : WriterRun) (high : Bool) (frame : MuxFrame) : WriterRun :=
  { s with
    writer := s.writer.taken high
    written := s.written ++
      if 65535 < frame.payload.length then [] else [⟨high, frame, !(s.writer.rx false).isEmpty⟩] }

def step (s : WriterRun) : WriterEvent → Option WriterRun
  | .enqueue high frame =>
    if s.writer.senders high ∧ s.writer.ended = false then some { s with
      writer := { s.writer with rx := Function.update s.writer.rx high (s.writer.rx high ++ [frame]) }
      enqueued := Function.update s.enqueued high (s.enqueued high ++ [frame]) }
    else none
  | .close high => some { s with
      writer := { s.writer with senders := Function.update s.writer.senders high false } }
  | .turn => if s.writer.ended then none else match s.writer.select with
    | (high, .ready (some frame)) => some (s.wrote high frame)
    | (_, .ready none) => some { s with writer := s.writer.stop }
    | (_, .pending) => none
  | .writeFail => if s.writer.ended then none else match s.writer.select with
    | (_, .ready (some _)) => some { s with writer := s.writer.stop }
    | _ => none

/-- The frames of a queue that were written. -/
def writtenOf (s : WriterRun) (high : Bool) : List MuxFrame :=
  (s.written.filter fun w => w.high == high).map (·.frame)

end WriterRun

/-! ## What is to hold -/

/-- A frame of the high queue that was taken while the low one had frames. -/
def WrittenFrame.overtakes (w : WrittenFrame) : Bool := w.high && w.lowWaits

/-- What was written from a queue and what is in it are what was enqueued, in this order, and no more than 32 frames
in a row are taken from the high queue while the low one has frames. -/
structure WriterRun.Sound (s : WriterRun) : Prop where
  conserved : ∀ high, s.writtenOf high ++ s.writer.rx high = s.enqueued high
  paced : ∀ block, block <:+: s.written → (∀ w ∈ block, w.overtakes = true) → block.length ≤ 32

/-- The step loses nothing: a frame that is taken is not too long, the loop does not find a queue closed while the
other one has frames, and no write fails. -/
def WriterRun.Admits (s : WriterRun) : WriterEvent → Prop
  | .turn => match s.writer.select with
    | (_, .ready (some frame)) => frame.payload.length ≤ 65535
    | (high, .ready none) => s.writer.rx (!high) = []
    | (_, .pending) => True
  | .writeFail => False
  | _ => True

/-! ## The select -/

section

variable {s : MuxWriter} {high : Bool} {frame : MuxFrame}

theorem recv_some (h : s.recv high = .ready (some frame)) : s.rx high = frame :: (s.rx high).tail := by
  unfold MuxWriter.recv at h
  split at h
  · next f fs hrx =>
    obtain rfl := Option.some.inj (Poll.ready.inj h)
    rw [hrx]
    rfl
  · split_ifs at h
    cases Poll.ready.inj h

theorem recv_none (h : s.recv high = .ready none) : s.rx high = [] ∧ s.senders high = false := by
  unfold MuxWriter.recv at h
  split at h
  · cases Poll.ready.inj h
  · next hrx =>
    split_ifs at h with hopen
    exact ⟨hrx, Bool.not_eq_true _ ▸ hopen⟩

theorem recv_pending (h : s.recv high = .pending) : s.rx high = [] ∧ s.senders high = true := by
  unfold MuxWriter.recv at h
  split at h
  · cases h
  · next hrx =>
    split_ifs at h with hopen
    exact ⟨hrx, hopen⟩

/-- What is selected is received from the queue. -/
theorem recv_of_select {p : Poll (Option MuxFrame)} (h : s.select = (high, p)) : s.recv high = p := by
  unfold MuxWriter.select at h
  split at h
  · next f hf =>
    obtain ⟨rfl, rfl⟩ := Prod.mk.inj h
    exact hf
  · obtain ⟨rfl, rfl⟩ := Prod.mk.inj h
    rfl

/-- **Who overtakes**: a frame is taken from the high queue while the low one has frames only if fewer than 32 were
taken since the last one from the low queue. -/
theorem lt_of_overtakes (h : s.select = (true, .ready (some frame))) (hlow : s.rx false ≠ []) :
    s.consecutiveHigh < 32 := by
  by_contra hge
  have hfirst : s.first = false := decide_eq_false hge
  rw [MuxWriter.select, hfirst] at h
  cases hrecv : s.recv false with
  | ready f =>
    rw [hrecv] at h
    cases (Prod.mk.inj h).1
  | pending => exact hlow (recv_pending hrecv).1

end

/-! ## The writer of a connection -/

/-- The queues and the counter of a connection. -/
def MuxConnection.toWriter (s : MuxConnection) : MuxWriter where
  rx high := (s.tx high).queue.map Prod.snd
  senders high := !s.closed high
  consecutiveHigh := s.consecutiveHigh
  ended := s.writerEnd.isSome

/-- What a writer receives of what a connection does. -/
def receivedFrame : Poll (Option ((ℕ × MuxFrame) × Channel.Chan ℕ (ℕ × MuxFrame))) → Poll (Option MuxFrame)
  | .ready (some (m, _)) => .ready (some m.2)
  | .ready none => .ready none
  | .pending => .pending

section

variable {s s' : MuxConnection}

theorem recv_toWriter (s : MuxConnection) (high : Bool) : s.toWriter.recv high = receivedFrame (s.recv high) := by
  unfold MuxWriter.recv MuxConnection.recv
  cases hrecv : (s.tx high).recv with
  | none =>
    have hqueue : (s.tx high).queue = [] := Channel.Chan.recv_eq_none.mp hrecv
    have hrx : s.toWriter.rx high = [] := congrArg (List.map Prod.snd) hqueue
    rw [hrx]
    cases hclosed : s.closed high <;> simp [MuxConnection.toWriter, hclosed, receivedFrame]
  | some r =>
    obtain ⟨m, c⟩ := r
    have hrx : s.toWriter.rx high = m.2 :: c.queue.map Prod.snd :=
      congrArg (List.map Prod.snd) (Channel.Chan.recv_queue hrecv)
    rw [hrx]
    rfl

theorem select_toWriter (s : MuxConnection) : s.toWriter.select = (s.select.1, receivedFrame s.select.2) := by
  have hfirst : s.toWriter.first = s.first := rfl
  unfold MuxWriter.select MuxConnection.select
  rw [hfirst, recv_toWriter]
  cases hrecv : s.recv s.first with
  | pending => exact congrArg _ (recv_toWriter s _)
  | ready r => cases r with
    | none => rfl
    | some r => rfl

/-- **The writer of a connection makes the turns of this writer.** -/
theorem write_toWriter (h : s.step .write = some s') (r : WriterRun) (hr : r.writer = s.toWriter) :
    ∃ r', r.step .turn = some r' ∧ r'.writer = s'.toWriter := by
  simp only [MuxConnection.step] at h
  split_ifs at h with hend
  have hended : r.writer.ended = false := by
    rw [hr]
    simpa [MuxConnection.toWriter] using hend
  have hselect := hr ▸ select_toWriter s
  simp only [WriterRun.step, hended, Bool.false_eq_true, if_false]
  split at h
  · next high m c hs =>
    obtain rfl := Option.some.inj h
    rw [hs] at hselect
    simp only [hselect, receivedFrame]
    refine ⟨_, rfl, ?_⟩
    have hqueue : (s.tx high).queue = m :: c.queue := Channel.Chan.recv_queue (select_taken hs).1
    rw [WriterRun.wrote, hr, MuxWriter.taken, MuxConnection.toWriter, MuxConnection.toWriter, MuxWriter.mk.injEq]
    refine ⟨funext fun q => ?_, funext fun q => ?_, rfl, ?_⟩
    · rw [MuxConnection.taken_tx]
      by_cases hq : q = high
      · subst hq
        rw [Function.update_self, MuxConnection.tx_setTx]
        exact congrArg (fun ms => (ms.map Prod.snd).tail) hqueue
      · rw [Function.update_of_ne hq, MuxConnection.tx_setTx_ne hq]
    · cases high <;> rfl
    · cases high <;> rfl
  · next high hs =>
    obtain rfl := Option.some.inj h
    rw [hs] at hselect
    simp only [hselect, receivedFrame]
    refine ⟨_, rfl, ?_⟩
    rw [hr, MuxWriter.stop, MuxConnection.toWriter, MuxConnection.toWriter, MuxWriter.mk.injEq]
    refine ⟨funext fun q => ?_, rfl, rfl, rfl⟩
    cases q <;> rfl
  · cases h

end

/-! ## The runs that lose nothing -/

/-- The frames at the end of a list that overtake. -/
def overtaking (ws : List WrittenFrame) : ℕ := (ws.reverse.takeWhile WrittenFrame.overtakes).length

@[simp] theorem overtaking_concat (ws : List WrittenFrame) (w : WrittenFrame) :
    overtaking (ws ++ [w]) = if w.overtakes then overtaking ws + 1 else 0 := by
  rw [overtaking, List.reverse_append, List.reverse_singleton, List.singleton_append, List.takeWhile_cons]
  split_ifs <;> rfl

/-- A block at the end whose frames all overtake is no longer than that. -/
theorem length_le_overtaking {ws block : List WrittenFrame} (h : block <:+ ws)
    (hall : ∀ w ∈ block, w.overtakes = true) : block.length ≤ overtaking ws := by
  obtain ⟨rest, rfl⟩ := h
  have hself : block.reverse.takeWhile WrittenFrame.overtakes = block.reverse :=
    List.takeWhile_eq_self_iff.mpr fun w hw => hall w (List.mem_reverse.mp hw)
  rw [overtaking, List.reverse_append, List.takeWhile_append_of_pos fun w hw => hall w (List.mem_reverse.mp hw)]
  simp

/-- The frames at the end that overtake were counted, and are no more than 32. -/
structure WriterRun.Counted (s : WriterRun) : Prop where
  counted : s.writer.consecutiveHigh < 32 → overtaking s.written ≤ s.writer.consecutiveHigh.toNat
  bounded : overtaking s.written ≤ 32

section

variable {s s' : WriterRun} {high : Bool} {frame : MuxFrame} {e : WriterEvent}

/-- What a step does. -/
theorem WriterRun.step_cases (hs : s.step e = some s') :
    (∃ high frame, e = .enqueue high frame ∧ s' = { s with
      writer := { s.writer with rx := Function.update s.writer.rx high (s.writer.rx high ++ [frame]) }
      enqueued := Function.update s.enqueued high (s.enqueued high ++ [frame]) }) ∨
    (∃ high, e = .close high ∧ s' = { s with
      writer := { s.writer with senders := Function.update s.writer.senders high false } }) ∨
    (∃ high frame, e = .turn ∧ s.writer.select = (high, .ready (some frame)) ∧ s' = s.wrote high frame) ∨
    (∃ high, e = .turn ∧ s.writer.select = (high, .ready none) ∧ s' = { s with writer := s.writer.stop }) ∨
    ∃ high frame, e = .writeFail ∧ s.writer.select = (high, .ready (some frame)) ∧
      s' = { s with writer := s.writer.stop } := by
  cases e with
  | enqueue high frame =>
    simp only [WriterRun.step] at hs
    split_ifs at hs
    exact .inl ⟨high, frame, rfl, (Option.some.inj hs).symm⟩
  | close high => exact .inr (.inl ⟨high, rfl, (Option.some.inj hs).symm⟩)
  | turn =>
    simp only [WriterRun.step] at hs
    split_ifs at hs
    split at hs
    · next high frame hselect => exact .inr (.inr (.inl ⟨high, frame, rfl, hselect, (Option.some.inj hs).symm⟩))
    · next high hselect => exact .inr (.inr (.inr (.inl ⟨high, rfl, hselect, (Option.some.inj hs).symm⟩)))
    · cases hs
  | writeFail =>
    simp only [WriterRun.step] at hs
    split_ifs at hs
    split at hs
    · next high frame hselect =>
      exact .inr (.inr (.inr (.inr ⟨high, frame, rfl, hselect, (Option.some.inj hs).symm⟩)))
    · cases hs

theorem writer_start_sound : WriterRun.start.Sound where
  conserved _ := rfl
  paced block h _ := by
    rw [List.infix_nil.mp h]
    exact Nat.zero_le _

theorem start_counted : WriterRun.start.Counted := ⟨fun _ => Nat.zero_le _, Nat.zero_le _⟩

/-- What a frame that is short enough adds to what was written. -/
theorem wrote_written (hfits : frame.payload.length ≤ 65535) (s : WriterRun) (high : Bool) :
    (s.wrote high frame).written = s.written ++ [⟨high, frame, !(s.writer.rx false).isEmpty⟩] := by
  rw [WriterRun.wrote, if_neg (by omega)]

theorem wrote_writtenOf (s : WriterRun) (high q : Bool) (frame : MuxFrame) :
    (s.wrote high frame).writtenOf q =
      s.writtenOf q ++ if q = high ∧ frame.payload.length ≤ 65535 then [frame] else [] := by
  rw [WriterRun.writtenOf, WriterRun.wrote]
  by_cases hfits : frame.payload.length ≤ 65535
  · rw [if_neg (by omega : ¬ 65535 < frame.payload.length), List.filter_append, List.map_append]
    by_cases hq : q = high
    · subst hq
      simp [WriterRun.writtenOf, hfits]
    · have hne : (high == q) = false := beq_eq_false_iff_ne.mpr (Ne.symm hq)
      simp [WriterRun.writtenOf, hq, hne]
  · rw [if_pos (by omega : 65535 < frame.payload.length), List.append_nil, if_neg fun h => hfits h.2, List.append_nil]
    rfl

/-- **A frame that is taken**: it is counted if it overtakes. -/
theorem WriterRun.Counted.wrote (h : s.Counted) (hselect : s.writer.select = (high, .ready (some frame)))
    (hfits : frame.payload.length ≤ 65535) : (s.wrote high frame).Counted := by
  have hwritten := wrote_written hfits s high
  have hcount : (s.wrote high frame).writer.consecutiveHigh =
      if high then s.writer.consecutiveHigh + 1 else 0 := rfl
  have hover := overtaking_concat s.written ⟨high, frame, !(s.writer.rx false).isEmpty⟩
  rw [← hwritten] at hover
  split_ifs at hover with hovertakes
  · -- the low queue has frames, so the counter is below 32 and goes up by one
    simp only [WrittenFrame.overtakes, Bool.and_eq_true] at hovertakes
    obtain ⟨rfl, hlow⟩ := hovertakes
    have hlt := lt_of_overtakes hselect (by simpa using hlow)
    have hle := h.counted hlt
    have hlt' : s.writer.consecutiveHigh.toNat < 32 := UInt32.lt_iff_toNat_lt.mp hlt
    have hnat : (s.writer.consecutiveHigh + 1).toNat = s.writer.consecutiveHigh.toNat + 1 := by
      rw [UInt32.toNat_add]
      exact Nat.mod_eq_of_lt (by simp; omega)
    refine ⟨fun _ => ?_, by omega⟩
    rw [hover, hcount, if_pos rfl, hnat]
    omega
  · exact ⟨fun _ => hover ▸ Nat.zero_le _, hover ▸ Nat.zero_le _⟩

/-- **Whether a frame that is taken is kept**: exactly if it is not too long. -/
theorem wrote_sound_iff (h : s.Sound) (hc : s.Counted) (hselect : s.writer.select = (high, .ready (some frame))) :
    (s.wrote high frame).Sound ↔ frame.payload.length ≤ 65535 := by
  have hrx := recv_some (recv_of_select hselect)
  constructor
  · intro h'
    by_contra hlong
    have hconserved := h'.conserved high
    have hqueue : (s.wrote high frame).writer.rx high = (s.writer.rx high).tail := Function.update_self ..
    rw [wrote_writtenOf, if_neg fun h => hlong h.2, List.append_nil, hqueue] at hconserved
    have hbefore := (h.conserved high).symm
    rw [show s.enqueued high = (s.wrote high frame).enqueued high from rfl, ← hconserved, hrx] at hbefore
    simpa using congrArg List.length hbefore
  · intro hfits
    refine ⟨fun q => ?_, fun block hblock hall => ?_⟩
    · rw [wrote_writtenOf, show (s.wrote high frame).enqueued q = s.enqueued q from rfl, ← h.conserved q]
      by_cases hq : q = high
      · subst hq
        have hqueue : (s.wrote q frame).writer.rx q = (s.writer.rx q).tail := Function.update_self ..
        rw [if_pos ⟨rfl, hfits⟩, hqueue, List.append_assoc, List.singleton_append, ← hrx]
      · have hqueue : (s.wrote high frame).writer.rx q = s.writer.rx q := Function.update_of_ne hq ..
        rw [if_neg fun h => hq h.1, List.append_nil, hqueue]
    · -- the new block is an old one, or is at the end
      rw [wrote_written hfits] at hblock
      rcases List.infix_concat_iff.mp hblock with hblock | hblock
      · rw [← wrote_written hfits] at hblock
        exact (length_le_overtaking hblock hall).trans (hc.wrote hselect hfits).bounded
      · exact h.paced block hblock hall

/-- When the writer stops, what is in the queues is lost. -/
theorem stop_sound_iff (h : s.Sound) :
    ({ s with writer := s.writer.stop } : WriterRun).Sound ↔ ∀ q, s.writer.rx q = [] := by
  constructor
  · intro h' q
    have hconserved : s.writtenOf q ++ [] = s.enqueued q := h'.conserved q
    rw [← h.conserved q] at hconserved
    exact (List.append_cancel_left hconserved).symm
  · intro hempty
    refine ⟨fun q => ?_, h.paced⟩
    have hconserved := h.conserved q
    rw [hempty q] at hconserved
    exact hconserved

/-- **Exactly the admissible steps** lose nothing. -/
theorem writer_sound_step_iff (h : s.Sound) (hc : s.Counted) (hs : s.step e = some s') : s'.Sound ↔ s.Admits e := by
  rcases WriterRun.step_cases hs with ⟨high, frame, rfl, rfl⟩ | ⟨high, rfl, rfl⟩ | ⟨high, frame, rfl, hselect, rfl⟩ |
    ⟨high, rfl, hselect, rfl⟩ | ⟨high, frame, rfl, hselect, rfl⟩
  · refine iff_of_true ⟨fun q => ?_, h.paced⟩ trivial
    change s.writtenOf q ++ Function.update s.writer.rx high _ q = Function.update s.enqueued high _ q
    by_cases hq : q = high
    · subst hq
      rw [Function.update_self, Function.update_self, ← h.conserved q, List.append_assoc]
    · rw [Function.update_of_ne hq, Function.update_of_ne hq]
      exact h.conserved q
  · exact iff_of_true ⟨h.conserved, h.paced⟩ trivial
  · have hadmits : s.Admits .turn ↔ frame.payload.length ≤ 65535 := by simp only [WriterRun.Admits, hselect]
    exact (wrote_sound_iff h hc hselect).trans hadmits.symm
  · -- the queue that is tried is empty, and the other one is to be
    have hadmits : s.Admits .turn ↔ s.writer.rx (!high) = [] := by simp only [WriterRun.Admits, hselect]
    have hself := (recv_none (recv_of_select hselect)).1
    rw [stop_sound_iff h, hadmits]
    refine ⟨fun h => h _, fun hother q => ?_⟩
    by_cases hq : q = high
    · exact hq ▸ hself
    · rw [Bool.eq_not_of_ne hq]
      exact hother
  · refine iff_of_false (fun h' => ?_) id
    have hrx := recv_some (recv_of_select hselect)
    rw [(stop_sound_iff h).mp h' high] at hrx
    cases hrx

/-- The steps that lose nothing keep the count. -/
theorem WriterRun.Counted.step (hc : s.Counted) (ha : s.Admits e) (hs : s.step e = some s') : s'.Counted := by
  rcases WriterRun.step_cases hs with ⟨high, frame, rfl, rfl⟩ | ⟨high, rfl, rfl⟩ | ⟨high, frame, rfl, hselect, rfl⟩ |
    ⟨high, rfl, hselect, rfl⟩ | ⟨high, frame, rfl, hselect, rfl⟩
  · exact ⟨hc.counted, hc.bounded⟩
  · exact ⟨hc.counted, hc.bounded⟩
  · simp only [WriterRun.Admits, hselect] at ha
    exact hc.wrote hselect ha
  · exact ⟨hc.counted, hc.bounded⟩
  · exact ha.elim

/-- **The writer ends** after finitely many turns once both queues are closed. -/
theorem exists_turns_end (hclosed : ∀ q, s.writer.senders q = false) :
    ∃ n s', Run.exec WriterRun.step s (List.replicate n .turn) = some s' ∧ s'.writer.ended = true := by
  induction hn : (s.writer.rx true).length + (s.writer.rx false).length using Nat.strong_induction_on generalizing s with
  | _ n ih =>
    by_cases hended : s.writer.ended = true
    · exact ⟨0, s, rfl, hended⟩
    have hended : s.writer.ended = false := Bool.not_eq_true _ ▸ hended
    rcases hselect : s.writer.select with ⟨high, received⟩
    cases received with
    | pending => exact absurd (recv_pending (recv_of_select hselect)).2 (by rw [hclosed]; exact Bool.false_ne_true)
    | ready received => cases received with
      | none =>
        refine ⟨1, { s with writer := s.writer.stop }, ?_, rfl⟩
        simp [Run.exec, WriterRun.step, hended, hselect]
      | some frame =>
        have hrx := congrArg List.length (recv_some (recv_of_select hselect))
        rw [List.length_cons] at hrx
        have hstep : s.step .turn = some (s.wrote high frame) := by simp [WriterRun.step, hended, hselect]
        have hlt : ((s.wrote high frame).writer.rx true).length + ((s.wrote high frame).writer.rx false).length < n := by
          rw [← hn]
          cases high <;> simp [WriterRun.wrote, MuxWriter.taken] at hrx ⊢ <;> omega
        obtain ⟨k, s', hexec, hend⟩ := ih _ hlt (s := s.wrote high frame) hclosed rfl
        exact ⟨k + 1, s', by rw [List.replicate_succ, Run.exec_cons_of_step hstep, hexec], hend⟩

/-- **The writer of two queues**, for every pattern of enqueueing and closing. In every state what was written from a
queue and what is still in it are what was enqueued, in order, and no more than 32 frames in a row overtake frames of
the low queue, if and only if no frame that is taken has more than 65535 bytes, the loop never finds a queue closed
while the other one has frames, and no write fails. In any case the writer ends when both queues are closed. -/
theorem mux_writer_iff (es : List WriterEvent) :
    (Run.Always WriterRun.step WriterRun.Sound .start es ↔ Run.Meets WriterRun.step WriterRun.Admits .start es) ∧
    ∀ s, Run.exec WriterRun.step .start es = some s → (∀ q, s.writer.senders q = false) →
      ∃ n s', Run.exec WriterRun.step s (List.replicate n .turn) = some s' ∧ s'.writer.ended = true :=
  ⟨Run.always_iff_meets (I := WriterRun.Counted) (fun _ _ _ hc _ ha hs => hc.step ha hs)
    (fun _ _ _ hc h hs => writer_sound_step_iff h hc hs) start_counted writer_start_sound es, fun _ _ => exists_turns_end⟩

end

/-- A frame of a stream over TCP. -/
def lowFrame : MuxFrame := ⟨999, 0, [], false⟩

/-- **A frame that waits is discarded**: it is enqueued in the low queue, both queues are closed, and the writer
returns at its first turn. -/
theorem low_frame_discarded : ∃ s, Run.exec WriterRun.step .start
      [.enqueue false lowFrame, .close true, .close false, .turn] = some s ∧
    s.enqueued false = [lowFrame] ∧ s.written = [] ∧ s.writer.ended = true ∧
    ¬ Run.Always WriterRun.step WriterRun.Sound .start [.enqueue false lowFrame, .close true, .close false, .turn] := by
  refine ⟨_, rfl, rfl, rfl, rfl, fun h => ?_⟩
  have hsound := h.last rfl
  cases hsound.conserved false

end RXCore
