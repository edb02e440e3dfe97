import Mathlib

/-!
# Bounded channels

A channel has many senders and one receiver, and holds `cap` messages at most. A sender that finds no place
gets in line; a place that comes free goes to the first in line, and is kept for it until it sends or leaves.

* `Chan`: the messages, the senders that have a place, those in line; nobody is in line while a place is free;
* `trySend`: a message is sent if a place is free, and lost otherwise; `trySend_queue`;
* `pollSend`: a sender sends if it has a place or gets one, and is in line otherwise; `Ready`,
  **`pollSend_queue`**, **`pollSend_sent`**;
* `recv`: the next message; `leave`: a sender is dropped; `recv_queue`, `leave_queue`.
-/

set_option autoImplicit false

namespace Channel

/-- A channel of messages `α` with senders `W`. -/
structure Chan (W α : Type*) where
  cap : ℕ
  queue : List α
  granted : List W
  waiting : List W
  le_cap : queue.length + granted.length ≤ cap
  full_of_waiting : waiting ≠ [] → queue.length + granted.length = cap

namespace Chan

variable {W α : Type*}

/-- An empty channel. -/
def new (cap : ℕ) : Chan W α := ⟨cap, [], [], [], Nat.zero_le _, fun h => absurd rfl h⟩

/-- A place is free. -/
def Room (c : Chan W α) : Prop := c.queue.length + c.granted.length < c.cap

instance (c : Chan W α) : Decidable c.Room := inferInstanceAs (Decidable (_ < _))

theorem waiting_of_room {c : Chan W α} (h : c.Room) : c.waiting = [] := by
  by_contra hne
  exact h.ne (c.full_of_waiting hne)

/-- The channel after one place at most came free: the first in line gets it. -/
def settle (cap : ℕ) (queue : List α) (granted : List W) : (waiting : List W) →
    queue.length + granted.length ≤ cap → (waiting ≠ [] → cap ≤ queue.length + granted.length + 1) → Chan W α
  | [], hle, _ => ⟨cap, queue, granted, [], hle, fun h => absurd rfl h⟩
  | w :: ws, hle, hfull =>
    if h : queue.length + granted.length < cap then
      ⟨cap, queue, granted ++ [w], ws, by rw [List.length_append, List.length_singleton]; omega,
        fun _ => by
          have := hfull (List.cons_ne_nil w ws)
          rw [List.length_append, List.length_singleton]
          omega⟩
    else ⟨cap, queue, granted, w :: ws, hle, fun _ => by omega⟩

@[simp] theorem settle_queue (cap : ℕ) (queue : List α) (granted waiting : List W) (hle hfull) :
    (settle cap queue granted waiting hle hfull).queue = queue := by
  cases waiting with
  | nil => rfl
  | cons w ws =>
    rw [settle]
    split_ifs <;> rfl

@[simp] theorem settle_cap (cap : ℕ) (queue : List α) (granted waiting : List W) (hle hfull) :
    (settle cap queue granted waiting hle hfull).cap = cap := by
  cases waiting with
  | nil => rfl
  | cons w ws =>
    rw [settle]
    split_ifs <;> rfl

/-- With nobody in line a place just comes free. -/
theorem settle_nil (cap : ℕ) (queue : List α) (granted : List W) (hle hfull) :
    (settle cap queue granted [] hle hfull).granted = granted ∧
      (settle cap queue granted [] hle hfull).waiting = [] := ⟨rfl, rfl⟩

/-- Send without waiting. -/
def trySend (c : Chan W α) (a : α) : Chan W α :=
  if h : c.Room then
    { c with
      queue := c.queue ++ [a]
      le_cap := by
        have h' : _ < _ := h
        rw [List.length_append, List.length_singleton]
        omega
      full_of_waiting := fun hne => absurd (waiting_of_room h) hne }
  else c

theorem trySend_queue (c : Chan W α) (a : α) :
    (c.trySend a).queue = if c.Room then c.queue ++ [a] else c.queue := by
  rw [trySend]
  split_ifs <;> rfl

theorem trySend_queue_of_room {c : Chan W α} (h : c.Room) (a : α) : (c.trySend a).queue = c.queue ++ [a] := by
  rw [trySend_queue, if_pos h]

/-- The next message. -/
def recv (c : Chan W α) : Option (α × Chan W α) := match h : c.queue with
  | [] => none
  | a :: queue => some (a, settle c.cap queue c.granted c.waiting
      (by have := c.le_cap; rw [h, List.length_cons] at this; omega)
      (fun hne => by have := c.full_of_waiting hne; rw [h, List.length_cons] at this; omega))

theorem recv_queue {c c' : Chan W α} {a : α} (h : c.recv = some (a, c')) : c.queue = a :: c'.queue := by
  unfold recv at h
  split at h
  · cases h
  · next b queue hq =>
    obtain ⟨rfl, rfl⟩ := Prod.mk.inj (Option.some.inj h)
    rw [settle_queue, hq]

theorem recv_of_queue {c : Chan W α} {a : α} {queue : List α} (h : c.queue = a :: queue) :
    ∃ c', c.recv = some (a, c') ∧ c'.queue = queue := by
  unfold recv
  split
  · next hq => rw [hq] at h; cases h
  · next b q hq =>
    obtain ⟨rfl, rfl⟩ := List.cons.inj (hq.symm.trans h)
    exact ⟨_, rfl, settle_queue ..⟩

theorem recv_eq_none {c : Chan W α} : c.recv = none ↔ c.queue = [] := by
  constructor
  · intro h
    cases hq : c.queue with
    | nil => rfl
    | cons a queue =>
      obtain ⟨c', hc', -⟩ := recv_of_queue hq
      rw [hc'] at h
      cases h
  · intro h
    cases hr : c.recv with
    | none => rfl
    | some r =>
      obtain ⟨a, c'⟩ := r
      have := recv_queue hr
      rw [h] at this
      cases this

/-- Nothing is in the channel, and nobody has a place or is in line. -/
structure Idle (c : Chan W α) : Prop where
  queue : c.queue = []
  granted : c.granted = []
  waiting : c.waiting = []
  cap_pos : 0 < c.cap

theorem Idle.room {c : Chan W α} (h : c.Idle) : c.Room := by
  rw [Room, h.queue, h.granted]
  exact h.cap_pos

/-- One message is in the channel, and nobody has a place or is in line. -/
structure Single (c : Chan W α) : Prop where
  queue : ∃ a, c.queue = [a]
  granted : c.granted = []
  waiting : c.waiting = []
  cap_pos : 0 < c.cap

/-- A channel with one message is idle when it has been received. -/
theorem Single.recv {c : Chan W α} (h : c.Single) : ∃ a c', c.recv = some (a, c') ∧ c'.Idle := by
  obtain ⟨a, hq⟩ := h.queue
  unfold Chan.recv
  split
  · next hnil =>
    rw [hnil] at hq
    cases hq
  · next b queue hcons =>
    obtain ⟨rfl, rfl⟩ := List.cons.inj (hcons.symm.trans hq)
    refine ⟨_, _, rfl, settle_queue .., ?_, ?_, by rw [settle_cap]; exact h.cap_pos⟩
    · simp only [h.granted, h.waiting]
      exact (settle_nil ..).1
    · simp only [h.granted, h.waiting]
      exact (settle_nil ..).2

section senders

variable [DecidableEq W]

/-- Ask for a place, or get in line. -/
def ask (c : Chan W α) (w : W) : Chan W α :=
  if w ∈ c.granted ∨ w ∈ c.waiting then c
  else if h : c.Room then
    { c with
      granted := c.granted ++ [w]
      le_cap := by
        have h' : _ < _ := h
        rw [List.length_append, List.length_singleton]
        omega
      full_of_waiting := fun hne => absurd (waiting_of_room h) hne }
  else
    { c with
      waiting := c.waiting ++ [w]
      full_of_waiting := fun _ => le_antisymm c.le_cap (not_lt.mp h) }

/-- The sender has a place, or gets one when it asks. -/
def Ready (c : Chan W α) (w : W) : Prop := w ∈ c.granted ∨ w ∉ c.waiting ∧ c.Room

instance (c : Chan W α) (w : W) : Decidable (c.Ready w) := inferInstanceAs (Decidable (_ ∨ _))

@[simp] theorem ask_queue (c : Chan W α) (w : W) : (c.ask w).queue = c.queue := by
  rw [ask]
  split_ifs <;> rfl

theorem mem_granted_ask {c : Chan W α} {w : W} : w ∈ (c.ask w).granted ↔ c.Ready w := by
  rw [ask, Ready]
  split_ifs with h hroom
  · rcases h with h | h
    · exact ⟨.inl, fun _ => h⟩
    · -- nobody is in line while a place is free
      refine ⟨.inl, fun hr => hr.resolve_right fun hn => hn.1 h⟩
  · rw [not_or] at h
    simp [h.2, hroom]
  · rw [not_or] at h
    simp [h.1, hroom]

/-- The message of a sender with a place, which it gives up. -/
def sendGranted (c : Chan W α) (w : W) (a : α) (h : w ∈ c.granted) : Chan W α :=
  { c with
    queue := c.queue ++ [a]
    granted := c.granted.erase w
    le_cap := by
      have := c.le_cap
      have := List.length_pos_of_mem h
      rw [List.length_append, List.length_singleton, List.length_erase_of_mem h]
      omega
    full_of_waiting := fun hne => by
      have := c.full_of_waiting hne
      have := List.length_pos_of_mem h
      rw [List.length_append, List.length_singleton, List.length_erase_of_mem h]
      omega }

/-- Send or get in line; the second component tells whether the message was sent. -/
def pollSend (c : Chan W α) (w : W) (a : α) : Chan W α × Bool :=
  if h : w ∈ (c.ask w).granted then ((c.ask w).sendGranted w a h, true) else (c.ask w, false)

/-- **A message is sent exactly if there is a place for it.** -/
theorem pollSend_sent (c : Chan W α) (w : W) (a : α) : (c.pollSend w a).2 = decide (c.Ready w) := by
  rw [pollSend]
  split_ifs with h
  · exact (decide_eq_true (mem_granted_ask.mp h)).symm
  · exact (decide_eq_false fun hr => h (mem_granted_ask.mpr hr)).symm

/-- **What is sent goes to the end of the queue.** -/
theorem pollSend_queue (c : Chan W α) (w : W) (a : α) :
    (c.pollSend w a).1.queue = if c.Ready w then c.queue ++ [a] else c.queue := by
  rw [pollSend]
  split_ifs with h hr hr
  · exact congrArg (· ++ [a]) (ask_queue c w)
  · exact absurd (mem_granted_ask.mp h) hr
  · exact absurd (mem_granted_ask.mpr hr) h
  · exact ask_queue c w

omit [DecidableEq W] in
theorem Idle.ready {c : Chan W α} (h : c.Idle) (w : W) : c.Ready w :=
  .inr ⟨by rw [h.waiting]; exact List.not_mem_nil, h.room⟩

/-- In an idle channel a message is sent, and is the only one. -/
theorem Idle.pollSend {c : Chan W α} (h : c.Idle) (w : W) (a : α) : (c.pollSend w a).1.Single := by
  have hask : c.ask w = { c with
      granted := [w]
      le_cap := by rw [h.queue]; exact h.cap_pos
      full_of_waiting := fun hne => absurd h.waiting hne } := by
    rw [ask, if_neg (by simp [h.granted, h.waiting]), dif_pos h.room]
    simp [h.granted]
  rw [Chan.pollSend, dif_pos (by simp [hask])]
  constructor
  · exact ⟨a, by simp [sendGranted, hask, h.queue]⟩
  · simp [sendGranted, hask]
  · simp [sendGranted, hask, h.waiting]
  · simp [sendGranted, hask, h.cap_pos]

/-- A sender is dropped: it leaves the line, or gives back its place. -/
def leave (c : Chan W α) (w : W) : Chan W α :=
  settle c.cap c.queue (c.granted.erase w) (c.waiting.erase w)
    ((Nat.add_le_add_left List.length_erase_le _).trans c.le_cap)
    (fun hne => by
      have := c.full_of_waiting fun hw => hne (by rw [hw]; rfl)
      have := List.le_length_erase (a := w) (l := c.granted)
      omega)

@[simp] theorem leave_queue (c : Chan W α) (w : W) : (c.leave w).queue = c.queue := settle_queue ..

/-- A sender that tries to send in an idle channel and leaves. -/
theorem Idle.trySend_leave {c : Chan W α} (h : c.Idle) (w : W) (a : α) : ((c.trySend a).leave w).Single := by
  have hsend : (c.trySend a).granted = [] ∧ (c.trySend a).waiting = [] ∧ (c.trySend a).cap = c.cap := by
    rw [trySend, dif_pos h.room]
    exact ⟨h.granted, h.waiting, rfl⟩
  constructor
  · exact ⟨a, by rw [leave_queue, trySend_queue_of_room h.room, h.queue]; rfl⟩
  · simp only [leave, hsend.1, hsend.2.1, List.erase_nil]
    exact (settle_nil ..).1
  · simp only [leave, hsend.1, hsend.2.1, List.erase_nil]
    exact (settle_nil ..).2
  · rw [leave, settle_cap, hsend.2.2]
    exact h.cap_pos

end senders

end Chan

end Channel
