import Mathlib

/-!
# A pacer with a virtual clock

A sender that must not exceed a rate keeps a virtual clock: each piece moves it on by the time that the piece is worth,
and the piece goes when the real clock has come that far. A sender that is behind may catch up, but when it is more
than `slack` behind, the virtual clock is set to the real one.

* `Piece`: a piece with the virtual clock it meets, its cost, the real clock and the moment its timer wakes;
* `Piece.goes`, `Piece.late`, `Piece.after`: when it goes, how late the timer is, the virtual clock after it;
* `Chained`: pieces that one virtual clock has met in turn;
* **`Chained.window`**: between two pieces of a run no more goes than time has passed, the slack and the delay of the
  timer added.
-/

set_option autoImplicit false

namespace Pacer

variable {K : Type*} [Field K] [LinearOrder K]

/-- A piece that is to be sent. -/
structure Piece (K : Type*) where
  clock : K
  cost : K
  now : K
  /-- When the timer wakes, if the piece has to wait for it. -/
  wake : K

/-- The virtual clock that the piece waits for. -/
def Piece.deadline (p : Piece K) : K := p.clock + p.cost

/-- The moment at which the piece goes. -/
def Piece.goes (p : Piece K) : K := if p.now < p.deadline then p.wake else p.now

/-- How late the timer wakes. -/
def Piece.late (p : Piece K) : K := if p.now < p.deadline then p.wake - p.deadline else 0

/-- The virtual clock after the piece. -/
def Piece.after (slack : K) (p : Piece K) : K :=
  if p.now < p.deadline then p.deadline else if slack < p.now - p.deadline then p.now else p.deadline

/-- The timer does not wake before its deadline. -/
def Piece.Prompt (p : Piece K) : Prop := p.now < p.deadline → p.deadline ≤ p.wake

instance (p : Piece K) : Decidable p.Prompt := inferInstanceAs (Decidable (_ → _))

/-- Each piece meets the virtual clock that the piece before it has left. -/
def Chained (slack : K) (ps : List (Piece K)) : Prop := ps.IsChain fun p q => q.clock = p.after slack

section

variable {slack : K} {p : Piece K} {ps : List (Piece K)}

theorem Piece.deadline_le_after (slack : K) (p : Piece K) : p.deadline ≤ p.after slack := by
  unfold Piece.after
  split_ifs with h1 h2
  · exact le_rfl
  · exact not_lt.mp h1
  · exact le_rfl

/-- A piece does not go before the virtual clock. -/
theorem Piece.after_le_goes (slack : K) (h : p.Prompt) : p.after slack ≤ p.goes := by
  unfold Piece.after Piece.goes
  split_ifs with h1 h2
  · exact h h1
  · exact le_rfl
  · exact not_lt.mp h1

/-- A piece that meets the virtual clock which a run has left goes on with the run. -/
theorem Chained.concat (h : Chained slack ps) (hp : ∀ q ∈ ps.getLast?, p.clock = q.after slack) :
    Chained slack (ps ++ [p]) := by
  refine List.IsChain.append h (List.isChain_singleton p) ?_
  intro q hq r hr
  obtain rfl : p = r := by simpa using hr
  exact hp q hq

variable [IsStrictOrderedRing K]

/-- A piece goes at most `slack` after the virtual clock, unless the timer is late. -/
theorem Piece.goes_le_after (hslack : 0 ≤ slack) (p : Piece K) : p.goes ≤ p.after slack + slack + p.late := by
  unfold Piece.after Piece.goes Piece.late
  split_ifs with h1 h2
  · linarith
  · linarith
  · linarith [not_lt.mp h2]

/-- **The virtual clock counts what goes**: it is moved on by the cost of every piece. -/
theorem Chained.sum_cost_le (h : Chained slack (p :: ps)) :
    (ps.map Piece.cost).sum ≤ ((p :: ps).getLast (List.cons_ne_nil p ps)).after slack - p.after slack := by
  induction ps generalizing p with
  | nil => simp
  | cons q ps ih =>
    obtain ⟨hclock, htail⟩ := List.isChain_cons_cons.mp h
    have hrest := ih htail
    have hq : p.after slack + q.cost ≤ q.after slack := by
      have := q.deadline_le_after slack
      rwa [Piece.deadline, hclock] at this
    rw [List.map_cons, List.sum_cons, List.getLast_cons (List.cons_ne_nil q ps)]
    linarith

/-- **What goes after a piece and up to the last one** is worth no more than the time from the one to the other, the
slack and the delay of the timer for the first. -/
theorem Chained.sum_cost_le_goes (hslack : 0 ≤ slack) (h : Chained slack (p :: ps))
    (hprompt : ∀ q ∈ p :: ps, q.Prompt) :
    (ps.map Piece.cost).sum ≤
      ((p :: ps).getLast (List.cons_ne_nil p ps)).goes - p.goes + slack + p.late := by
  have hsum := h.sum_cost_le
  have hlast := Piece.after_le_goes slack (hprompt _ (List.getLast_mem (List.cons_ne_nil p ps)))
  have hfirst := p.goes_le_after hslack
  linarith

/-- **A window of a run**, from one of its pieces to a later one. -/
theorem Chained.window (hslack : 0 ≤ slack) (h : Chained slack ps) (hprompt : ∀ q ∈ ps, q.Prompt)
    {i j : Fin ps.length} (hij : i < j) :
    (((ps.drop (i + 1)).take (j - i)).map Piece.cost).sum ≤ ps[j].goes - ps[i].goes + slack + ps[i].late := by
  have hcut : ps[i] :: (ps.drop (i + 1)).take (j - i) = (ps.drop i).take (j - i + 1) := by
    rw [List.drop_eq_getElem_cons i.isLt, List.take_succ_cons]
    rfl
  have hchain : Chained slack (ps[i] :: (ps.drop (i + 1)).take (j - i)) := by
    rw [hcut]
    exact (h.drop i).take (j - i + 1)
  have hlast : (ps[i] :: (ps.drop (i + 1)).take (j - i)).getLast (List.cons_ne_nil _ _) = ps[j] := by
    have hlt : (i : ℕ) < j := hij
    simp only [Fin.getElem_fin] at hcut ⊢
    simp only [hcut, List.getLast_eq_getElem, List.getElem_take, List.getElem_drop, List.length_take,
      List.length_drop]
    congr 1
    omega
  have hsum := hchain.sum_cost_le_goes hslack fun q hq => hprompt q ?_
  · rwa [hlast] at hsum
  · rw [hcut] at hq
    exact List.mem_of_mem_drop (List.mem_of_mem_take hq)

end

end Pacer
