import Mathlib

/-!
# Parties that take locks one after another

A party takes the locks of a list in its order and holds what it has taken; a lock is held by one party at a time.

* `Party`, `Free`, `Party.taken`;
* `Deadlock`: two parties each wait for a lock that the other holds;
* `Crosses`: a party is about to take a lock that closes such a circle;
* **`deadlock_take`**: only these steps lead to a deadlock; `deadlock_release`, `deadlock_join`: no others do;
* **`not_deadlock_of_ordered`**: parties that take their locks in one order are never in a deadlock.
-/

set_option autoImplicit false

namespace Locks

variable {L : Type*}

/-- The locks that a party has yet to take, in its order, and those it holds. -/
structure Party (L : Type*) where
  todo : List L
  held : List L

namespace Party

def fresh (locks : List L) : Party L := ⟨locks, []⟩

/-- The party with the lock that is next. -/
def taken (p : Party L) : Party L := ⟨p.todo.tail, p.todo.head?.toList ++ p.held⟩

/-- The party without the lock it took last. -/
def released (p : Party L) : Party L := { p with held := p.held.tail }

/-- What a party takes next is held by another. -/
def WaitsFor (p q : Party L) : Prop := ∃ l ∈ p.todo.head?, l ∈ q.held

end Party

/-- No party holds the lock. -/
def Free (ps : List (Party L)) (l : L) : Prop := ∀ p ∈ ps, l ∉ p.held

instance [DecidableEq L] (ps : List (Party L)) (l : L) : Decidable (Free ps l) :=
  inferInstanceAs (Decidable (∀ p ∈ ps, l ∉ p.held))

/-- Two parties each wait for a lock that the other holds. -/
def Deadlock (ps : List (Party L)) : Prop :=
  ∃ (i j : ℕ) (p q : Party L), i ≠ j ∧ ps[i]? = some p ∧ ps[j]? = some q ∧ p.WaitsFor q ∧ q.WaitsFor p

/-- The party, once it has the lock that is next, and another one wait for each other. -/
def Crosses (ps : List (Party L)) (i : ℕ) : Prop :=
  ∃ (p : Party L) (j : ℕ) (q : Party L), i ≠ j ∧ ps[i]? = some p ∧ ps[j]? = some q ∧ p.taken.WaitsFor q ∧
    q.WaitsFor p.taken

variable {ps : List (Party L)} {i : ℕ} {p : Party L} {l : L}

/-- A deadlock after the step of one party is an old one or involves that party. -/
theorem deadlock_set (hp : ps[i]? = some p) (p' : Party L) (h : ¬ Deadlock ps) :
    Deadlock (ps.set i p') ↔ ∃ (j : ℕ) (q : Party L), i ≠ j ∧ ps[j]? = some q ∧ p'.WaitsFor q ∧ q.WaitsFor p' := by
  have hself : (ps.set i p')[i]? = some p' := by
    rw [List.getElem?_set_self]
    exact (List.getElem?_eq_some_iff.mp hp).1
  constructor
  · rintro ⟨j, k, q, r, hne, hq, hr, hqr, hrq⟩
    by_cases hj : i = j
    · subst hj
      obtain rfl := Option.some.inj (hself.symm.trans hq)
      rw [List.getElem?_set_ne hne] at hr
      exact ⟨k, r, hne, hr, hqr, hrq⟩
    by_cases hk : i = k
    · subst hk
      obtain rfl := Option.some.inj (hself.symm.trans hr)
      rw [List.getElem?_set_ne hj] at hq
      exact ⟨j, q, hj, hq, hrq, hqr⟩
    · rw [List.getElem?_set_ne hj] at hq
      rw [List.getElem?_set_ne hk] at hr
      exact absurd ⟨j, k, q, r, hne, hq, hr, hqr, hrq⟩ h
  · rintro ⟨j, q, hne, hq, hpq, hqp⟩
    exact ⟨i, j, p', q, hne, hself, by rwa [List.getElem?_set_ne hne], hpq, hqp⟩

/-- **Only a party that crosses another leads to a deadlock.** -/
theorem deadlock_take (hp : ps[i]? = some p) (h : ¬ Deadlock ps) : Deadlock (ps.set i p.taken) ↔ Crosses ps i := by
  rw [deadlock_set hp p.taken h]
  constructor
  · rintro ⟨j, q, hne, hq, hpq, hqp⟩
    exact ⟨p, j, q, hne, hp, hq, hpq, hqp⟩
  · rintro ⟨p', j, q, hne, hp', hq, hpq, hqp⟩
    obtain rfl := Option.some.inj (hp'.symm.trans hp)
    exact ⟨j, q, hne, hq, hpq, hqp⟩

theorem deadlock_release (hp : ps[i]? = some p) (h : ¬ Deadlock ps) : ¬ Deadlock (ps.set i p.released) := by
  rw [deadlock_set hp p.released h]
  rintro ⟨j, q, hne, hq, hpq, l, hl, hheld⟩
  exact h ⟨i, j, p, q, hne, hp, hq, hpq, l, hl, List.mem_of_mem_tail hheld⟩

/-- A party that joins holds nothing. -/
theorem deadlock_join (locks : List L) (h : ¬ Deadlock ps) : ¬ Deadlock (ps ++ [.fresh locks]) := by
  have hold : ∀ {j : ℕ} {q : Party L}, (ps ++ [Party.fresh locks])[j]? = some q → ps[j]? = some q ∨ q = Party.fresh locks := by
    intro j q hq
    rw [List.getElem?_append] at hq
    split_ifs at hq with hj
    · exact .inl hq
    · exact .inr (List.mem_singleton.mp (List.mem_of_getElem? hq))
  rintro ⟨i, j, p, q, hne, hp, hq, hpq, hqp⟩
  rcases hold hp with hp | rfl
  · rcases hold hq with hq | rfl
    · exact h ⟨i, j, p, q, hne, hp, hq, hpq, hqp⟩
    · obtain ⟨l, -, hl⟩ := hpq
      cases hl
  · obtain ⟨l, -, hl⟩ := hqp
    cases hl

/-- **Parties that take their locks in one order** are never in a deadlock. -/
theorem not_deadlock_of_ordered (rank : L → ℕ) (h : ∀ p ∈ ps, ∀ m ∈ p.held, ∀ l ∈ p.todo, rank m < rank l) :
    ¬ Deadlock ps := by
  rintro ⟨i, j, p, q, -, hp, hq, ⟨l, hl, hlq⟩, m, hm, hmp⟩
  have hlm := h p (List.mem_of_getElem? hp) m hmp l (List.mem_of_mem_head? hl)
  have hml := h q (List.mem_of_getElem? hq) l hlq m (List.mem_of_mem_head? hm)
  omega

end Locks
