import Mathlib

/-!
# Counts kept in a table

A table counts the members of a collection by key: a key that none of them has has no entry.

* `Tallies m count`: the table `m` holds the numbers `count`, and no zero;
* `take`, `give`: one member more, and one less, with `Tallies.take` and `Tallies.give`.
-/

set_option autoImplicit false

namespace Tally

variable {K : Type*} [DecidableEq K] {m : AList fun _ : K => ℕ} {count count' : K → ℕ} {k : K} {n : ℕ}

/-- The table holds the numbers, and no zero. -/
def Tallies (m : AList fun _ : K => ℕ) (count : K → ℕ) : Prop :=
  ∀ k n, m.lookup k = some n ↔ n = count k ∧ 1 ≤ n

/-- One member more. -/
def take (m : AList fun _ : K => ℕ) (k : K) : AList fun _ : K => ℕ := m.insert k ((m.lookup k).getD 0 + 1)

/-- One member less. -/
def give (m : AList fun _ : K => ℕ) (k : K) : AList fun _ : K => ℕ :=
  match m.lookup k with
  | some n => if 1 < n then m.insert k (n - 1) else m.erase k
  | none => m

theorem tallies_empty : Tallies (∅ : AList fun _ : K => ℕ) fun _ => 0 := by
  intro k n
  rw [AList.lookup_empty]
  constructor
  · intro h
    cases h
  · rintro ⟨rfl, h⟩
    exact absurd h (by simp)

theorem Tallies.lookup_none_iff (h : Tallies m count) : m.lookup k = none ↔ count k = 0 := by
  constructor
  · intro hk
    by_contra hne
    have hsome := (h k (count k)).mpr ⟨rfl, by omega⟩
    rw [hk] at hsome
    cases hsome
  · intro hk
    cases hl : m.lookup k with
    | none => rfl
    | some n =>
      obtain ⟨rfl, hpos⟩ := (h k n).mp hl
      omega

theorem Tallies.getD (h : Tallies m count) (k : K) : (m.lookup k).getD 0 = count k := by
  cases hl : m.lookup k with
  | none => exact (h.lookup_none_iff.mp hl).symm
  | some n => exact ((h k n).mp hl).1

/-- The numbers say what the table holds. -/
theorem Tallies.lookup_eq {m' : AList fun _ : K => ℕ} (h : Tallies m count) (h' : Tallies m' count) (k : K) :
    m.lookup k = m'.lookup k :=
  Option.ext fun n => (h k n).trans (h' k n).symm

theorem Tallies.congr (h : Tallies m count) (he : ∀ k, count k = count' k) : Tallies m count' := by
  intro k n
  rw [h k n, he k]

theorem Tallies.take (h : Tallies m count) (hk : count' k = count k + 1)
    (hne : ∀ k', k' ≠ k → count' k' = count k') : Tallies (take m k) count' := by
  intro k' n
  rw [Tally.take, h.getD]
  by_cases hkk : k' = k
  · subst hkk
    rw [AList.lookup_insert, hk]
    constructor
    · intro he
      obtain rfl := Option.some.inj he
      exact ⟨rfl, Nat.le_add_left 1 _⟩
    · rintro ⟨rfl, -⟩
      rfl
  · rw [AList.lookup_insert_ne hkk, hne k' hkk]
    exact h k' n

theorem Tallies.give (h : Tallies m count) (hk : count k = count' k + 1)
    (hne : ∀ k', k' ≠ k → count' k' = count k') : Tallies (give m k) count' := by
  have hl : m.lookup k = some (count k) := (h k _).mpr ⟨rfl, by omega⟩
  intro k' n
  simp only [Tally.give, hl]
  split_ifs with hgt
  · by_cases hkk : k' = k
    · subst hkk
      rw [AList.lookup_insert, hk, Nat.add_sub_cancel]
      constructor
      · intro he
        obtain rfl := Option.some.inj he
        exact ⟨rfl, by omega⟩
      · rintro ⟨rfl, -⟩
        rfl
    · rw [AList.lookup_insert_ne hkk, hne k' hkk]
      exact h k' n
  · by_cases hkk : k' = k
    · subst hkk
      rw [AList.lookup_erase]
      constructor
      · intro he
        cases he
      · rintro ⟨rfl, hpos⟩
        omega
    · rw [AList.lookup_erase_ne hkk, hne k' hkk]
      exact h k' n

end Tally
