import Mathlib

/-!
# A list of parties

The state of a system of many parties is the list of their states, and a step sets that of one of them.

* `getElem?_set_cases`, `getElem?_append_cases`: the parties after a step, and after one joins;
* **`sum_map_set`**, **`countP_set`**: a sum over all parties after a step, and the number of those in a
  given condition.
-/

set_option autoImplicit false

namespace Parties

variable {σ : Type*} {l : List σ} {i j : ℕ} {a b c : σ}

theorem lt_of_getElem? (h : l[i]? = some a) : i < l.length := (List.getElem?_eq_some_iff.mp h).1

/-- A party is the one that was set, or is as before. -/
theorem getElem?_set_cases (h : (l.set i b)[j]? = some c) :
    (j = i ∧ c = b) ∨ (j ≠ i ∧ l[j]? = some c) := by
  by_cases hji : j = i
  · subst hji
    have hlt : j < l.length := by simpa using lt_of_getElem? h
    simp [hlt] at h
    exact .inl ⟨rfl, h.symm⟩
  · rw [List.getElem?_set_ne (Ne.symm hji)] at h
    exact .inr ⟨hji, h⟩

theorem getElem?_set_self (h : l[i]? = some a) (b : σ) : (l.set i b)[i]? = some b := by
  simp [lt_of_getElem? h]

theorem set_of_getElem? (h : l[i]? = some a) : l.set i a = l := by
  obtain ⟨hlt, rfl⟩ := List.getElem?_eq_some_iff.mp h
  exact List.set_getElem_self hlt

/-- A party of the longer list is an old one or the new one. -/
theorem getElem?_append_cases (h : (l ++ [b])[j]? = some c) : l[j]? = some c ∨ (j = l.length ∧ c = b) := by
  rcases lt_trichotomy j l.length with hj | rfl | hj
  · exact .inl (by rwa [List.getElem?_append_left hj] at h)
  · rw [List.getElem?_concat_length] at h
    exact .inr ⟨rfl, (Option.some.inj h).symm⟩
  · rw [List.getElem?_eq_none (by simp; omega)] at h
    cases h

theorem getElem?_append_of_some (b : σ) (h : l[j]? = some c) : (l ++ [b])[j]? = some c := by
  rwa [List.getElem?_append_left (lt_of_getElem? h)]

/-- **The sum changes by what the party that was set changes.** -/
theorem sum_map_set {M : Type*} [AddCommMonoid M] (f : σ → M) (h : l[i]? = some a) (b : σ) :
    ((l.set i b).map f).sum + f a = (l.map f).sum + f b := by
  induction l generalizing i with
  | nil => cases h
  | cons c l ih =>
    cases i with
    | zero =>
      obtain rfl := Option.some.inj h
      simp only [List.set_cons_zero, List.map_cons, List.sum_cons]
      abel
    | succ i =>
      simp only [List.set_cons_succ, List.map_cons, List.sum_cons, add_assoc]
      rw [ih h]

/-- **The number of parties in a condition changes by the one that was set.** -/
theorem countP_set (p : σ → Bool) (h : l[i]? = some a) (b : σ) :
    (l.set i b).countP p + (if p a then 1 else 0) = l.countP p + if p b then 1 else 0 := by
  obtain ⟨hlt, rfl⟩ := List.getElem?_eq_some_iff.mp h
  have hle := List.boole_getElem_le_countP (p := p) hlt
  rw [List.countP_set hlt]
  omega

end Parties
