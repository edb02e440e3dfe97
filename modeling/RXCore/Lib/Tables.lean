import Mathlib

/-!
# Association lists as tables

* `lookup_insert_cases`, `lookup_erase_cases`: an entry after a change was there before, or is the new one;
* `lookup_foldl_erase_iff`: the entries that are left after many were taken out;
* `length_keys_insert_le`, `length_keys_erase`, `length_keys_foldl_erase_le`: the number of entries;
* `retain`: every entry is changed or taken out, and **`lookup_retain`**;
* **`sum_countP_le`**: what is counted under different keys is no more than all of it;
* `Related`: two tables with the same keys and related values.
-/

set_option autoImplicit false

namespace Tables

variable {K V : Type*} [DecidableEq K] {m : AList fun _ : K => V} {k k' : K} {v v' : V}

theorem lookup_insert_cases (h : (m.insert k v).lookup k' = some v') :
    (k' = k ∧ v' = v) ∨ (k' ≠ k ∧ m.lookup k' = some v') := by
  by_cases hk : k' = k
  · subst hk
    rw [AList.lookup_insert] at h
    exact .inl ⟨rfl, (Option.some.inj h).symm⟩
  · rw [AList.lookup_insert_ne hk] at h
    exact .inr ⟨hk, h⟩

theorem lookup_erase_cases (h : (m.erase k).lookup k' = some v') : k' ≠ k ∧ m.lookup k' = some v' := by
  by_cases hk : k' = k
  · subst hk
    rw [AList.lookup_erase] at h
    cases h
  · rw [AList.lookup_erase_ne hk] at h
    exact ⟨hk, h⟩

theorem lookup_foldl_erase_iff {ks : List K} :
    (ks.foldl (fun m k => m.erase k) m).lookup k = some v ↔ k ∉ ks ∧ m.lookup k = some v := by
  induction ks generalizing m with
  | nil => simp
  | cons k' ks ih =>
    rw [List.foldl_cons, ih, List.mem_cons, not_or]
    constructor
    · rintro ⟨hks, h⟩
      obtain ⟨hne, h⟩ := lookup_erase_cases h
      exact ⟨⟨hne, hks⟩, h⟩
    · rintro ⟨⟨hne, hks⟩, h⟩
      exact ⟨hks, by rwa [AList.lookup_erase_ne hne]⟩

theorem lookup_of_lookup_foldl_erase {ks : List K}
    (h : (ks.foldl (fun m k => m.erase k) m).lookup k = some v) : m.lookup k = some v :=
  (lookup_foldl_erase_iff.mp h).2

theorem length_keys_insert_le (m : AList fun _ : K => V) (k : K) (v : V) :
    (m.insert k v).keys.length ≤ m.keys.length + 1 := by
  rw [AList.keys_insert, List.length_cons]
  exact Nat.succ_le_succ List.length_erase_le

theorem length_keys_erase (h : k ∈ m.keys) : (m.erase k).keys.length = m.keys.length - 1 := by
  rw [AList.keys_erase]
  exact List.length_erase_of_mem h

theorem length_keys_foldl_erase_le (ks : List K) (m : AList fun _ : K => V) :
    (ks.foldl (fun m k => m.erase k) m).keys.length ≤ m.keys.length := by
  induction ks generalizing m with
  | nil => exact le_rfl
  | cons k ks ih =>
    refine (ih (m.erase k)).trans ?_
    rw [AList.keys_erase]
    exact List.length_erase_le

/-- `f` says what becomes of a value, or that its entry is taken out. -/
def retain (f : V → Option V) (m : AList fun _ : K => V) : AList fun _ : K => V where
  entries := m.entries.filterMap fun e => (f e.2).map fun v => ⟨e.1, v⟩
  nodupKeys := by
    have hsub : ((m.entries.filterMap fun e => (f e.2).map fun v => (⟨e.1, v⟩ : (_ : K) × V)).keys).Sublist
        m.entries.keys := by
      induction m.entries with
      | nil => exact List.Sublist.refl _
      | cons e es ih =>
        rw [List.filterMap_cons]
        cases f e.2 with
        | none => exact ih.cons e.1
        | some v => exact ih.cons_cons e.1
    exact List.Nodup.sublist hsub m.nodupKeys

/-- **What is found after `retain`** is what has become of it. -/
theorem lookup_retain (f : V → Option V) (m : AList fun _ : K => V) (k : K) :
    (retain f m).lookup k = (m.lookup k).bind f := by
  refine Option.ext fun v => ?_
  rw [AList.lookup, ← Option.mem_def, List.mem_dlookup_iff (retain f m).nodupKeys, Option.bind_eq_some_iff, retain,
    List.mem_filterMap]
  constructor
  · rintro ⟨⟨k', v'⟩, hmem, hv⟩
    obtain ⟨w, hw, heq⟩ := Option.map_eq_some_iff.mp hv
    obtain ⟨rfl, rfl⟩ : k' = k ∧ w = v := by simpa using heq
    exact ⟨v', (List.mem_dlookup_iff m.nodupKeys).mpr hmem, hw⟩
  · rintro ⟨v', hl, hv⟩
    exact ⟨⟨k, v'⟩, (List.mem_dlookup_iff m.nodupKeys).mp hl, by simp [hv]⟩

/-- **What is counted under different keys** is no more than all of it. -/
theorem sum_countP_le {β : Type*} (key : β → K) (p : β → Bool) {ks : List K} (hks : ks.Nodup) (l : List β) :
    (ks.map fun k => l.countP fun b => decide (key b = k) && p b).sum ≤ l.countP p := by
  induction ks generalizing p with
  | nil => exact Nat.zero_le _
  | cons k ks ih =>
    obtain ⟨hk, hks⟩ := List.nodup_cons.mp hks
    -- the other keys count only what is not under `k`
    have hrest : (ks.map fun k' => l.countP fun b => decide (key b = k') && p b) =
        ks.map fun k' => l.countP fun b => decide (key b = k') && (p b && !decide (key b = k)) := by
      refine List.map_congr_left fun k' hk' => List.countP_congr fun b _ => ?_
      have hne : k' ≠ k := fun h => hk (h ▸ hk')
      simp only [Bool.and_eq_true, decide_eq_true_eq, Bool.not_eq_true', decide_eq_false_iff_not]
      exact ⟨fun ⟨h, hp⟩ => ⟨h, hp, h ▸ hne⟩, fun ⟨h, hp, _⟩ => ⟨h, hp⟩⟩
    have hsplit : l.countP p = (l.countP fun b => decide (key b = k) && p b) +
        l.countP fun b => p b && !decide (key b = k) := by
      rw [List.countP_eq_countP_filter_add l p fun b => decide (key b = k), List.countP_filter, List.countP_filter]
      simp only [Bool.and_comm]
    rw [List.map_cons, List.sum_cons, hrest, hsplit]
    exact Nat.add_le_add_left (ih _ hks) _

/-- The same keys lead to related values. -/
def Related {V' : Type*} (R : V → V' → Prop) (m : AList fun _ : K => V) (m' : AList fun _ : K => V') : Prop :=
  ∀ k, Option.Rel R (m.lookup k) (m'.lookup k)

variable {V' : Type*} {R S : V → V' → Prop} {m' : AList fun _ : K => V'} {w : V'}

theorem related_empty : Related R (∅ : AList fun _ : K => V) (∅ : AList fun _ : K => V') := fun _ => .none

theorem Related.mono (h : Related R m m') (hRS : ∀ v w, R v w → S v w) : Related S m m' := by
  intro k
  have hk := h k
  generalize m.lookup k = o, m'.lookup k = o' at hk ⊢
  cases hk with
  | some hvw => exact .some (hRS _ _ hvw)
  | none => exact .none

theorem Related.insert (h : Related R m m') (k : K) (hvw : R v w) : Related R (m.insert k v) (m'.insert k w) := by
  intro k'
  by_cases hk : k' = k
  · subst hk
    rw [AList.lookup_insert, AList.lookup_insert]
    exact .some hvw
  · rw [AList.lookup_insert_ne hk, AList.lookup_insert_ne hk]
    exact h k'

theorem Related.lookup_some (h : Related R m m') (hv : m.lookup k = some v) :
    ∃ w, m'.lookup k = some w ∧ R v w := by
  have hk := h k
  rw [hv] at hk
  cases hw : m'.lookup k with
  | none =>
    rw [hw] at hk
    cases hk
  | some w =>
    rw [hw] at hk
    cases hk with
    | some hvw => exact ⟨w, rfl, hvw⟩

theorem Related.lookup_none (h : Related R m m') (hv : m.lookup k = none) : m'.lookup k = none := by
  have hk := h k
  rw [hv] at hk
  cases hw : m'.lookup k with
  | none => rfl
  | some w =>
    rw [hw] at hk
    cases hk

end Tables
