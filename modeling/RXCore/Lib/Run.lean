import Mathlib

/-!
# Runs of a labelled transition system

A system is a partial step function `step : σ → α → Option σ`; `none` says that the action is not
enabled. A run is the list of its actions.

* `exec`: the state a run ends in, with its algebra (`exec_cons`, `exec_append`);
* `Reachable`: the end of some run, and **`exec_invariant`**: the induction over a run;
* `Meets C`: every step the run takes is in a state and with an action that satisfy `C`;
  `Always P`: every state of the run satisfies `P`;
* **`exec_invariant_of_meets`**: an invariant that only the steps meeting `C` preserve;
* **`exec_length_le`**: how long a run can be;
* `always_of_meets`: what such an invariant implies holds all along the run;
* **`exists_forever`**: a cycle of steps that can always be gone through again;
* **`reachable_of_measure`**: a run that can always come closer to a goal can reach it;
* `only p`: the system with some of its actions, **`exec_only`**;
* **`always_iff_meets`**: when `C` says exactly which steps keep `P`, a run stays in `P` if and
  only if all its steps meet `C`.
-/

set_option autoImplicit false

namespace Run

variable {σ α : Type*} (step : σ → α → Option σ)

/-- The state after the actions `as`, if all of them are enabled in turn. -/
def exec : σ → List α → Option σ
  | s, [] => some s
  | s, a :: as => match step s a with
    | none => none
    | some s' => exec s' as

/-- Every step that the run takes satisfies `C` on the state before it and its action. -/
def Meets (C : σ → α → Prop) : σ → List α → Prop
  | _, [] => True
  | s, a :: as => match step s a with
    | none => True
    | some s' => C s a ∧ Meets C s' as

/-- Every state of the run satisfies `P`, the first and the last included. -/
def Always (P : σ → Prop) : σ → List α → Prop
  | s, [] => P s
  | s, a :: as => P s ∧ match step s a with
    | none => True
    | some s' => Always P s' as

/-- `s'` is reached from `s` by some run. -/
def Reachable (s s' : σ) : Prop := ∃ as, exec step s as = some s'

instance decidableMeets (C : σ → α → Prop) [∀ s a, Decidable (C s a)] :
    ∀ s as, Decidable (Meets step C s as)
  | _, [] => .isTrue trivial
  | s, a :: as => by
    unfold Meets
    exact match step s a with
      | none => .isTrue trivial
      | some s' => @instDecidableAnd _ _ _ (decidableMeets C s' as)

variable {step}

@[simp] theorem exec_nil (s : σ) : exec step s [] = some s := rfl

theorem exec_cons (s : σ) (a : α) (as : List α) :
    exec step s (a :: as) = (step s a).bind (exec step · as) := by
  rw [exec]
  cases step s a <;> rfl

theorem exec_cons_some {s s' : σ} {a : α} {as : List α} (h : exec step s (a :: as) = some s') :
    ∃ t, step s a = some t ∧ exec step t as = some s' := by
  rw [exec_cons] at h
  exact Option.bind_eq_some_iff.mp h

theorem exec_cons_of_step {s t : σ} {a : α} (h : step s a = some t) (as : List α) :
    exec step s (a :: as) = exec step t as := by
  rw [exec_cons, h]
  rfl

theorem exec_append (s : σ) (as bs : List α) :
    exec step s (as ++ bs) = (exec step s as).bind (exec step · bs) := by
  induction as generalizing s with
  | nil => rfl
  | cons a as ih =>
    rw [List.cons_append, exec_cons, exec_cons]
    cases step s a with
    | none => rfl
    | some t => exact ih t

theorem meets_cons {C : σ → α → Prop} {s t : σ} {a : α} {as : List α} (h : step s a = some t) :
    Meets step C s (a :: as) ↔ C s a ∧ Meets step C t as := by
  rw [Meets, h]

theorem always_cons {P : σ → Prop} {s t : σ} {a : α} {as : List α} (h : step s a = some t) :
    Always step P s (a :: as) ↔ P s ∧ Always step P t as := by
  rw [Always, h]

theorem Always.head {P : σ → Prop} {s : σ} {as : List α} (h : Always step P s as) : P s := by
  cases as with
  | nil => exact h
  | cons a as => exact h.1

theorem Always.last {P : σ → Prop} {s t : σ} {as : List α} (h : Always step P s as)
    (he : exec step s as = some t) : P t := by
  induction as generalizing s with
  | nil => obtain rfl := Option.some.inj he; exact h
  | cons a as ih =>
    obtain ⟨u, hu, he⟩ := exec_cons_some he
    exact ih ((always_cons hu).mp h).2 he

/-- Every condition holds of the steps of a run if it holds of every step. -/
theorem meets_of_forall {C : σ → α → Prop} (hC : ∀ s a s', step s a = some s' → C s a) (s : σ)
    (as : List α) : Meets step C s as := by
  induction as generalizing s with
  | nil => trivial
  | cons a as ih =>
    cases ht : step s a with
    | none => rw [Meets, ht]; trivial
    | some t => exact (meets_cons ht).mpr ⟨hC s a t ht, ih t⟩

/-- Actions that meet a condition in every state. -/
theorem meets_of_forall_mem {C : σ → α → Prop} {as : List α} (h : ∀ a ∈ as, ∀ s, C s a) (s : σ) :
    Meets step C s as := by
  induction as generalizing s with
  | nil => trivial
  | cons a as ih =>
    cases ht : step s a with
    | none => rw [Meets, ht]; trivial
    | some t =>
      exact (meets_cons ht).mpr ⟨h a List.mem_cons_self s, ih (fun b hb => h b (List.mem_cons_of_mem _ hb)) t⟩

/-- A run that goes on. -/
theorem Meets.append {C : σ → α → Prop} {s t : σ} {as bs : List α} (h : Meets step C s as)
    (he : exec step s as = some t) (h' : Meets step C t bs) : Meets step C s (as ++ bs) := by
  induction as generalizing s with
  | nil =>
    obtain rfl := Option.some.inj he
    exact h'
  | cons a as ih =>
    obtain ⟨s', hs', he⟩ := exec_cons_some he
    rw [meets_cons hs'] at h
    rw [List.cons_append]
    exact (meets_cons hs').mpr ⟨h.1, ih h.2 he⟩

/-- Two conditions hold together. -/
theorem Meets.and {C D : σ → α → Prop} {s : σ} {as : List α} (hC : Meets step C s as)
    (hD : Meets step D s as) : Meets step (fun s a => C s a ∧ D s a) s as := by
  induction as generalizing s with
  | nil => trivial
  | cons a as ih =>
    cases ht : step s a with
    | none => rw [Meets, ht]; trivial
    | some t =>
      rw [meets_cons ht] at hC hD ⊢
      exact ⟨⟨hC.1, hD.1⟩, ih hC.2 hD.2⟩

/-- A condition that another one implies, by an invariant, holds of the same runs. -/
theorem Meets.of_invariant {I : σ → Prop} {C D : σ → α → Prop}
    (hI : ∀ s a s', I s → step s a = some s' → I s')
    (hCD : ∀ s a s', I s → step s a = some s' → C s a → D s a) {s : σ} (hs : I s) {as : List α}
    (h : Meets step C s as) : Meets step D s as := by
  induction as generalizing s with
  | nil => trivial
  | cons a as ih =>
    cases ht : step s a with
    | none => rw [Meets, ht]; trivial
    | some t =>
      rw [meets_cons ht] at h ⊢
      exact ⟨hCD s a t hs ht h.1, ih (hI s a t hs ht) h.2⟩

/-- Two conditions that an invariant makes equivalent hold of the same runs. -/
theorem meets_iff_of_invariant {I : σ → Prop} {C D : σ → α → Prop}
    (hI : ∀ s a s', I s → step s a = some s' → I s')
    (hCD : ∀ s a s', I s → step s a = some s' → (C s a ↔ D s a)) {s : σ} (hs : I s) (as : List α) :
    Meets step C s as ↔ Meets step D s as :=
  ⟨fun h => h.of_invariant hI (fun s a s' hs ht => (hCD s a s' hs ht).mp) hs,
    fun h => h.of_invariant hI (fun s a s' hs ht => (hCD s a s' hs ht).mpr) hs⟩

/-- Two conditions that an invariant makes equivalent hold of the same runs, if the steps that meet them keep it. -/
theorem meets_iff_of_meets {I : σ → Prop} {C D : σ → α → Prop}
    (hI : ∀ s a s', I s → D s a → step s a = some s' → I s')
    (hCD : ∀ s a s', I s → step s a = some s' → (C s a ↔ D s a)) {s : σ} (hs : I s) (as : List α) :
    Meets step C s as ↔ Meets step D s as := by
  induction as generalizing s with
  | nil => exact Iff.rfl
  | cons a as ih =>
    cases ht : step s a with
    | none => rw [Meets, Meets, ht]
    | some t =>
      rw [meets_cons ht, meets_cons ht, hCD s a t hs ht]
      exact and_congr_right fun hD => ih (hI s a t hs hD ht)

/-- **The invariant rule for conditional runs.** -/
theorem exec_invariant_of_meets {I : σ → Prop} {C : σ → α → Prop}
    (hstep : ∀ s a s', I s → C s a → step s a = some s' → I s') {s s' : σ} {as : List α}
    (hI : I s) (hC : Meets step C s as) (h : exec step s as = some s') : I s' := by
  induction as generalizing s with
  | nil => obtain rfl := Option.some.inj h; exact hI
  | cons a as ih =>
    obtain ⟨t, ht, h⟩ := exec_cons_some h
    obtain ⟨hCa, hC⟩ := (meets_cons ht).mp hC
    exact ih (hstep s a t hI hCa ht) hC h

/-- **The invariant rule.** -/
theorem exec_invariant {I : σ → Prop} (hstep : ∀ s a s', I s → step s a = some s' → I s')
    {s s' : σ} {as : List α} (hI : I s) (h : exec step s as = some s') : I s' :=
  exec_invariant_of_meets (C := fun _ _ => True) (fun s a s' hI _ => hstep s a s' hI) hI
    (meets_of_forall (fun _ _ _ _ => trivial) s as) h

/-- **A measure that every step decreases** bounds the length of a run. -/
theorem exec_length_le {I : σ → Prop} {μ : σ → ℕ} (hI : ∀ s a s', I s → step s a = some s' → I s')
    (hμ : ∀ s a s', I s → step s a = some s' → μ s' < μ s) {s s' : σ} {as : List α} (hs : I s)
    (h : exec step s as = some s') : as.length + μ s' ≤ μ s := by
  induction as generalizing s with
  | nil =>
    obtain rfl := Option.some.inj h
    simp
  | cons a as ih =>
    obtain ⟨t, ht, h⟩ := exec_cons_some h
    have hlt := hμ s a t hs ht
    have hle := ih (hI s a t hs ht) h
    rw [List.length_cons]
    omega

theorem Reachable.refl (s : σ) : Reachable step s s := ⟨[], rfl⟩

theorem Reachable.single {s t : σ} {a : α} (h : step s a = some t) : Reachable step s t :=
  ⟨[a], exec_cons_of_step h []⟩

theorem Reachable.trans {s t u : σ} (h : Reachable step s t) (h' : Reachable step t u) : Reachable step s u := by
  obtain ⟨as, has⟩ := h
  obtain ⟨bs, hbs⟩ := h'
  refine ⟨as ++ bs, ?_⟩
  rw [exec_append, has]
  exact hbs

/-- **The progress rule**: where a run can always come closer to a goal, there is one that reaches it. -/
theorem reachable_of_measure {I G : σ → Prop} {μ : σ → ℕ}
    (h : ∀ s, I s → ¬ G s → ∃ t, Reachable step s t ∧ I t ∧ μ t < μ s) {s : σ} (hs : I s) :
    ∃ t, Reachable step s t ∧ I t ∧ G t := by
  induction hn : μ s using Nat.strong_induction_on generalizing s with
  | _ n ih =>
    by_cases hG : G s
    · exact ⟨s, .refl s, hs, hG⟩
    · obtain ⟨t, hst, ht, hlt⟩ := h s hs hG
      obtain ⟨u, htu, hu⟩ := ih _ (hn ▸ hlt) ht rfl
      exact ⟨u, hst.trans htu, hu⟩

variable (step) in
/-- The steps with the actions that `p` admits. -/
def only (p : α → Bool) (s : σ) (a : α) : Option σ := if p a then step s a else none

/-- **A run with some of the actions** is a run all of whose actions are such. -/
theorem exec_only {p : α → Bool} {s t : σ} {as : List α} :
    exec (only step p) s as = some t ↔ (∀ a ∈ as, p a = true) ∧ exec step s as = some t := by
  induction as generalizing s with
  | nil => simp
  | cons a as ih =>
    rw [exec_cons, exec_cons, only, List.forall_mem_cons]
    by_cases hp : p a = true
    · rw [if_pos hp, Option.bind_eq_some_iff, Option.bind_eq_some_iff]
      constructor
      · rintro ⟨u, hu, h⟩
        obtain ⟨hall, he⟩ := ih.mp h
        exact ⟨⟨hp, hall⟩, u, hu, he⟩
      · rintro ⟨⟨-, hall⟩, u, hu, he⟩
        exact ⟨u, hu, ih.mpr ⟨hall, he⟩⟩
    · rw [if_neg hp]
      simp [hp]

theorem Reachable.single_only {p : α → Bool} {s t : σ} {a : α} (hp : p a = true) (h : step s a = some t) :
    Reachable (only step p) s t := .single (a := a) ((if_pos hp).trans h)

/-- A property that an invariant implies holds in every state of a run whose steps meet `C`. -/
theorem always_of_meets {I P : σ → Prop} {C : σ → α → Prop}
    (hstep : ∀ s a s', I s → C s a → step s a = some s' → I s') (hP : ∀ s, I s → P s) {s : σ}
    {as : List α} (hI : I s) (hC : Meets step C s as) : Always step P s as := by
  induction as generalizing s with
  | nil => exact hP s hI
  | cons a as ih =>
    cases ht : step s a with
    | none => rw [Always, ht]; exact ⟨hP s hI, trivial⟩
    | some t =>
      obtain ⟨hCa, hC⟩ := (meets_cons ht).mp hC
      exact (always_cons ht).mpr ⟨hP s hI, ih (hstep s a t hI hCa ht) hC⟩

/-- **Exact conditions.** If, from states that satisfy the invariant `I` and the property `P`, a
step stays in `P` exactly when it meets `C`, then a run stays in `P` exactly when it meets `C`. -/
theorem always_iff_meets {I P : σ → Prop} {C : σ → α → Prop}
    (hI : ∀ s a s', I s → P s → C s a → step s a = some s' → I s')
    (hP : ∀ s a s', I s → P s → step s a = some s' → (P s' ↔ C s a)) {s : σ} (hs : I s) (hp : P s)
    (as : List α) : Always step P s as ↔ Meets step C s as := by
  induction as generalizing s with
  | nil => exact ⟨fun _ => trivial, fun _ => hp⟩
  | cons a as ih =>
    cases ht : step s a with
    | none => rw [Meets, Always, ht]; exact ⟨fun _ => trivial, fun _ => ⟨hp, trivial⟩⟩
    | some t =>
      rw [always_cons ht, meets_cons ht]
      constructor
      · rintro ⟨_, h⟩
        have hc := (hP s a t hs hp ht).mp h.head
        exact ⟨hc, (ih (hI s a t hs hp hc ht) h.head).mp h⟩
      · rintro ⟨hc, h⟩
        have hpt := (hP s a t hs hp ht).mpr hc
        exact ⟨hp, (ih (hI s a t hs hp hc ht) hpt).mpr h⟩

/-- **A cycle that can always be gone through again** is gone through for ever. -/
theorem exists_forever {J : σ → Prop} {a b : α}
    (h : ∀ s, J s → ∃ t u, step s a = some t ∧ step t b = some u ∧ J u) {s : σ} (hs : J s) :
    ∃ (as : ℕ → α) (ss : ℕ → σ), ss 0 = s ∧ (∀ n, step (ss n) (as n) = some (ss (n + 1))) ∧
      ∀ n, as (2 * n) = a ∧ J (ss (2 * n)) := by
  let as : ℕ → α := fun n => if n % 2 = 0 then a else b
  let ss : ℕ → σ := fun n => n.rec s fun n u => (step u (as n)).getD u
  have hsucc : ∀ n, ss (n + 1) = (step (ss n) (as n)).getD (ss n) := fun n => rfl
  have hcycle : ∀ n, J (ss (2 * n)) → step (ss (2 * n)) (as (2 * n)) = some (ss (2 * n + 1)) ∧
      step (ss (2 * n + 1)) (as (2 * n + 1)) = some (ss (2 * (n + 1))) ∧ J (ss (2 * (n + 1))) := by
    intro n hn
    obtain ⟨t, u, ht, hu, hJ⟩ := h _ hn
    have ha : as (2 * n) = a := if_pos (by omega)
    have hb : as (2 * n + 1) = b := if_neg (by omega)
    have h₁ : ss (2 * n + 1) = t := by rw [hsucc, ha, ht]; rfl
    have h₂ : ss (2 * (n + 1)) = u := by
      have hlast := hsucc (2 * n + 1)
      rw [h₁, hb, hu] at hlast
      exact hlast
    rw [h₁, h₂, ha, hb]
    exact ⟨ht, hu, hJ⟩
  have hJ : ∀ n, J (ss (2 * n)) := by
    intro n
    induction n with
    | zero => exact hs
    | succ n ih => exact (hcycle n ih).2.2
  refine ⟨as, ss, rfl, fun n => ?_, fun n => ⟨if_pos (by omega), hJ n⟩⟩
  obtain ⟨k, rfl | rfl⟩ : ∃ k, n = 2 * k ∨ n = 2 * k + 1 := ⟨n / 2, by omega⟩
  · exact (hcycle k (hJ k)).1
  · exact (hcycle k (hJ k)).2.1

end Run
