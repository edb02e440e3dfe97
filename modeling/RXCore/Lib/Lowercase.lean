import Mathlib

/-!
# Lower case

Full lower-casing of a text over the tables of the Unicode database: a character is mapped by itself, except
that a capital sigma at the end of a word becomes a final one.

* `CaseTable`: the tables, with what the database says about ASCII and about sigma;
* `CaseTable.lower`: the mapping, from left to right;
* **`lower_lower`**: it is idempotent; **`lower_congr`**: it forgets the ASCII case;
* `lower_append_dot`, `mem_lower`: dots and other ASCII characters that are no letters stay;
* **`lowerFrom_eq_iff`**: what a cased word in front of a text changes;
* `CaseTable.ascii`: an instance.
-/

set_option autoImplicit false

namespace Lowercase

/-- The ASCII characters that the database calls case-ignorable. -/
def asciiIgnorable : List ℕ := [0x27, 0x2E, 0x3A, 0x5E, 0x60]

/-- The tables of the database. -/
structure CaseTable where
  /-- What a character by itself is mapped to. -/
  toLower : Char → List Char
  cased : Char → Bool
  ignorable : Char → Bool
  toLower_ascii : ∀ c : Char, c.toNat < 128 → toLower c = [c.toLower]
  cased_ascii : ∀ c : Char, c.toNat < 128 → cased c = c.isAlpha
  ignorable_ascii : ∀ c : Char, c.toNat < 128 → ignorable c = decide (c.toNat ∈ asciiIgnorable)
  /-- What is in lower case stays. -/
  toLower_fixed : ∀ c d : Char, c ≠ 'Σ' → d ∈ toLower c → d ≠ 'Σ' ∧ toLower d = [d]
  /-- An ASCII character that is no letter is the image of itself only. -/
  of_mem_toLower : ∀ c d : Char, d ∈ toLower c → d.toNat < 128 → d.isAlpha = false → d = c
  cased_sigma : cased 'Σ' = true
  ignorable_sigma : ignorable 'Σ' = false
  toLower_sigma : ∀ c ∈ ['σ', 'ς'], toLower c = [c]

namespace CaseTable

variable (T : CaseTable) {s t before before' : List Char} {c d : Char}

/-- The first character that is not case-ignorable is cased. -/
def ignorableThenCased (cs : List Char) : Bool :=
  match cs.dropWhile T.ignorable with
  | [] => false
  | c :: _ => T.cased c

/-- A sigma after the given characters, the nearest first, and before the others. -/
def lowerSigma (before after : List Char) : Char :=
  if T.ignorableThenCased before && !T.ignorableThenCased after then 'ς' else 'σ'

/-- A text in lower case that stands after the given characters, the nearest first. -/
def lowerFrom : List Char → List Char → List Char
  | _, [] => []
  | before, c :: cs =>
    (if c = 'Σ' then [T.lowerSigma before cs] else T.toLower c) ++ lowerFrom (c :: before) cs

/-- A text in lower case. -/
def lower (s : List Char) : List Char := T.lowerFrom [] s

/-! ## Once is enough -/

theorem lowerSigma_mem (before after : List Char) : T.lowerSigma before after ∈ ['σ', 'ς'] := by
  unfold lowerSigma
  split_ifs <;> simp

variable {T}

theorem fixed_of_mem_lowerFrom (h : d ∈ T.lowerFrom before s) : d ≠ 'Σ' ∧ T.toLower d = [d] := by
  induction s generalizing before with
  | nil => cases h
  | cons c cs ih =>
    rw [lowerFrom] at h
    rcases List.mem_append.mp h with h | h
    · split_ifs at h with hc
      · obtain rfl := List.mem_singleton.mp h
        have hmem := T.lowerSigma_mem before cs
        refine ⟨fun hd => ?_, T.toLower_sigma _ hmem⟩
        rw [hd] at hmem
        exact absurd hmem (by decide)
      · exact T.toLower_fixed c d hc h
    · exact ih h

theorem lowerFrom_of_fixed (h : ∀ d ∈ s, d ≠ 'Σ' ∧ T.toLower d = [d]) : T.lowerFrom before s = s := by
  induction s generalizing before with
  | nil => rfl
  | cons c cs ih =>
    obtain ⟨hc, hl⟩ := h c List.mem_cons_self
    rw [lowerFrom, if_neg hc, hl, ih fun d hd => h d (List.mem_cons_of_mem _ hd)]
    rfl

/-- **Lower-casing twice changes nothing more.** -/
theorem lower_lower (s : List Char) : T.lower (T.lower s) = T.lower s :=
  lowerFrom_of_fixed fun _ hd => fixed_of_mem_lowerFrom hd

/-! ## ASCII -/

/-- Two characters that differ in their ASCII case only. -/
theorem toLower_eq_cases (h : c.toLower = d.toLower) :
    c = d ∨ (c.isAlpha = true ∧ d.isAlpha = true) := by
  have hd : d.isAlpha = c.isAlpha := by rw [← Char.isAlpha_toLower_eq_isAlpha, ← h, Char.isAlpha_toLower_eq_isAlpha]
  cases hc : c.isAlpha with
  | true => exact .inr ⟨rfl, hd.trans hc⟩
  | false =>
    have hupper : ∀ e : Char, e.isAlpha = false → ¬ e.isUpper := fun e he hu => by simp [Char.isAlpha, hu] at he
    rw [Char.toLower_eq_of_not_isUpper (hupper c hc), Char.toLower_eq_of_not_isUpper (hupper d (hd.trans hc))] at h
    exact .inl h

theorem toNat_of_isAlpha (h : c.isAlpha = true) :
    (65 ≤ c.toNat ∧ c.toNat ≤ 90) ∨ (97 ≤ c.toNat ∧ c.toNat ≤ 122) := by
  have hval : c.val.toNat = c.toNat := rfl
  simpa [Char.isAlpha, Char.isUpper, Char.isLower, UInt32.le_iff_toNat_le, hval] using h

/-- The tables do not tell such characters apart. -/
theorem tables_eq (h : c.toLower = d.toLower) :
    T.toLower c = T.toLower d ∧ T.cased c = T.cased d ∧ T.ignorable c = T.ignorable d ∧ (c = 'Σ' ↔ d = 'Σ') := by
  obtain rfl | ⟨hc, hd⟩ := toLower_eq_cases h
  · exact ⟨rfl, rfl, rfl, Iff.rfl⟩
  · have hc' := toNat_of_isAlpha hc
    have hd' := toNat_of_isAlpha hd
    have hsigma : ∀ e : Char, (65 ≤ e.toNat ∧ e.toNat ≤ 90) ∨ (97 ≤ e.toNat ∧ e.toNat ≤ 122) → e ≠ 'Σ' := by
      rintro e he rfl
      revert he
      decide
    rw [T.toLower_ascii c (by omega), T.toLower_ascii d (by omega), T.cased_ascii c (by omega),
      T.cased_ascii d (by omega), T.ignorable_ascii c (by omega), T.ignorable_ascii d (by omega), h, hc, hd]
    refine ⟨rfl, rfl, ?_, iff_of_false (hsigma c hc') (hsigma d hd')⟩
    rw [decide_eq_decide]
    exact iff_of_false (by simp [asciiIgnorable]; omega) (by simp [asciiIgnorable]; omega)

theorem ignorableThenCased_congr (h : s.map Char.toLower = t.map Char.toLower) :
    T.ignorableThenCased s = T.ignorableThenCased t := by
  induction s generalizing t with
  | nil =>
    obtain rfl : t = [] := by simpa using h.symm
    rfl
  | cons c cs ih =>
    obtain ⟨d, ds, rfl⟩ : ∃ d ds, t = d :: ds := by
      cases t with
      | nil => cases h
      | cons d ds => exact ⟨d, ds, rfl⟩
    obtain ⟨hcd, hrest⟩ := List.cons.inj h
    obtain ⟨-, hcased, hignorable, -⟩ := tables_eq (T := T) hcd
    cases hd : T.ignorable d with
    | true => simpa [ignorableThenCased, List.dropWhile_cons, hignorable, hd] using ih hrest
    | false => simp [ignorableThenCased, hignorable, hd, hcased]

theorem lowerFrom_congr_ascii (hbefore : before.map Char.toLower = before'.map Char.toLower)
    (h : s.map Char.toLower = t.map Char.toLower) : T.lowerFrom before s = T.lowerFrom before' t := by
  induction s generalizing t before before' with
  | nil =>
    obtain rfl : t = [] := by simpa using h.symm
    rfl
  | cons c cs ih =>
    obtain ⟨d, ds, rfl⟩ : ∃ d ds, t = d :: ds := by
      cases t with
      | nil => cases h
      | cons d ds => exact ⟨d, ds, rfl⟩
    obtain ⟨hcd, hrest⟩ := List.cons.inj h
    obtain ⟨hlower, -, -, hsigma⟩ := tables_eq (T := T) hcd
    have hnext : (c :: before).map Char.toLower = (d :: before').map Char.toLower := by simp [hcd, hbefore]
    rw [lowerFrom, lowerFrom, ih hnext hrest, hlower, lowerSigma,
      lowerSigma, ignorableThenCased_congr hbefore, ignorableThenCased_congr hrest]
    simp only [hsigma]

/-- **The ASCII case does not matter.** -/
theorem lower_congr (h : s.map Char.toLower = t.map Char.toLower) : T.lower s = T.lower t :=
  lowerFrom_congr_ascii rfl h

theorem ignorableThenCased_append_dot (s : List Char) :
    T.ignorableThenCased (s ++ ['.']) = T.ignorableThenCased s := by
  induction s with
  | nil =>
    have hdot : T.ignorable '.' = true := T.ignorable_ascii '.' (by decide)
    simp [ignorableThenCased, hdot]
  | cons c cs ih =>
    cases hc : T.ignorable c with
    | true => simpa [ignorableThenCased, List.dropWhile_cons, hc] using ih
    | false => simp [ignorableThenCased, hc]

theorem lowerFrom_append_dot (before s : List Char) :
    T.lowerFrom before (s ++ ['.']) = T.lowerFrom before s ++ ['.'] := by
  induction s generalizing before with
  | nil => exact congrArg (· ++ []) (T.toLower_ascii '.' (by decide))
  | cons c cs ih =>
    rw [List.cons_append, lowerFrom, lowerFrom, ih, lowerSigma, lowerSigma, ignorableThenCased_append_dot,
      List.append_assoc]

/-- A dot at the end stays. -/
theorem lower_append_dot (s : List Char) : T.lower (s ++ ['.']) = T.lower s ++ ['.'] := lowerFrom_append_dot [] s

/-- ASCII characters that are no letters were there before. -/
theorem mem_lowerFrom (h : d ∈ T.lowerFrom before s) (hd : d.toNat < 128) (halpha : d.isAlpha = false) : d ∈ s := by
  induction s generalizing before with
  | nil => cases h
  | cons c cs ih =>
    rw [lowerFrom] at h
    rcases List.mem_append.mp h with h | h
    · split_ifs at h with hc
      · obtain rfl := List.mem_singleton.mp h
        rcases List.mem_cons.mp (T.lowerSigma_mem before cs) with hs | hs
        · rw [hs] at hd
          exact absurd hd (by decide)
        · rw [List.mem_singleton.mp hs] at hd
          exact absurd hd (by decide)
      · rw [T.of_mem_toLower c d h hd halpha]
        exact List.mem_cons_self
    · exact List.mem_cons_of_mem _ (ih h)

/-! ## A word in front -/

theorem lowerFrom_congr (h : T.ignorableThenCased before = T.ignorableThenCased before') :
    T.lowerFrom before s = T.lowerFrom before' s := by
  induction s generalizing before before' with
  | nil => rfl
  | cons c cs ih =>
    have hsigma : T.lowerSigma before cs = T.lowerSigma before' cs := by rw [lowerSigma, lowerSigma, h]
    have hnext : T.ignorableThenCased (c :: before) = T.ignorableThenCased (c :: before') := by
      cases hc : T.ignorable c with
      | true => simpa [ignorableThenCased, List.dropWhile_cons, hc] using h
      | false => simp [ignorableThenCased, hc]
    rw [lowerFrom, lowerFrom, hsigma, ih hnext]

/-- The number of characters does not depend on what stands before. -/
theorem lowerFrom_length (before before' s : List Char) :
    (T.lowerFrom before s).length = (T.lowerFrom before' s).length := by
  induction s generalizing before before' with
  | nil => rfl
  | cons c cs ih =>
    rw [lowerFrom, lowerFrom, List.length_append, List.length_append, ih (c :: before) (c :: before')]
    split_ifs <;> rfl

variable (T) in
/-- The first character that is not case-ignorable is a capital sigma at the end of its word. -/
def opensWithFinalSigma (s : List Char) : Bool :=
  match s.dropWhile T.ignorable with
  | [] => false
  | c :: rest => c = 'Σ' && !T.ignorableThenCased rest

/-- **A cased word in front of a text** changes its lower case exactly when it opens with a final sigma. -/
theorem lowerFrom_eq_iff (h : T.ignorableThenCased before = true) (h' : T.ignorableThenCased before' = false) :
    T.lowerFrom before s = T.lowerFrom before' s ↔ T.opensWithFinalSigma s = false := by
  induction s generalizing before before' with
  | nil => exact iff_of_true rfl rfl
  | cons c cs ih =>
    cases hc : T.ignorable c with
    | true =>
      have hsigma : c ≠ 'Σ' := by
        rintro rfl
        cases hc.symm.trans T.ignorable_sigma
      have hopens : T.opensWithFinalSigma (c :: cs) = T.opensWithFinalSigma cs := by
        simp [opensWithFinalSigma, hc]
      rw [lowerFrom, lowerFrom, if_neg hsigma, if_neg hsigma, List.append_cancel_left_eq, hopens]
      exact ih (by simpa [ignorableThenCased, List.dropWhile_cons, hc] using h)
        (by simpa [ignorableThenCased, List.dropWhile_cons, hc] using h')
    | false =>
      -- from here on nothing depends on what stands before
      have hrest : T.lowerFrom (c :: before) cs = T.lowerFrom (c :: before') cs :=
        lowerFrom_congr (by simp [ignorableThenCased, hc])
      rw [lowerFrom, lowerFrom, hrest, List.append_cancel_right_eq]
      by_cases hsigma : c = 'Σ'
      · subst hsigma
        simp only [lowerSigma, h, h', opensWithFinalSigma, hc, List.dropWhile_cons]
        cases hcs : T.ignorableThenCased cs <;> simp [hcs]
      · simp [hsigma, opensWithFinalSigma, hc]

/-- A text without a capital sigma in front. -/
theorem lowerFrom_append (hs : 'Σ' ∉ s) (before t : List Char) :
    T.lowerFrom before (s ++ t) = s.flatMap T.toLower ++ T.lowerFrom (s.reverse ++ before) t := by
  induction s generalizing before with
  | nil => rfl
  | cons c cs ih =>
    rw [List.mem_cons, not_or] at hs
    rw [List.cons_append, lowerFrom, if_neg (Ne.symm hs.1), ih hs.2, List.flatMap_cons, List.append_assoc,
      List.reverse_cons, List.append_assoc]
    rfl

/-! ## An instance -/

/-- The tables cut down to ASCII and sigma; elsewhere they map nothing. -/
def ascii : CaseTable where
  toLower c := [c.toLower]
  cased c := c.isAlpha || decide (c ∈ ['Σ', 'σ', 'ς'])
  ignorable c := decide (c.toNat ∈ asciiIgnorable)
  toLower_ascii _ _ := rfl
  cased_ascii c hc := by
    have hne : c ∉ ['Σ', 'σ', 'ς'] := by
      intro hmem
      simp only [List.mem_cons, List.not_mem_nil, or_false] at hmem
      rcases hmem with rfl | rfl | rfl <;> exact absurd hc (by decide)
    simp [hne]
  ignorable_ascii _ _ := rfl
  toLower_fixed c d hc hd := by
    obtain rfl := List.mem_singleton.mp hd
    refine ⟨fun hsigma => ?_, by simp⟩
    obtain h | ⟨-, h⟩ := toLower_eq_cases (d := 'Σ') (c := c) (by rw [hsigma]; decide)
    · exact hc h
    · exact absurd h (by decide)
  of_mem_toLower c d hd _ halpha := by
    obtain rfl := List.mem_singleton.mp hd
    rw [Char.isAlpha_toLower_eq_isAlpha] at halpha
    obtain h | ⟨h, -⟩ := toLower_eq_cases (Char.toLower_toLower_eq_toLower c)
    · exact h
    · rw [Char.isAlpha_toLower_eq_isAlpha, halpha] at h
      cases h
  cased_sigma := by decide
  ignorable_sigma := by simp [asciiIgnorable]
  toLower_sigma c hc := by
    simp only [List.mem_cons, List.not_mem_nil, or_false] at hc
    rcases hc with rfl | rfl <;> rfl

end CaseTable

end Lowercase
