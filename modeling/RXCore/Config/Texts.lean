import RXCore.Config
import RXCore.Lib.Alphabets
import RXCore.Router.Names

/-!
# Trimmed texts in lower case

What the checks of Reality settings and profiles make of a text, and what they read as hexadecimal.

* `Trimmed`, `trimmed_trimList`: a text without blanks around it;
* `KeepsBlanks`: lower-casing makes and unmakes no blanks; **`trimmed_lower`**: it keeps a text trimmed;
* `normalize_fixed`: a text that was trimmed and lower-cased stays as it is;
* `validateSettingsShortId_iff`, `normalizeShortId_ok_iff`: the two checks of a short id;
* `ProperShortId`, **`normalizeShortId_iff`**: the short ids that the check of a profile leaves as they are.
-/

set_option autoImplicit false

namespace RXCore

open Encoding Lowercase

/-! ## Lists of checks -/

section

variable {ε α β : Type} {f : α → Except ε β} {l : List α} {r : List β}

theorem exists_unit {P : Unit → Prop} : (∃ u, P u) ↔ P () := ⟨fun ⟨(), h⟩ => h, fun h => ⟨(), h⟩⟩

theorem forM_ok_iff {f : α → Except ε PUnit} : l.forM f = .ok () ↔ ∀ a ∈ l, f a = .ok () := by
  induction l with
  | nil => exact iff_of_true rfl fun a ha => absurd ha List.not_mem_nil
  | cons a l ih =>
    change (f a >>= fun _ => l.forM f) = .ok () ↔ _
    rw [bind_ok, List.forall_mem_cons, ← ih]
    exact ⟨fun ⟨_, h⟩ => h, fun h => ⟨(), h⟩⟩

/-- A fallible map, element by element. -/
theorem mapM_ok_iff : l.mapM f = .ok r ↔ List.Forall₂ (fun a b => f a = .ok b) l r := by
  induction l generalizing r with
  | nil =>
    rw [List.mapM_nil, List.forall₂_nil_left_iff]
    exact ⟨fun h => (Except.ok.inj h).symm, fun h => h ▸ rfl⟩
  | cons a l ih =>
    rw [List.mapM_cons, List.forall₂_cons_left_iff]
    simp only [bind_ok, ih]
    constructor
    · rintro ⟨b, hb, bs, hbs, h⟩
      exact ⟨b, bs, hb, hbs, (Except.ok.inj h).symm⟩
    · rintro ⟨b, bs, hb, hbs, rfl⟩
      exact ⟨b, hb, bs, hbs, rfl⟩

theorem mapM_self_iff {f : α → Except ε α} : l.mapM f = .ok l ↔ ∀ a ∈ l, f a = .ok a := by
  rw [mapM_ok_iff, List.forall₂_same]

theorem exists_mapM_ok_iff : (∃ r, l.mapM f = .ok r) ↔ ∀ a ∈ l, ∃ b, f a = .ok b := by
  induction l with
  | nil => exact iff_of_true ⟨[], rfl⟩ fun a ha => absurd ha List.not_mem_nil
  | cons a l ih =>
    rw [List.forall_mem_cons, ← ih]
    simp only [mapM_ok_iff, List.forall₂_cons_left_iff]
    constructor
    · rintro ⟨_, b, bs, hb, hbs, -⟩
      exact ⟨⟨b, hb⟩, bs, hbs⟩
    · rintro ⟨⟨b, hb⟩, bs, hbs⟩
      exact ⟨b :: bs, b, bs, hb, hbs, rfl⟩

end

/-! ## Trimmed texts -/

/-- A text without blanks around it. -/
structure Trimmed (s : List Char) : Prop where
  head : ∀ c ∈ s.head?, isWhitespace c = false
  last : ∀ c ∈ s.getLast?, isWhitespace c = false

section

variable {s t : List Char}

theorem head?_dropWhile {c : Char} (h : c ∈ (s.dropWhile isWhitespace).head?) : isWhitespace c = false := by
  have hnot := List.head?_dropWhile_not isWhitespace s
  rw [Option.mem_def] at h
  rwa [h] at hnot

theorem trimmed_trimList (s : List Char) : Trimmed (trimList s) := by
  constructor
  · intro c hc
    -- what is left is a part of the front of the text, with the same first character
    obtain ⟨rest, hrest⟩ : trimList s <+: s.dropWhile isWhitespace := by
      rw [trimList, ← List.reverse_suffix, List.reverse_reverse]
      exact List.dropWhile_suffix _
    refine head?_dropWhile (s := s) ?_
    rw [← hrest]
    exact List.mem_head?_append_of_mem_head? hc
  · intro c hc
    rw [trimList, List.getLast?_reverse] at hc
    exact head?_dropWhile hc

theorem trimList_of_trimmed (h : Trimmed s) : trimList s = s := by
  have hdrop : ∀ {t : List Char}, (∀ c ∈ t.head?, isWhitespace c = false) → t.dropWhile isWhitespace = t := by
    intro t ht
    cases t with
    | nil => rfl
    | cons c t => rw [List.dropWhile_cons_of_neg (by simp [ht c rfl])]
  rw [trimList, hdrop h.head, hdrop fun c hc => h.last c (by rwa [List.head?_reverse] at hc), List.reverse_reverse]

end

/-! ## Lower case -/

/-- Lower-casing makes no character disappear, and maps blanks to blanks and other characters to others. -/
structure KeepsBlanks (T : CaseTable) : Prop where
  ne_nil : ∀ c, T.toLower c ≠ []
  blank : ∀ c, ∀ d ∈ T.toLower c, isWhitespace d = isWhitespace c

section

variable {T : CaseTable} {X : Crates} {s : List Char}

/-- A sigma is no blank. -/
theorem lowerSigma_blank (before after : List Char) : isWhitespace (T.lowerSigma before after) = false := by
  have hmem := T.lowerSigma_mem before after
  simp only [List.mem_cons, List.not_mem_nil, or_false] at hmem
  rcases hmem with h | h <;> rw [h] <;> decide

/-- What one character becomes. -/
theorem lowerFrom_cons (hT : KeepsBlanks T) (before : List Char) (c : Char) (cs : List Char) :
    ∃ img, T.lowerFrom before (c :: cs) = img ++ T.lowerFrom (c :: before) cs ∧ img ≠ [] ∧
      ∀ d ∈ img, isWhitespace d = isWhitespace c := by
  refine ⟨_, rfl, ?_, fun d hd => ?_⟩
  · split_ifs
    · exact List.cons_ne_nil _ _
    · exact hT.ne_nil c
  · split_ifs at hd with hsigma
    · rw [List.mem_singleton.mp hd, hsigma, lowerSigma_blank]
      decide
    · exact hT.blank c d hd

/-- The ends of a text become ends, blank or not. -/
theorem lowerFrom_ends (hT : KeepsBlanks T) (before : List Char) (c : Char) (cs : List Char) :
    ∃ d e, (T.lowerFrom before (c :: cs)).head? = some d ∧ isWhitespace d = isWhitespace c ∧
      (T.lowerFrom before (c :: cs)).getLast? = some e ∧
      ∀ z ∈ (c :: cs).getLast?, isWhitespace e = isWhitespace z := by
  induction cs generalizing before c with
  | nil =>
    obtain ⟨img, himg, hne, hblank⟩ := lowerFrom_cons hT before c []
    rw [himg, CaseTable.lowerFrom, List.append_nil]
    refine ⟨_, _, List.head?_eq_some_head hne, hblank _ (List.head_mem hne), List.getLast?_eq_some_getLast hne,
      fun z hz => ?_⟩
    obtain rfl := Option.some.inj hz
    exact hblank _ (List.getLast_mem hne)
  | cons c' cs ih =>
    obtain ⟨img, himg, hne, hblank⟩ := lowerFrom_cons hT before c (c' :: cs)
    obtain ⟨-, e, -, -, hlast, hend⟩ := ih (c :: before) c'
    rw [himg]
    refine ⟨_, e, ?_, hblank _ (List.head_mem hne), ?_, fun z hz => hend z ?_⟩
    · rw [List.head?_append, List.head?_eq_some_head hne, Option.some_or]
    · rw [List.getLast?_append, hlast, Option.some_or]
    · rwa [List.getLast?_cons_cons] at hz

/-- **Lower-casing keeps a text trimmed.** -/
theorem trimmed_lower (hT : KeepsBlanks T) (h : Trimmed s) : Trimmed (T.lower s) := by
  cases s with
  | nil => exact h
  | cons c cs =>
    obtain ⟨d, e, hhead, hd, hlast, hend⟩ := lowerFrom_ends hT [] c cs
    constructor
    · intro x hx
      rw [CaseTable.lower, hhead] at hx
      obtain rfl := Option.some.inj hx
      rw [hd]
      exact h.head c rfl
    · intro x hx
      rw [CaseTable.lower, hlast] at hx
      obtain rfl := Option.some.inj hx
      have hz := List.getLast?_eq_some_getLast (List.cons_ne_nil c cs)
      rw [hend _ hz]
      exact h.last _ hz

/-- A text that was trimmed and lower-cased stays as it is, and is blank only if the text was. -/
theorem normalize_fixed (hX : X.Lowercases T) (hT : KeepsBlanks T) (s : String) :
    trim (X.toLowercase (trim s)) = X.toLowercase (trim s) ∧
      X.toLowercase (X.toLowercase (trim s)) = X.toLowercase (trim s) ∧
      (X.toLowercase (trim s) = "" ↔ trim s = "") := by
  have htrimmed : Trimmed (trim s).toList := by
    rw [trim, String.toList_ofList]
    exact trimmed_trimList _
  rw [hX (trim s)]
  refine ⟨?_, ?_, ?_⟩
  · rw [trim, String.toList_ofList, trimList_of_trimmed (trimmed_lower hT htrimmed)]
  · rw [hX, String.toList_ofList, CaseTable.lower_lower]
  · constructor
    · intro h
      have hnil : T.lower (trim s).toList = [] := by
        rw [← String.toList_ofList (l := T.lower (trim s).toList), h]
        rfl
      cases hs : (trim s).toList with
      | nil => exact String.toList_inj.mp hs
      | cons c cs =>
        obtain ⟨d, -, hhead, -⟩ := lowerFrom_ends hT [] c cs
        rw [hs, CaseTable.lower] at hnil
        rw [hnil] at hhead
        cases hhead
    · intro h
      rw [h]
      rfl

end

/-! ## Short ids -/

/-- A short id that the check of a profile leaves as it is: 2 to 16 hexadecimal digits in lower case, evenly
many. -/
structure ProperShortId (sid : String) : Prop extends HexText sid where
  lower : ∀ c ∈ sid.toList, c.isUpper = false
  length : 2 ≤ sid.toList.length ∧ sid.toList.length ≤ 16

/-- Any even number of digits passes the check of settings. -/
theorem validateSettingsShortId_iff (sid : String) : validateSettingsShortId sid = .ok () ↔ HexText sid := by
  rw [← hexDecode_utf8_iff, validateSettingsShortId]
  by_cases hodd : (utf8 sid).length % 2 ≠ 0
  · rw [if_pos hodd]
    refine iff_of_false (fun h => (nomatch h)) fun ⟨r, hr⟩ => ?_
    have hlen := hexDecode_length hr
    omega
  · rw [if_neg hodd]
    cases hexDecode (utf8 sid) with
    | error e => exact iff_of_false (fun h => (nomatch h)) fun ⟨r, hr⟩ => (nomatch hr)
    | ok r => exact iff_of_true rfl ⟨r, rfl⟩

section

variable {T : CaseTable} {X : Crates} {sid sid' : String}

/-- What the check of a profile makes of a short id. -/
theorem normalizeShortId_ok_iff : normalizeShortId X sid = .ok sid' ↔ sid' = X.toLowercase (trim sid) ∧
    HexText sid' ∧ 2 ≤ sid'.toList.length ∧ sid'.toList.length ≤ 16 := by
  rw [normalizeShortId]
  generalize X.toLowercase (trim sid) = t
  constructor
  · intro h
    split_ifs at h with hlen
    cases hdec : hexDecode (utf8 t) with
    | error e => simp [hdec] at h
    | ok r =>
      simp only [hdec] at h
      obtain rfl := Except.ok.inj h
      have hhex := (hexDecode_utf8_iff t).mp ⟨r, hdec⟩
      have hlength := hhex.utf8_length
      exact ⟨rfl, hhex, by omega, by omega⟩
  · rintro ⟨rfl, hhex, hmin, hmax⟩
    have hlength := hhex.utf8_length
    have heven := hhex.even
    obtain ⟨r, hr⟩ := (hexDecode_utf8_iff sid').mpr hhex
    rw [if_neg (by omega), hr]

/-- A hexadecimal text has no blanks around it. -/
theorem trim_of_hexText (h : HexText sid) : trim sid = sid := by
  have hblank : ∀ c : Char, isHexDigit c = true → isWhitespace c = false := by
    intro c hc
    simp only [isHexDigit, Bool.or_eq_true, Bool.and_eq_true, decide_eq_true_eq] at hc
    simp only [isWhitespace, Bool.or_eq_false_iff, Bool.and_eq_false_iff, decide_eq_false_iff_not, beq_eq_false_iff_ne]
    omega
  have htrimmed : Trimmed sid.toList := ⟨fun c hc => hblank c (h.digits c (List.mem_of_mem_head? hc)),
    fun c hc => hblank c (h.digits c (List.mem_of_mem_getLast? hc))⟩
  rw [trim, trimList_of_trimmed htrimmed, String.ofList_toList]

/-- Lower-casing an ASCII text. -/
theorem lower_ascii {s before : List Char} (h : ∀ c ∈ s, c.toNat < 128) : T.lowerFrom before s = s.map Char.toLower := by
  induction s generalizing before with
  | nil => rfl
  | cons c cs ih =>
    have hc := h c List.mem_cons_self
    have hsigma : c ≠ 'Σ' := by
      rintro rfl
      exact absurd hc (by decide)
    rw [CaseTable.lowerFrom, if_neg hsigma, T.toLower_ascii c hc, ih fun d hd => h d (List.mem_cons_of_mem _ hd)]
    rfl

theorem toLower_digit {c : Char} (h : isHexDigit c = true) : isHexDigit c.toLower = true := by
  have hall : ∀ n : Fin 128, isHexDigit (Char.ofNat n) = true → isHexDigit (Char.ofNat n).toLower = true := by decide
  have hc := hall ⟨c.toNat, ascii_of_isHexDigit h⟩
  rw [Char.ofNat_toNat] at hc
  exact hc h

/-- A hexadecimal text in lower case is one of the same length. -/
theorem hexText_toLowercase (hX : X.Lowercases T) (h : HexText sid) :
    HexText (X.toLowercase (trim sid)) ∧ (X.toLowercase (trim sid)).toList.length = sid.toList.length := by
  have hlower : (X.toLowercase (trim sid)).toList = sid.toList.map Char.toLower := by
    rw [trim_of_hexText h, hX, String.toList_ofList]
    exact lower_ascii fun c hc => ascii_of_isHexDigit (h.digits c hc)
  have hlen : (X.toLowercase (trim sid)).toList.length = sid.toList.length := by
    rw [hlower, List.length_map]
  refine ⟨⟨by rw [hlen]; exact h.even, fun c hc => ?_⟩, hlen⟩
  rw [hlower] at hc
  obtain ⟨d, hd, rfl⟩ := List.mem_map.mp hc
  exact toLower_digit (h.digits d hd)

theorem lower_fixed_iff {s : List Char} (h : ∀ c ∈ s, c.toNat < 128) :
    T.lower s = s ↔ ∀ c ∈ s, c.isUpper = false := by
  have hsigma : ∀ c ∈ s, c ≠ 'Σ' := by
    rintro c hc rfl
    exact absurd (h _ hc) (by decide)
  constructor
  · intro hfixed c hc
    rw [← hfixed] at hc
    obtain ⟨-, hone⟩ := CaseTable.fixed_of_mem_lowerFrom hc
    have hascii : c.toNat < 128 := h c (hfixed ▸ hc)
    rw [T.toLower_ascii c hascii] at hone
    have hlower : c.toLower = c := List.singleton_inj.mp hone
    rw [← hlower, Bool.eq_false_iff]
    exact fun hupper => absurd hupper (by simp)
  · intro hlower
    refine CaseTable.lowerFrom_of_fixed fun c hc => ⟨hsigma c hc, ?_⟩
    rw [T.toLower_ascii c (h c hc), Char.toLower_eq_of_not_isUpper (by simp [hlower c hc])]

/-- **The short ids that the check of a profile leaves as they are.** -/
theorem normalizeShortId_iff (hX : X.Lowercases T) : normalizeShortId X sid = .ok sid ↔ ProperShortId sid := by
  rw [normalizeShortId_ok_iff]
  constructor
  · rintro ⟨heq, hhex, hlen⟩
    rw [trim_of_hexText hhex, hX] at heq
    have hfixed : T.lower sid.toList = sid.toList := by
      rw [← String.toList_ofList (l := T.lower sid.toList), ← heq]
    exact ⟨hhex, (lower_fixed_iff fun c hc => ascii_of_isHexDigit (hhex.digits c hc)).mp hfixed, hlen⟩
  · rintro ⟨hhex, hlower, hlen⟩
    refine ⟨?_, hhex, hlen⟩
    rw [trim_of_hexText hhex, hX, (lower_fixed_iff fun c hc => ascii_of_isHexDigit (hhex.digits c hc)).mpr hlower,
      String.ofList_toList]

end

end RXCore
