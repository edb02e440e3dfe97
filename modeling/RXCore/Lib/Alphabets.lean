import RXCore.Lib.Encoding

/-!
# Two alphabets for one key

Bytes are written in hexadecimal or in standard base64; the digits of the one alphabet are symbols of the
other.

* `utf8_ofList`: the bytes of a text of ASCII characters;
* **`hexDecode_hexEncode`**: hexadecimal round trips; `HexText`, **`hexDecode_utf8_iff`**: which texts are
  hexadecimal;
* `base64Encode`, **`base64Decode_base64Encode`**: so does base64;
* `base64Decode_symbols`: a multiple of four symbols always decodes;
* **`base64Decode_of_hexDecode`**: a hexadecimal text of an even number of bytes is base64 as well, of half as
  many bytes again.
-/

set_option autoImplicit false

namespace Encoding

/-- The bytes of a text of ASCII characters. -/
theorem utf8_ofList {cs : List Char} (h : ∀ c ∈ cs, c.toNat < 128) : utf8 (String.ofList cs) = cs.map Char.toUInt8 := by
  rw [utf8_eq_flatMap, String.toList_ofList]
  induction cs with
  | nil => rfl
  | cons c cs ih =>
    have hc : c.utf8Size = 1 := by
      rw [Char.utf8Size_eq_one_iff, UInt32.le_iff_toNat_le]
      exact Nat.le_of_lt_succ (h c List.mem_cons_self)
    rw [List.flatMap_cons, String.utf8EncodeChar_eq_singleton hc, ih fun d hd => h d (List.mem_cons_of_mem _ hd)]
    rfl

/-! ## Hexadecimal -/

/-- The digits of bytes. -/
def hexDigits (bs : List UInt8) : List Char :=
  bs.flatMap fun b => [Nat.digitChar (b.toNat / 16), Nat.digitChar (b.toNat % 16)]

theorem hexDigits_length (bs : List UInt8) : (hexDigits bs).length = 2 * bs.length := by
  induction bs with
  | nil => rfl
  | cons b bs ih =>
    rw [hexDigits, List.flatMap_cons, List.length_append, ← hexDigits, ih, List.length_cons]
    exact (Nat.add_comm _ _).trans (Nat.mul_succ 2 _).symm

/-- The digits are those of the numbers below 16. -/
theorem mem_hexDigits {bs : List UInt8} {c : Char} (h : c ∈ hexDigits bs) : ∃ n < 16, c = Nat.digitChar n := by
  obtain ⟨b, -, hc⟩ := List.mem_flatMap.mp h
  have hb := b.toNat_lt
  rcases List.mem_cons.mp hc with rfl | hc
  · exact ⟨_, by omega, rfl⟩
  · exact ⟨_, by omega, List.mem_singleton.mp hc⟩

theorem digitChar_ascii : ∀ n < 16, (Nat.digitChar n).toNat < 128 := by decide

theorem utf8_hexEncode (bs : List UInt8) : utf8 (hexEncode bs) = (hexDigits bs).map Char.toUInt8 := by
  refine utf8_ofList fun c hc => ?_
  obtain ⟨n, hn, rfl⟩ := mem_hexDigits hc
  exact digitChar_ascii n hn

theorem hexVal_digitChar (i : ℕ) : ∀ n < 16, hexVal (Char.toUInt8 (Nat.digitChar n)) i = .ok (UInt8.ofNat n) := by
  intro n hn
  interval_cases n <;> rfl

/-- A byte from its halves. -/
theorem ofNat_halves : ∀ hi < 16, ∀ lo < 16, UInt8.ofNat hi <<< 4 ||| UInt8.ofNat lo = UInt8.ofNat (hi * 16 + lo) := by
  decide

theorem hexPairs_hexDigits (i : ℕ) (bs : List UInt8) : hexPairs i ((hexDigits bs).map Char.toUInt8) = .ok bs := by
  induction bs generalizing i with
  | nil => rfl
  | cons b bs ih =>
    have hb := b.toNat_lt
    have hcons : (hexDigits (b :: bs)).map Char.toUInt8 = Char.toUInt8 (Nat.digitChar (b.toNat / 16)) ::
        Char.toUInt8 (Nat.digitChar (b.toNat % 16)) :: (hexDigits bs).map Char.toUInt8 := rfl
    rw [hcons, hexPairs, hexVal_digitChar _ _ (by omega), hexVal_digitChar _ _ (by omega), ih]
    simp only [bind, Except.bind, pure, Except.pure]
    rw [ofNat_halves _ (by omega) _ (by omega), ofNat_of_eq (a := b) (by omega)]

/-- **Hexadecimal round trips.** -/
theorem hexDecode_hexEncode (bs : List UInt8) : hexDecode (utf8 (hexEncode bs)) = .ok bs := by
  rw [hexDecode, utf8_hexEncode, if_pos, hexPairs_hexDigits]
  rw [List.length_map, hexDigits_length]
  omega

/-- A digit, in either case. -/
def isHexDigit (c : Char) : Bool :=
  (48 ≤ c.toNat && c.toNat ≤ 57) || (65 ≤ c.toNat && c.toNat ≤ 70) || (97 ≤ c.toNat && c.toNat ≤ 102)

theorem ascii_of_isHexDigit {c : Char} (h : isHexDigit c = true) : c.toNat < 128 := by
  simp only [isHexDigit, Bool.or_eq_true, Bool.and_eq_true, decide_eq_true_eq] at h
  omega

theorem hexVal_iff {c : Char} (hc : c.toNat < 128) (i : ℕ) :
    (∃ v, hexVal c.toUInt8 i = .ok v) ↔ isHexDigit c = true := by
  have hcode : c.toUInt8.toNat = c.toNat := by
    rw [← Char.toUInt8_val, UInt32.toNat_toUInt8]
    exact Nat.mod_eq_of_lt (show c.toNat < 256 by omega)
  rw [hexVal, hcode, isHexDigit]
  simp only [Bool.or_eq_true, Bool.and_eq_true, decide_eq_true_eq]
  split_ifs with h1 h2 h3
  · exact iff_of_true ⟨_, rfl⟩ (.inl (.inr h1))
  · exact iff_of_true ⟨_, rfl⟩ (.inr h2)
  · exact iff_of_true ⟨_, rfl⟩ (.inl (.inl h3))
  · exact iff_of_false (fun ⟨v, hv⟩ => (nomatch hv)) (by tauto)

theorem hexVal_of_hexPairs {i : ℕ} {bs r : List UInt8} (h : hexPairs i bs = .ok r) :
    ∀ b ∈ bs, ∃ j v, hexVal b j = .ok v := by
  induction bs using List.twoStepInduction generalizing i r with
  | nil => exact fun b hb => absurd hb List.not_mem_nil
  | singleton a => cases h
  | cons_cons a b bs ih _ =>
    simp only [hexPairs, bind, Except.bind] at h
    cases ha : hexVal a (2 * i) with
    | error e => simp only [ha] at h; cases h
    | ok hi =>
      cases hb : hexVal b (2 * i + 1) with
      | error e => simp only [ha, hb] at h; cases h
      | ok lo =>
        cases hr : hexPairs (i + 1) bs with
        | error e => simp only [ha, hb, hr] at h; cases h
        | ok rest =>
          intro c hc
          rcases List.mem_cons.mp hc with rfl | hc
          · exact ⟨_, _, ha⟩
          · rcases List.mem_cons.mp hc with rfl | hc
            · exact ⟨_, _, hb⟩
            · exact ih hr c hc

theorem hexPairs_ok {i : ℕ} {bs : List UInt8} (h : ∀ b ∈ bs, ∀ j, ∃ v, hexVal b j = .ok v) (heven : bs.length % 2 = 0) :
    ∃ r, hexPairs i bs = .ok r := by
  induction bs using List.twoStepInduction generalizing i with
  | nil => exact ⟨[], rfl⟩
  | singleton a => simp at heven
  | cons_cons a b bs ih _ =>
    obtain ⟨hi, ha⟩ := h a (by simp) (2 * i)
    obtain ⟨lo, hb⟩ := h b (by simp) (2 * i + 1)
    obtain ⟨rest, hr⟩ := ih (i := i + 1) (fun c hc => h c (by simp [hc])) (by simp only [List.length_cons] at heven; omega)
    rw [hexPairs, ha, hb, hr]
    exact ⟨_, rfl⟩

/-- The last byte of a character that is not ASCII is none. -/
theorem exists_high_byte {c : Char} (h : ¬ c.toNat < 128) : ∃ b ∈ String.utf8EncodeChar c, 128 ≤ b.toNat := by
  have hhigh : ∀ x : UInt8, 128 ≤ (x &&& 0x3f ||| 0x80).toNat := fun x => by
    rw [UInt8.toNat_or]
    exact Nat.right_le_or
  have hsize : c.utf8Size ≠ 1 := fun h1 => by
    rw [Char.utf8Size_eq_one_iff, UInt32.le_iff_toNat_le] at h1
    exact h (Nat.lt_succ_of_le h1)
  rcases c.utf8Size_eq with h1 | h2 | h3 | h4
  · exact absurd h1 hsize
  · rw [String.utf8EncodeChar_eq_cons_cons h2]
    exact ⟨c.val.toUInt8 &&& 0x3f ||| 0x80, by simp, hhigh _⟩
  · rw [String.utf8EncodeChar_eq_cons_cons_cons h3]
    exact ⟨c.val.toUInt8 &&& 0x3f ||| 0x80, by simp, hhigh _⟩
  · rw [String.utf8EncodeChar_eq_cons_cons_cons_cons h4]
    exact ⟨c.val.toUInt8 &&& 0x3f ||| 0x80, by simp, hhigh _⟩

/-- The bytes of a text that is ASCII. -/
theorem utf8_of_ascii {s : String} (h : ∀ c ∈ s.toList, c.toNat < 128) : utf8 s = s.toList.map Char.toUInt8 := by
  rw [← utf8_ofList h, String.ofList_toList]

/-- An even number of hexadecimal digits, in either case. -/
structure HexText (s : String) : Prop where
  even : s.toList.length % 2 = 0
  digits : ∀ c ∈ s.toList, isHexDigit c = true

theorem HexText.utf8_length {s : String} (h : HexText s) : (utf8 s).length = s.toList.length := by
  rw [utf8_of_ascii fun c hc => ascii_of_isHexDigit (h.digits c hc), List.length_map]

/-- **Which texts are hexadecimal.** -/
theorem hexDecode_utf8_iff (s : String) : (∃ r, hexDecode (utf8 s) = .ok r) ↔ HexText s := by
  rw [hexDecode]
  constructor
  · rintro ⟨r, h⟩
    split_ifs at h with heven
    have hval := hexVal_of_hexPairs h
    have hascii : ∀ c ∈ s.toList, c.toNat < 128 := by
      intro c hc
      by_contra hnot
      obtain ⟨b, hb, hhigh⟩ := exists_high_byte hnot
      obtain ⟨j, v, hv⟩ := hval b (by rw [utf8_eq_flatMap]; exact List.mem_flatMap.mpr ⟨c, hc, hb⟩)
      unfold hexVal at hv
      split_ifs at hv <;> omega
    rw [utf8_of_ascii hascii] at heven hval
    refine ⟨by rwa [List.length_map] at heven, fun c hc => ?_⟩
    obtain ⟨j, hv⟩ := hval _ (List.mem_map_of_mem hc)
    exact (hexVal_iff (hascii c hc) j).mp hv
  · rintro ⟨heven, hdigits⟩
    have hascii : ∀ c ∈ s.toList, c.toNat < 128 := fun c hc => ascii_of_isHexDigit (hdigits c hc)
    rw [utf8_of_ascii hascii, if_pos (by rwa [List.length_map])]
    refine hexPairs_ok (fun b hb j => ?_) (by rwa [List.length_map])
    obtain ⟨c, hc, rfl⟩ := List.mem_map.mp hb
    exact (hexVal_iff (hascii c hc) j).mpr (hdigits c hc)

/-! ## Base64 -/

/-- A symbol of the standard alphabet. -/
def symbol (v : ℕ) : Char :=
  if v < 26 then Char.ofNat (65 + v)
  else if v < 52 then Char.ofNat (71 + v)
  else if v < 62 then Char.ofNat (v - 4)
  else if v = 62 then '+'
  else '/'

/-- The symbols of bytes, padded. -/
def base64Symbols : List UInt8 → List Char
  | [] => []
  | [a] => [symbol (a.toNat / 4), symbol (a.toNat % 4 * 16), '=', '=']
  | [a, b] => [symbol (a.toNat / 4), symbol (a.toNat % 4 * 16 + b.toNat / 16), symbol (b.toNat % 16 * 4), '=']
  | a :: b :: c :: r =>
    symbol (a.toNat / 4) :: symbol (a.toNat % 4 * 16 + b.toNat / 16) ::
      symbol (b.toNat % 16 * 4 + c.toNat / 64) :: symbol (c.toNat % 64) :: base64Symbols r

/-- The standard alphabet with padding. -/
def base64Encode (bs : List UInt8) : String := String.ofList (base64Symbols bs)

theorem sextet_symbol {v : ℕ} (h : v < 64) : sextet (Char.toUInt8 (symbol v)) = some v := by
  have hall : ∀ v : Fin 64, sextet (Char.toUInt8 (symbol v)) = some (v : ℕ) := by decide
  exact hall ⟨v, h⟩

theorem symbol_ascii {v : ℕ} (h : v < 64) : (symbol v).toNat < 128 := by
  have hall : ∀ v : Fin 64, (symbol v).toNat < 128 := by decide
  exact hall ⟨v, h⟩

theorem mem_base64Symbols {bs : List UInt8} {c : Char} (h : c ∈ base64Symbols bs) : c.toNat < 128 := by
  induction bs using base64Symbols.induct with
  | case1 => cases h
  | case2 a =>
    have ha := a.toNat_lt
    simp only [base64Symbols, List.mem_cons, List.not_mem_nil, or_false] at h
    rcases h with rfl | rfl | rfl | rfl
    · exact symbol_ascii (by omega)
    · exact symbol_ascii (by omega)
    · decide
    · decide
  | case3 a b =>
    have ha := a.toNat_lt
    have hb := b.toNat_lt
    simp only [base64Symbols, List.mem_cons, List.not_mem_nil, or_false] at h
    rcases h with rfl | rfl | rfl | rfl
    · exact symbol_ascii (by omega)
    · exact symbol_ascii (by omega)
    · exact symbol_ascii (by omega)
    · decide
  | case4 a b c r ih =>
    have ha := a.toNat_lt
    have hb := b.toNat_lt
    have hc := c.toNat_lt
    simp only [base64Symbols, List.mem_cons] at h
    rcases h with rfl | rfl | rfl | rfl | h
    · exact symbol_ascii (by omega)
    · exact symbol_ascii (by omega)
    · exact symbol_ascii (by omega)
    · exact symbol_ascii (by omega)
    · exact ih h

/-- Four symbols in front, the last of which is no padding. -/
theorem base64Decode_cons {a b c d : UInt8} {x y z w : ℕ} (ha : sextet a = some x) (hb : sextet b = some y)
    (hc : sextet c = some z) (hd : sextet d = some w) (r : List UInt8) :
    base64Decode (a :: b :: c :: d :: r) = (base64Decode r).map fun rest =>
      .ofNat (x * 4 + y / 16) :: .ofNat (y % 16 * 16 + z / 4) :: .ofNat (z % 4 * 64 + w) :: rest := by
  have hpad : d ≠ 61 := by
    rintro rfl
    cases hd
  cases r with
  | nil =>
    simp only [base64Decode, base64Last, ha, hb, hc, hd, Option.bind_eq_bind, Option.bind_some, if_neg hpad]
    rfl
  | cons e r =>
    rw [base64Decode, ha, hb, hc, hd]
    · simp only [Option.bind_eq_bind, Option.bind_some]
      cases base64Decode (e :: r) <;> rfl
    · simp

/-- **Base64 round trips.** -/
theorem base64Decode_base64Encode (bs : List UInt8) : base64Decode (utf8 (base64Encode bs)) = some bs := by
  rw [base64Encode, utf8_ofList fun c hc => mem_base64Symbols hc]
  induction bs using base64Symbols.induct with
  | case1 => rfl
  | case2 a =>
    have ha := a.toNat_lt
    have h1 : a.toNat % 4 * 16 % 16 = 0 := by omega
    have hpad : Char.toUInt8 '=' = 61 := by decide
    simp only [base64Symbols, List.map_cons, List.map_nil, base64Decode, base64Last, hpad]
    rw [sextet_symbol (by omega), sextet_symbol (by omega)]
    simp only [Option.bind_eq_bind, Option.bind_some, if_pos h1, if_true]
    rw [ofNat_of_eq (a := a) (by omega)]
    rfl
  | case3 a b =>
    have ha := a.toNat_lt
    have hb := b.toNat_lt
    have h1 : b.toNat % 16 * 4 % 4 = 0 := by omega
    have hpad : Char.toUInt8 '=' = 61 := by decide
    have hne : Char.toUInt8 (symbol (b.toNat % 16 * 4)) ≠ 61 := by
      intro h
      have hsym := sextet_symbol (v := b.toNat % 16 * 4) (by omega)
      rw [h] at hsym
      cases hsym
    simp only [base64Symbols, List.map_cons, List.map_nil, base64Decode, base64Last, hpad]
    rw [sextet_symbol (by omega), sextet_symbol (by omega), sextet_symbol (by omega)]
    simp only [Option.bind_eq_bind, Option.bind_some, if_pos h1, if_true, if_neg hne]
    rw [ofNat_of_eq (a := a) (by omega), ofNat_of_eq (a := b) (by omega)]
    rfl
  | case4 a b c r ih =>
    have ha := a.toNat_lt
    have hb := b.toNat_lt
    have hc := c.toNat_lt
    simp only [base64Symbols, List.map_cons]
    rw [base64Decode_cons (sextet_symbol (by omega)) (sextet_symbol (by omega)) (sextet_symbol (by omega))
      (sextet_symbol (by omega)), ih, Option.map_some]
    rw [ofNat_of_eq (a := a) (by omega), ofNat_of_eq (a := b) (by omega), ofNat_of_eq (a := c) (by omega)]

/-- **A multiple of four symbols decodes**, to three bytes for four of them. -/
theorem base64Decode_symbols (k : ℕ) {bs : List UInt8} (hlen : bs.length = 4 * k)
    (h : ∀ b ∈ bs, ∃ v, sextet b = some v) : ∃ r, base64Decode bs = some r ∧ r.length = 3 * k := by
  induction k generalizing bs with
  | zero =>
    obtain rfl : bs = [] := List.length_eq_zero_iff.mp hlen
    exact ⟨[], rfl, rfl⟩
  | succ k ih => match bs, hlen, h with
    | a :: b :: c :: d :: r, hlen, h =>
      obtain ⟨x, ha⟩ := h a (by simp)
      obtain ⟨y, hb⟩ := h b (by simp)
      obtain ⟨z, hc⟩ := h c (by simp)
      obtain ⟨w, hd⟩ := h d (by simp)
      have hr : r.length = 4 * k := by
        simp only [List.length_cons] at hlen
        omega
      obtain ⟨rest, hrest, hl⟩ := ih hr fun e he => h e (by simp [he])
      refine ⟨_, by rw [base64Decode_cons ha hb hc hd, hrest, Option.map_some], ?_⟩
      simp only [List.length_cons, hl]
      omega

/-- The digits of hexadecimal, in either case, are symbols of base64. -/
theorem sextet_of_hexVal {c v : UInt8} {i : ℕ} (h : hexVal c i = .ok v) : ∃ x, sextet c = some x := by
  unfold hexVal at h
  unfold sextet
  split_ifs at h with h1 h2 h3
  · exact ⟨_, if_pos ⟨h1.1, by omega⟩⟩
  · exact ⟨_, by rw [if_neg (by omega), if_pos ⟨h2.1, by omega⟩]⟩
  · exact ⟨_, by rw [if_neg (by omega), if_neg (by omega), if_pos h3]⟩

/-- **A hexadecimal text of an even number of bytes is base64**, of half as many bytes again. -/
theorem base64Decode_of_hexDecode (k : ℕ) {bs r : List UInt8} (h : hexDecode bs = .ok r) (hlen : r.length = 2 * k) :
    ∃ r', base64Decode bs = some r' ∧ r'.length = 3 * k := by
  refine base64Decode_symbols k ?_ fun b hb => ?_
  · rw [hexDecode_length h, hlen]
    omega
  · rw [hexDecode] at h
    split_ifs at h
    obtain ⟨i, v, hv⟩ := hexVal_of_hexPairs h b hb
    exact sextet_of_hexVal hv

end Encoding
