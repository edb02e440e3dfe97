import Mathlib

/-!
# Hexadecimal and base64 text

Decoders that work on the bytes of a text, with the errors of the usual hexadecimal decoder.

* `utf8`, `fromUtf8`: the bytes of a string, and the string of its bytes; **`fromUtf8_utf8`**, `utf8_eq_flatMap`;
* `hexDecode`, `HexError`, and **`hexDecode_length`**: two digits make one byte;
* `base64Decode`: the standard alphabet with mandatory padding and no stray bits;
* `base64UrlEncode`, `base64UrlDecode`: the URL-safe alphabet without padding; **`base64UrlDecode_encode`**,
  **`base64UrlEncode_decode`**;
* `beBytes`, `ofBe`: numbers in big-endian order, and **`ofBe_beBytes`**, **`beBytes_ofBe`**;
* `padTo`: zeros appended up to a length, as fixed-size fields are filled.
-/

set_option autoImplicit false

namespace Encoding

/-- The UTF-8 bytes of a string. -/
def utf8 (s : String) : List UInt8 := s.toUTF8.data.toList

/-- The string of its UTF-8 bytes. -/
def fromUtf8 (bs : List UInt8) : Option String := String.fromUTF8? ⟨bs.toArray⟩

/-- **Text round trips.** -/
@[simp] theorem fromUtf8_utf8 (s : String) : fromUtf8 (utf8 s) = some s := by
  have hbytes : (⟨(utf8 s).toArray⟩ : ByteArray) = s.toUTF8 := rfl
  rw [fromUtf8, hbytes, String.fromUTF8?]
  exact dif_pos s.isValidUTF8

/-- What was decoded has the bytes that it was decoded from. -/
theorem utf8_of_fromUtf8 {bs : List UInt8} {s : String} (h : fromUtf8 bs = some s) : utf8 s = bs := by
  rw [fromUtf8, String.fromUTF8?] at h
  split_ifs at h with hv
  obtain rfl := Option.some.inj h
  rfl

/-- The bytes of a text are those of its characters. -/
theorem utf8_eq_flatMap (s : String) : utf8 s = s.toList.flatMap String.utf8EncodeChar := by
  have h : s.toList.utf8Encode = s.toUTF8 := String.utf8Encode_toList
  rw [utf8, ← h]
  simp [List.utf8Encode]

/-! ## Hexadecimal -/

/-- Two lower-case digits for each byte. -/
def hexEncode (bs : List UInt8) : String :=
  String.ofList (bs.flatMap fun b => [Nat.digitChar (b.toNat / 16), Nat.digitChar (b.toNat % 16)])

inductive HexError where
  | oddLength
  | invalidHexCharacter (c : Char) (index : ℕ)
deriving DecidableEq

/-- A byte read as the character with that code, as a quoted character literal. -/
def charDebug (c : Char) : String :=
  let n := c.toNat
  let body := if n = 0 then "\\0" else if n = 9 then "\\t" else if n = 10 then "\\n"
    else if n = 13 then "\\r" else if n = 39 then "\\'" else if n = 92 then "\\\\"
    else if n < 32 ∨ 127 ≤ n ∧ n ≤ 160 ∨ n = 173 then
      "\\u\x7b" ++ String.ofList (Nat.toDigits 16 n) ++ "\x7d"
    else String.ofList [c]
  "'" ++ body ++ "'"

def HexError.display : HexError → String
  | .oddLength => "Odd number of digits"
  | .invalidHexCharacter c index =>
    "Invalid character " ++ charDebug c ++ " at position " ++ toString index

/-- The value of one digit at position `index`. -/
def hexVal (c : UInt8) (index : ℕ) : Except HexError UInt8 :=
  if 65 ≤ c.toNat ∧ c.toNat ≤ 70 then .ok (c - 55)
  else if 97 ≤ c.toNat ∧ c.toNat ≤ 102 then .ok (c - 87)
  else if 48 ≤ c.toNat ∧ c.toNat ≤ 57 then .ok (c - 48)
  else .error (.invalidHexCharacter (Char.ofNat c.toNat) index)

/-- The pairs of digits from pair number `i` on. -/
def hexPairs : ℕ → List UInt8 → Except HexError (List UInt8)
  | _, [] => .ok []
  | _, [_] => .error .oddLength
  | i, a :: b :: r => do
    let hi ← hexVal a (2 * i)
    let lo ← hexVal b (2 * i + 1)
    let rest ← hexPairs (i + 1) r
    return (hi <<< 4 ||| lo) :: rest

def hexDecode (bs : List UInt8) : Except HexError (List UInt8) :=
  if bs.length % 2 = 0 then hexPairs 0 bs else .error .oddLength

theorem hexPairs_length {i : ℕ} {bs r : List UInt8} (h : hexPairs i bs = .ok r) :
    bs.length = 2 * r.length := by
  induction bs using List.twoStepInduction generalizing i r with
  | nil =>
    obtain rfl := Except.ok.inj h
    rfl
  | singleton a => cases h
  | cons_cons a b bs ih _ =>
    simp only [hexPairs, bind, Except.bind] at h
    cases ha : hexVal a (2 * i) with
    | error e => simp only [ha] at h; cases h
    | ok hi =>
      cases hb : hexVal b (2 * i + 1) with
      | error e => simp only [ha, hb] at h; cases h
      | ok lo =>
        cases hr : hexPairs (i + 1) bs with
        | error e => simp only [ha, hb, hr] at h; cases h
        | ok rest =>
          simp only [ha, hb, hr] at h
          obtain rfl := Except.ok.inj h
          rw [List.length_cons, List.length_cons, List.length_cons, ih hr]
          ring

/-- **A decoded text has half as many bytes as digits.** -/
theorem hexDecode_length {bs r : List UInt8} (h : hexDecode bs = .ok r) :
    bs.length = 2 * r.length := by
  unfold hexDecode at h
  split_ifs at h
  exact hexPairs_length h

/-! ## Base64 -/

/-- The value of a symbol of the standard alphabet. -/
def sextet (c : UInt8) : Option ℕ :=
  let n := c.toNat
  if 65 ≤ n ∧ n ≤ 90 then some (n - 65)
  else if 97 ≤ n ∧ n ≤ 122 then some (n - 71)
  else if 48 ≤ n ∧ n ≤ 57 then some (n + 4)
  else if n = 43 then some 62
  else if n = 47 then some 63
  else none

/-- The last four symbols, of which the padding `=` may fill one or two. -/
def base64Last (a b c d : UInt8) : Option (List UInt8) := do
  let x ← sextet a
  let y ← sextet b
  if d = 61 then
    if c = 61 then
      if y % 16 = 0 then return [.ofNat (x * 4 + y / 16)] else none
    else
      let z ← sextet c
      if z % 4 = 0 then return [.ofNat (x * 4 + y / 16), .ofNat (y % 16 * 16 + z / 4)] else none
  else
    let z ← sextet c
    let w ← sextet d
    return [.ofNat (x * 4 + y / 16), .ofNat (y % 16 * 16 + z / 4), .ofNat (z % 4 * 64 + w)]

/-- The standard alphabet, padded, without stray bits in the last symbol. -/
def base64Decode : List UInt8 → Option (List UInt8)
  | [] => some []
  | [a, b, c, d] => base64Last a b c d
  | a :: b :: c :: d :: r => do
    let x ← sextet a
    let y ← sextet b
    let z ← sextet c
    let w ← sextet d
    let rest ← base64Decode r
    return .ofNat (x * 4 + y / 16) :: .ofNat (y % 16 * 16 + z / 4) :: .ofNat (z % 4 * 64 + w) :: rest
  | _ => none

/-- A symbol of the URL-safe alphabet. -/
def urlSymbol (v : ℕ) : Char :=
  if v < 26 then Char.ofNat (65 + v)
  else if v < 52 then Char.ofNat (71 + v)
  else if v < 62 then Char.ofNat (v - 4)
  else if v = 62 then '-'
  else '_'

/-- The URL-safe alphabet without padding. -/
def base64UrlEncode : List UInt8 → List Char
  | [] => []
  | [a] => [urlSymbol (a.toNat / 4), urlSymbol (a.toNat % 4 * 16)]
  | [a, b] => [urlSymbol (a.toNat / 4), urlSymbol (a.toNat % 4 * 16 + b.toNat / 16),
      urlSymbol (b.toNat % 16 * 4)]
  | a :: b :: c :: r =>
    urlSymbol (a.toNat / 4) :: urlSymbol (a.toNat % 4 * 16 + b.toNat / 16) ::
      urlSymbol (b.toNat % 16 * 4 + c.toNat / 64) :: urlSymbol (c.toNat % 64) :: base64UrlEncode r

/-- The value of a symbol of the URL-safe alphabet. -/
def urlSextet (c : Char) : Option ℕ :=
  let n := c.toNat
  if 65 ≤ n ∧ n ≤ 90 then some (n - 65)
  else if 97 ≤ n ∧ n ≤ 122 then some (n - 71)
  else if 48 ≤ n ∧ n ≤ 57 then some (n + 4)
  else if n = 45 then some 62
  else if n = 95 then some 63
  else none

/-- The URL-safe alphabet without padding and without stray bits in the last symbol. -/
def base64UrlDecode : List Char → Option (List UInt8)
  | [] => some []
  | [_] => none
  | [a, b] => do
    let x ← urlSextet a
    let y ← urlSextet b
    if y % 16 = 0 then return [.ofNat (x * 4 + y / 16)] else none
  | [a, b, c] => do
    let x ← urlSextet a
    let y ← urlSextet b
    let z ← urlSextet c
    if z % 4 = 0 then return [.ofNat (x * 4 + y / 16), .ofNat (y % 16 * 16 + z / 4)] else none
  | a :: b :: c :: d :: r => do
    let x ← urlSextet a
    let y ← urlSextet b
    let z ← urlSextet c
    let w ← urlSextet d
    let rest ← base64UrlDecode r
    return .ofNat (x * 4 + y / 16) :: .ofNat (y % 16 * 16 + z / 4) :: .ofNat (z % 4 * 64 + w) :: rest

theorem urlSextet_urlSymbol {v : ℕ} (h : v < 64) : urlSextet (urlSymbol v) = some v := by
  have hall : ∀ v : Fin 64, urlSextet (urlSymbol v) = some (v : ℕ) := by decide
  exact hall ⟨v, h⟩

theorem mem_base64UrlEncode {bs : List UInt8} {c : Char} (h : c ∈ base64UrlEncode bs) :
    ∃ v < 64, c = urlSymbol v := by
  induction bs using base64UrlEncode.induct with
  | case1 => cases h
  | case2 a =>
    have ha := a.toNat_lt
    simp only [base64UrlEncode, List.mem_cons, List.not_mem_nil, or_false] at h
    rcases h with rfl | rfl
    · exact ⟨_, by omega, rfl⟩
    · exact ⟨_, by omega, rfl⟩
  | case3 a b =>
    have ha := a.toNat_lt
    have hb := b.toNat_lt
    simp only [base64UrlEncode, List.mem_cons, List.not_mem_nil, or_false] at h
    rcases h with rfl | rfl | rfl
    · exact ⟨_, by omega, rfl⟩
    · exact ⟨_, by omega, rfl⟩
    · exact ⟨_, by omega, rfl⟩
  | case4 a b c r ih =>
    have ha := a.toNat_lt
    have hb := b.toNat_lt
    have hc := c.toNat_lt
    simp only [base64UrlEncode, List.mem_cons] at h
    rcases h with rfl | rfl | rfl | rfl | h
    · exact ⟨_, by omega, rfl⟩
    · exact ⟨_, by omega, rfl⟩
    · exact ⟨_, by omega, rfl⟩
    · exact ⟨_, by omega, rfl⟩
    · exact ih h

/-- A byte from the numbers that its bits make. -/
theorem ofNat_of_eq {n : ℕ} {a : UInt8} (h : n = a.toNat) : UInt8.ofNat n = a := by
  rw [h, UInt8.ofNat_toNat]

/-- **Decoding inverts encoding.** -/
theorem base64UrlDecode_encode (bs : List UInt8) : base64UrlDecode (base64UrlEncode bs) = some bs := by
  induction bs using base64UrlEncode.induct with
  | case1 => rfl
  | case2 a =>
    have ha := a.toNat_lt
    have h1 : a.toNat % 4 * 16 % 16 = 0 := by omega
    rw [base64UrlEncode, base64UrlDecode, urlSextet_urlSymbol (by omega), urlSextet_urlSymbol (by omega)]
    simp only [Option.bind_eq_bind, Option.bind_some, if_pos h1]
    rw [ofNat_of_eq (a := a) (by omega)]
    rfl
  | case3 a b =>
    have ha := a.toNat_lt
    have hb := b.toNat_lt
    have h1 : b.toNat % 16 * 4 % 4 = 0 := by omega
    rw [base64UrlEncode, base64UrlDecode, urlSextet_urlSymbol (by omega), urlSextet_urlSymbol (by omega),
      urlSextet_urlSymbol (by omega)]
    simp only [Option.bind_eq_bind, Option.bind_some, if_pos h1]
    rw [ofNat_of_eq (a := a) (by omega), ofNat_of_eq (a := b) (by omega)]
    rfl
  | case4 a b c r ih =>
    have ha := a.toNat_lt
    have hb := b.toNat_lt
    have hc := c.toNat_lt
    rw [base64UrlEncode, base64UrlDecode, urlSextet_urlSymbol (by omega), urlSextet_urlSymbol (by omega),
      urlSextet_urlSymbol (by omega), urlSextet_urlSymbol (by omega), ih]
    simp only [Option.bind_eq_bind, Option.bind_some]
    rw [ofNat_of_eq (a := a) (by omega), ofNat_of_eq (a := b) (by omega), ofNat_of_eq (a := c) (by omega)]
    rfl

theorem urlSymbol_urlSextet {c : Char} {v : ℕ} (h : urlSextet c = some v) : v < 64 ∧ urlSymbol v = c := by
  have hchar : ∀ n, n = c.toNat → Char.ofNat n = c := fun n hn => hn ▸ Char.ofNat_toNat c
  simp only [urlSextet] at h
  split_ifs at h with h1 h2 h3 h4 h5
  · obtain rfl := Option.some.inj h
    refine ⟨by omega, ?_⟩
    rw [urlSymbol, if_pos (by omega)]
    exact hchar _ (by omega)
  · obtain rfl := Option.some.inj h
    refine ⟨by omega, ?_⟩
    rw [urlSymbol, if_neg (by omega), if_pos (by omega)]
    exact hchar _ (by omega)
  · obtain rfl := Option.some.inj h
    refine ⟨by omega, ?_⟩
    rw [urlSymbol, if_neg (by omega), if_neg (by omega), if_pos (by omega)]
    exact hchar _ (by omega)
  · obtain rfl := Option.some.inj h
    exact ⟨by omega, hchar 45 h4.symm⟩
  · obtain rfl := Option.some.inj h
    exact ⟨by omega, hchar 95 h5.symm⟩

/-- A symbol from the numbers that its bits make. -/
theorem urlSymbol_of_eq {c : Char} {n v : ℕ} (h : urlSextet c = some v) (hn : n = v) : urlSymbol n = c :=
  hn ▸ (urlSymbol_urlSextet h).2

/-- **Encoding inverts decoding**: no two texts decode to the same bytes. -/
theorem base64UrlEncode_decode {cs : List Char} {bs : List UInt8} (h : base64UrlDecode cs = some bs) :
    base64UrlEncode bs = cs := by
  have hbyte : ∀ n : ℕ, n < 256 → (UInt8.ofNat n).toNat = n := fun n hn => UInt8.toNat_ofNat_of_lt' hn
  induction cs using base64UrlDecode.induct generalizing bs with
  | case1 =>
    obtain rfl := Option.some.inj h
    rfl
  | case2 _ => cases h
  | case3 a b =>
    simp only [base64UrlDecode, Option.bind_eq_bind, Option.bind_eq_some_iff] at h
    obtain ⟨x, hx, y, hy, h⟩ := h
    have hx' := (urlSymbol_urlSextet hx).1
    have hy' := (urlSymbol_urlSextet hy).1
    split_ifs at h with hspare
    obtain rfl := Option.some.inj h
    rw [base64UrlEncode, hbyte _ (by omega), urlSymbol_of_eq hx (by omega), urlSymbol_of_eq hy (by omega)]
  | case4 a b c =>
    simp only [base64UrlDecode, Option.bind_eq_bind, Option.bind_eq_some_iff] at h
    obtain ⟨x, hx, y, hy, z, hz, h⟩ := h
    have hx' := (urlSymbol_urlSextet hx).1
    have hy' := (urlSymbol_urlSextet hy).1
    have hz' := (urlSymbol_urlSextet hz).1
    split_ifs at h with hspare
    obtain rfl := Option.some.inj h
    rw [base64UrlEncode, hbyte _ (by omega), hbyte _ (by omega), urlSymbol_of_eq hx (by omega),
      urlSymbol_of_eq hy (by omega), urlSymbol_of_eq hz (by omega)]
  | case5 a b c d r ih =>
    simp only [base64UrlDecode, Option.bind_eq_bind, Option.bind_eq_some_iff] at h
    obtain ⟨x, hx, y, hy, z, hz, w, hw, rest, hrest, h⟩ := h
    have hx' := (urlSymbol_urlSextet hx).1
    have hy' := (urlSymbol_urlSextet hy).1
    have hz' := (urlSymbol_urlSextet hz).1
    have hw' := (urlSymbol_urlSextet hw).1
    obtain rfl := Option.some.inj h
    rw [base64UrlEncode, hbyte _ (by omega), hbyte _ (by omega), hbyte _ (by omega), urlSymbol_of_eq hx (by omega),
      urlSymbol_of_eq hy (by omega), urlSymbol_of_eq hz (by omega), urlSymbol_of_eq hw (by omega), ih hrest]

/-! ## Numbers -/

/-- The last `k` bytes of a number in big-endian order. -/
def beBytes : ℕ → ℕ → List UInt8
  | 0, _ => []
  | k + 1, n => UInt8.ofNat (n / 256 ^ k) :: beBytes k n

/-- The number of bytes in big-endian order. -/
def ofBe (bs : List UInt8) : ℕ := bs.foldl (fun n b => n * 256 + b.toNat) 0

@[simp] theorem beBytes_length (k n : ℕ) : (beBytes k n).length = k := by
  induction k with
  | zero => rfl
  | succ k ih => rw [beBytes, List.length_cons, ih]

theorem ofBe_cons (b : UInt8) (bs : List UInt8) : ofBe (b :: bs) = b.toNat * 256 ^ bs.length + ofBe bs := by
  have hgen : ∀ (bs : List UInt8) (m : ℕ),
      bs.foldl (fun n b => n * 256 + b.toNat) m = m * 256 ^ bs.length + ofBe bs := by
    intro bs
    induction bs with
    | nil => simp [ofBe]
    | cons c bs ih =>
      intro m
      rw [ofBe, List.foldl_cons, List.foldl_cons, ih, ih (0 * 256 + c.toNat), List.length_cons, pow_succ]
      ring
  rw [ofBe, List.foldl_cons, hgen]
  simp

/-- **Numbers round trip**, up to what the bytes hold. -/
theorem ofBe_beBytes (k n : ℕ) : ofBe (beBytes k n) = n % 256 ^ k := by
  induction k with
  | zero => simp [beBytes, ofBe, Nat.mod_one]
  | succ k ih =>
    have hbyte : (UInt8.ofNat (n / 256 ^ k)).toNat = n / 256 ^ k % 256 := UInt8.toNat_ofNat'
    rw [beBytes, ofBe_cons, ih, beBytes_length, hbyte, Nat.mod_pow_succ]
    ring

theorem ofBe_lt (bs : List UInt8) : ofBe bs < 256 ^ bs.length := by
  induction bs with
  | nil => exact Nat.one_pos
  | cons b bs ih =>
    rw [ofBe_cons, List.length_cons, pow_succ]
    have := b.toNat_lt
    nlinarith

/-- Only the last bytes count. -/
theorem beBytes_add (k m n : ℕ) : beBytes k (m * 256 ^ k + n) = beBytes k n := by
  induction k generalizing m with
  | zero => rfl
  | succ k ih =>
    have hpow : m * 256 ^ (k + 1) = m * 256 * 256 ^ k := by rw [pow_succ]; ring
    have hdiv : (m * 256 * 256 ^ k + n) / 256 ^ k = m * 256 + n / 256 ^ k := by
      rw [add_comm, Nat.add_mul_div_right _ _ (by positivity), add_comm]
    rw [beBytes, beBytes, hpow, hdiv, ih]
    refine congrArg (· :: _) (UInt8.toNat_inj.mp ?_)
    rw [UInt8.toNat_ofNat', UInt8.toNat_ofNat']
    omega

/-- **Bytes round trip** through the number that they make. -/
theorem beBytes_ofBe (bs : List UInt8) : beBytes bs.length (ofBe bs) = bs := by
  induction bs with
  | nil => rfl
  | cons b bs ih =>
    have hdiv : (b.toNat * 256 ^ bs.length + ofBe bs) / 256 ^ bs.length = b.toNat := by
      rw [add_comm, Nat.add_mul_div_right _ _ (by positivity), Nat.div_eq_of_lt (ofBe_lt bs), Nat.zero_add]
    rw [ofBe_cons, List.length_cons, beBytes, hdiv, beBytes_add, ih, UInt8.ofNat_toNat]

/-! ## Fixed-size fields -/

/-- `bs` with zeros appended up to length `n`. -/
def padTo (n : ℕ) (bs : List UInt8) : List UInt8 := bs ++ List.replicate (n - bs.length) 0

theorem padTo_length {n : ℕ} {bs : List UInt8} (h : bs.length ≤ n) : (padTo n bs).length = n := by
  rw [padTo, List.length_append, List.length_replicate]
  omega

theorem padTo_of_length {n : ℕ} {bs : List UInt8} (h : bs.length = n) : padTo n bs = bs := by
  rw [padTo, h, Nat.sub_self, List.replicate_zero, List.append_nil]

end Encoding
