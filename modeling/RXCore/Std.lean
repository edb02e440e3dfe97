import Mathlib

/-!
# Integers and strings of the standard library

* `asI64`, `asU64`: the casts between machine integers, which wrap; `asI64_eq_neg_one`;
* `ratAsI64`: the cast of a float, here an exact rational, which truncates and saturates;
* `u16`, `u16Bytes`: two bytes in big-endian order; `u16_ofNat`;
* `slice`, `u16At`, `portAt`: parts of a buffer by their offsets; `slice_append`, `u16At_append`;
* `trim`, `endsWith`, `splitAt`: string functions, on characters.
-/

set_option autoImplicit false

namespace RXCore

/-! ## Integers -/

/-- `as i64`, and the result of a wrapping operation on `i64`. -/
def asI64 (n : ℤ) : ℤ := Int.bmod n (2 ^ 64)

/-- `as u64`. -/
def asU64 (n : ℤ) : ℕ := (n % 2 ^ 64).toNat

/-- The largest `i64`. -/
def i64Max : ℤ := 2 ^ 63 - 1

/-- The smallest `i64`. -/
def i64Min : ℤ := -2 ^ 63

/-- `as i64` of a float: truncated towards zero, saturating at the bounds. -/
def ratAsI64 (q : ℚ) : ℤ := max i64Min (min i64Max (if 0 ≤ q then ⌊q⌋ else ⌈q⌉))

/-- `u16::from_be_bytes`. -/
def u16 (a b : UInt8) : ℕ := a.toNat * 256 + b.toNat

/-- `to_be_bytes` after `as u16`. -/
def u16Bytes (n : ℕ) : List UInt8 := [UInt8.ofNat (n / 256), UInt8.ofNat n]

@[simp] theorem u16Bytes_length (n : ℕ) : (u16Bytes n).length = 2 := rfl

theorem u16_lt (a b : UInt8) : u16 a b < 65536 := by
  have ha := a.toNat_lt
  have hb := b.toNat_lt
  unfold u16
  omega

/-- Two bytes hold a number up to 16 bits. -/
theorem u16_ofNat (n : ℕ) : u16 (UInt8.ofNat (n / 256)) (UInt8.ofNat n) = n % 65536 := by
  simp only [u16, UInt8.toNat_ofNat']
  omega

theorem asI64_of_range {n : ℤ} (h1 : -2 ^ 63 ≤ n) (h2 : n < 2 ^ 63) : asI64 n = n := by
  rw [asI64, Int.bmod_def]
  omega

theorem asI64_natCast {n : ℕ} (h : n < 2 ^ 63) : asI64 n = n :=
  asI64_of_range (by omega) (by omega)

/-- A sum or difference of two `i64` wraps to `-1` only by being `-1`. -/
theorem asI64_eq_neg_one {n : ℤ} (h1 : -2 ^ 64 ≤ n) (h2 : n < 2 ^ 64 - 1) : asI64 n = -1 ↔ n = -1 := by
  rw [asI64, Int.bmod_def]
  omega

theorem asI64_range (n : ℤ) : i64Min ≤ asI64 n ∧ asI64 n ≤ i64Max := by
  rw [asI64, Int.bmod_def, i64Min, i64Max]
  omega

theorem ratAsI64_range (q : ℚ) : i64Min ≤ ratAsI64 q ∧ ratAsI64 q ≤ i64Max :=
  ⟨le_max_left _ _, max_le (by decide) (min_le_left _ _)⟩

theorem ratAsI64_intCast {n : ℤ} (h1 : i64Min ≤ n) (h2 : n ≤ i64Max) : ratAsI64 n = n := by
  rw [ratAsI64]
  split_ifs
  · rw [Int.floor_intCast, min_eq_right h2, max_eq_right h1]
  · rw [Int.ceil_intCast, min_eq_right h2, max_eq_right h1]

/-! ## Buffers -/

def slice (bs : List UInt8) (start len : ℕ) : List UInt8 := (bs.drop start).take len

/-- The big-endian number at an offset. -/
def u16At (bs : List UInt8) (i : ℕ) : ℕ := u16 (bs.getD i 0) (bs.getD (i + 1) 0)

def portAt (bs : List UInt8) (i : ℕ) : UInt16 := .ofNat (u16At bs i)

/-- The number at the place where it was written. -/
theorem u16At_append (pre post : List UInt8) (n : ℕ) :
    u16At (pre ++ u16Bytes n ++ post) pre.length = n % 65536 := by
  simp [u16At, u16Bytes, u16_ofNat]

theorem portAt_append (pre post : List UInt8) (port : UInt16) :
    portAt (pre ++ u16Bytes port.toNat ++ post) pre.length = port := by
  rw [portAt, u16At_append, Nat.mod_eq_of_lt port.toNat_lt, UInt16.ofNat_toNat]

theorem slice_append (pre mid post : List UInt8) :
    slice (pre ++ mid ++ post) pre.length mid.length = mid := by
  simp [slice]

/-! ## Results -/

/-- `if .. { return Err(..) }`. -/
def refuseIf {ε : Type} (c : Prop) [Decidable c] (e : ε) : Except ε Unit :=
  if c then .error e else .ok ()

theorem refuseIf_ok {ε : Type} {c : Prop} [Decidable c] {e : ε} :
    refuseIf c e = .ok () ↔ ¬ c := by
  rw [refuseIf]
  split_ifs with h
  · exact ⟨fun h => (by cases h), fun hn => absurd h hn⟩
  · exact ⟨fun _ => h, fun _ => rfl⟩

/-- A sequence of fallible steps succeeds when each of them does. -/
theorem bind_ok {ε α β : Type} {x : Except ε α} {f : α → Except ε β} {b : β} :
    (x >>= f) = .ok b ↔ ∃ a, x = .ok a ∧ f a = .ok b := by
  cases x with
  | error e => exact ⟨fun h => (by cases h), fun ⟨_, h, _⟩ => (by cases h)⟩
  | ok a => exact ⟨fun h => ⟨a, rfl, h⟩, fun ⟨_, ha, h⟩ => (by cases ha; exact h)⟩

/-- What is done to the result of a sequence is done to the result of its last step. -/
theorem map_bind_result {ε α β γ : Type} (x : Except ε α) (f : α → Except ε β) (g : β → γ) :
    (x >>= f).map g = x >>= fun a => (f a).map g := by
  cases x with
  | error e => rfl
  | ok a => rfl

/-- The results of a fallible map are the results of its elements. -/
theorem mem_of_mapM_ok {ε α β : Type} {f : α → Except ε β} {l : List α} {r : List β}
    (h : l.mapM f = .ok r) (b : β) : b ∈ r ↔ ∃ a ∈ l, f a = .ok b := by
  induction l generalizing r with
  | nil =>
    rw [List.mapM_nil] at h
    obtain rfl := Except.ok.inj h
    simp
  | cons a l ih =>
    rw [List.mapM_cons] at h
    obtain ⟨c, hc, h⟩ := bind_ok.mp h
    obtain ⟨cs, hcs, h⟩ := bind_ok.mp h
    obtain rfl := Except.ok.inj h
    rw [List.mem_cons, ih hcs, List.exists_mem_cons_iff, hc, Except.ok.injEq, eq_comm]

/-! ## Strings -/

/-- `char::is_whitespace`: the Unicode property White_Space. -/
def isWhitespace (c : Char) : Bool :=
  let n := c.toNat
  (9 ≤ n && n ≤ 13) || n == 32 || n == 0x85 || n == 0xa0 || n == 0x1680 ||
    (0x2000 ≤ n && n ≤ 0x200a) || n == 0x2028 || n == 0x2029 || n == 0x202f || n == 0x205f ||
      n == 0x3000

def trimList (s : List Char) : List Char :=
  ((s.dropWhile isWhitespace).reverse.dropWhile isWhitespace).reverse

theorem trimList_eq {s : List Char} (h : ∀ c ∈ s, isWhitespace c = false) : trimList s = s := by
  have hdrop : ∀ {t : List Char}, (∀ c ∈ t, isWhitespace c = false) → t.dropWhile isWhitespace = t := by
    intro t ht
    cases t with
    | nil => rfl
    | cons c t => rw [List.dropWhile_cons_of_neg (by simp [ht c List.mem_cons_self])]
  rw [trimList, hdrop h, hdrop fun c hc => h c (List.mem_reverse.mp hc), List.reverse_reverse]

/-- `str::trim`. -/
def trim (s : String) : String := String.ofList (trimList s.toList)

/-- `str::ends_with`. -/
def endsWith (s suffix : String) : Bool := suffix.toList.isSuffixOf s.toList

/-- `str::starts_with`. -/
def startsWith (s pre : String) : Bool := pre.toList.isPrefixOf s.toList

/-- `str::contains`. -/
def contains (s part : String) : Bool := decide (part.toList <:+: s.toList)

/-- `str::eq_ignore_ascii_case`. -/
def eqIgnoreAsciiCase (s t : String) : Bool :=
  s.toList.map Char.toLower == t.toList.map Char.toLower

/-- `str::split` at a character, collected. -/
def splitAt (c : Char) (s : String) : List String := (s.toList.splitOn c).map String.ofList

end RXCore
