import Mathlib

/-!
# Checksums in one's complement

The sum of the 16-bit words of a list of bytes with the carries added back in, and the words that make it come
out as all ones.

* `wordSum`, **`wordSum_append`**: the sum of the words, the last one padded with zeros;
* `fold`, **`fold_eq`**: the carries are added back in until there are none;
* `Verifies`, **`verifies_iff`**; `checksum`;
* **`verifies_checksum`**: a list verifies once the checksum of the rest is put into it;
* `checksum_eq_zero_iff`: the lists whose checksum is zero.
-/

set_option autoImplicit false

namespace OnesComplement

/-- The sum of the words in big-endian order; zeros fill up an odd last byte. -/
def wordSum : List UInt8 → ℕ
  | [] => 0
  | [a] => a.toNat * 256
  | a :: b :: bs => a.toNat * 256 + b.toNat + wordSum bs

/-- The carries are added back in. -/
def fold (n : ℕ) : ℕ := if 0xffff < n then fold (n % 0x10000 + n / 0x10000) else n
termination_by n

/-- The words of a list with its checksum add up to all ones. -/
def Verifies (bs : List UInt8) : Prop := fold (wordSum bs) = 0xffff

/-- The checksum of a list. -/
def checksum (bs : List UInt8) : ℕ := 0xffff - fold (wordSum bs)

variable {as bs : List UInt8}

/-- **Words are summed from an even place on.** -/
theorem wordSum_append (h : 2 ∣ as.length) (bs : List UInt8) : wordSum (as ++ bs) = wordSum as + wordSum bs := by
  induction as using List.twoStepInduction with
  | nil => simp [wordSum]
  | singleton a => simp at h
  | cons_cons a b as ih _ =>
    have hlen : 2 ∣ as.length := by simpa using h
    simp only [List.cons_append, wordSum, ih hlen]
    omega

theorem wordSum_le (bs : List UInt8) : 2 * wordSum bs ≤ 0xffff * (bs.length + 1) := by
  induction bs using List.twoStepInduction with
  | nil => simp [wordSum]
  | singleton a =>
    have ha := a.toNat_lt
    simp only [wordSum, List.length_singleton]
    omega
  | cons_cons a b bs ih _ =>
    have ha := a.toNat_lt
    have hb := b.toNat_lt
    simp only [wordSum, List.length_cons]
    omega

/-- A list with a byte that is not zero. -/
theorem wordSum_pos {b : UInt8} (hb : b ≠ 0) (h : b ∈ bs) : 0 < wordSum bs := by
  have hpos : 0 < b.toNat := Nat.pos_of_ne_zero fun hzero => hb (UInt8.toNat_inj.mp hzero)
  induction bs using List.twoStepInduction with
  | nil => cases h
  | singleton a =>
    obtain rfl := List.mem_singleton.mp h
    simp only [wordSum]
    omega
  | cons_cons a c bs ih _ =>
    simp only [wordSum]
    rcases List.mem_cons.mp h with rfl | h
    · omega
    rcases List.mem_cons.mp h with rfl | h
    · omega
    · have := ih h
      omega

/-- **Adding the carries back in** finds the remainder by 0xffff, with 0xffff itself for the multiples but zero. -/
theorem fold_eq (n : ℕ) : fold n = if n = 0 then 0 else (n - 1) % 0xffff + 1 := by
  induction n using Nat.strong_induction_on with
  | _ n ih =>
    rw [fold]
    split_ifs with hcarry hzero hzero
    · omega
    · rw [ih _ (by omega), if_neg (by omega)]
      omega
    · omega
    · omega

theorem fold_le (n : ℕ) : fold n ≤ 0xffff := by
  rw [fold_eq]
  split_ifs <;> omega

theorem fold_eq_top_iff (n : ℕ) : fold n = 0xffff ↔ 0 < n ∧ 0xffff ∣ n := by
  rw [fold_eq]
  split_ifs with hzero
  · exact ⟨nofun, fun h => absurd hzero h.1.ne'⟩
  · omega

theorem verifies_iff : Verifies bs ↔ 0 < wordSum bs ∧ 0xffff ∣ wordSum bs := fold_eq_top_iff _

theorem checksum_lt (bs : List UInt8) : checksum bs < 0x10000 := by
  rw [checksum]
  omega

/-- **The checksum verifies**: it brings any sum to a multiple of 0xffff that is not zero. -/
theorem fold_add_checksum (bs : List UInt8) : fold (wordSum bs + checksum bs) = 0xffff := by
  have hle := fold_le (wordSum bs)
  have heq := fold_eq (wordSum bs)
  rw [fold_eq_top_iff, checksum]
  split_ifs at heq <;> omega

theorem checksum_eq_zero_iff : checksum bs = 0 ↔ Verifies bs := by
  have hle := fold_le (wordSum bs)
  rw [checksum, Verifies]
  omega

/-- A list has its checksum in it if a word is put where there were zeros. -/
theorem verifies_checksum {pre post : List UInt8} {hi lo : UInt8} (hpre : 2 ∣ pre.length)
    (hword : hi.toNat * 256 + lo.toNat = checksum (pre ++ 0 :: 0 :: post)) : Verifies (pre ++ hi :: lo :: post) := by
  have hzero : wordSum (pre ++ 0 :: 0 :: post) = wordSum pre + wordSum post := by
    rw [wordSum_append hpre]
    simp [wordSum]
  have hfilled : wordSum (pre ++ hi :: lo :: post) =
      wordSum (pre ++ 0 :: 0 :: post) + checksum (pre ++ 0 :: 0 :: post) := by
    rw [← hword, hzero, wordSum_append hpre, wordSum]
    omega
  rw [Verifies, hfilled]
  exact fold_add_checksum _

end OnesComplement
