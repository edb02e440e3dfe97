import Mathlib

/-!
# Form data

Text of the type `application/x-www-form-urlencoded`, as it is written, and texts that are taken apart at
separators.

* `byteSerialize`: one component; `unreserved_of_mem`: the characters it is written in;
* `appendPair`: a name and a value behind the pairs that are there;
* **`splitOn_pieces`**: the pieces between separators.
-/

set_option autoImplicit false

namespace Form

/-! ## Components -/

/-- The bytes that are written as they are. -/
def unchanged (b : UInt8) : Bool :=
  b == 0x2a || b == 0x2d || b == 0x2e || (0x30 ≤ b && b ≤ 0x39) || (0x41 ≤ b && b ≤ 0x5a) || b == 0x5f ||
    (0x61 ≤ b && b ≤ 0x7a)

/-- An upper-case hexadecimal digit. -/
def hexDigit (n : ℕ) : Char := Char.ofNat (if n < 10 then 0x30 + n else 0x37 + n)

/-- How one byte is written: a space as a plus sign, what is reserved as its number. -/
def serializeByte (b : UInt8) : List Char :=
  if unchanged b then [Char.ofNat b.toNat]
  else if b = 0x20 then ['+']
  else ['%', hexDigit (b.toNat / 16), hexDigit (b.toNat % 16)]

def byteSerialize (bs : List UInt8) : List Char := bs.flatMap serializeByte

/-- A name and a value, behind a separator if they are not the first. -/
def appendPair (target : List Char) (name value : List UInt8) : List Char :=
  (if target = [] then [] else target ++ ['&']) ++ (byteSerialize name ++ '=' :: byteSerialize value)

/-- The characters of a component: none of them separates anything in a URL. -/
def Unreserved (c : Char) : Prop := c ∉ ['#', '?', '@', ':', '&', '=', '/']

instance : DecidablePred Unreserved := fun c => inferInstanceAs (Decidable (c ∉ _))

theorem unreserved_hexDigit : ∀ n < 16, Unreserved (hexDigit n) := by decide

/-- What is written as it is stands for itself. -/
theorem toNat_ofNat (b : UInt8) : (Char.ofNat b.toNat).toNat = b.toNat := by
  have hb := b.toNat_lt
  rw [Char.toNat_ofNat, if_pos (.inl (by omega))]

theorem unreserved_serializeByte (b : UInt8) : ∀ c ∈ serializeByte b, Unreserved c := by
  intro c hc
  have hb := b.toNat_lt
  unfold serializeByte at hc
  split_ifs at hc with hkept hspace
  · obtain rfl := List.mem_singleton.mp hc
    intro hmem
    have hcode : (Char.ofNat b.toNat).toNat ∈ ['#', '?', '@', ':', '&', '=', '/'].map Char.toNat :=
      List.mem_map_of_mem hmem
    rw [toNat_ofNat] at hcode
    simp [unchanged, ← UInt8.toNat_inj, UInt8.le_iff_toNat_le] at hkept hcode
    omega
  · obtain rfl := List.mem_singleton.mp hc
    decide
  · simp only [List.mem_cons, List.not_mem_nil, or_false] at hc
    rcases hc with rfl | rfl | rfl
    · decide
    · exact unreserved_hexDigit _ (by omega)
    · exact unreserved_hexDigit _ (by omega)

theorem unreserved_of_mem {bs : List UInt8} : ∀ c ∈ byteSerialize bs, Unreserved c := by
  intro c hc
  obtain ⟨b, -, hb⟩ := List.mem_flatMap.mp hc
  exact unreserved_serializeByte b c hb

/-! ## Separators -/

section

variable {α : Type*} [DecidableEq α]

/-- **No separator is in a piece**, and nothing that was not in the text. -/
theorem splitOn_pieces (a : α) (l : List α) : ∀ piece ∈ l.splitOn a, a ∉ piece ∧ ∀ b ∈ piece, b ∈ l := by
  induction l with
  | nil => simp
  | cons x l ih =>
    rw [List.splitOn_cons_eq_if_modifyHead]
    split_ifs with hx
    · intro piece hpiece
      rcases List.mem_cons.mp hpiece with rfl | hpiece
      · simp
      · exact ⟨(ih piece hpiece).1, fun b hb => List.mem_cons_of_mem _ ((ih piece hpiece).2 b hb)⟩
    · obtain ⟨first, others, hsplit⟩ := List.exists_cons_of_ne_nil (List.splitOn_ne_nil a l)
      rw [hsplit] at ih ⊢
      rw [List.modifyHead_cons]
      intro piece hpiece
      rcases List.mem_cons.mp hpiece with rfl | hpiece
      · obtain ⟨hsep, hsub⟩ := ih first List.mem_cons_self
        have hax : a ≠ x := fun h => hx (by simp [h])
        refine ⟨fun ha => (List.mem_cons.mp ha).elim hax hsep, fun b hb => ?_⟩
        rcases List.mem_cons.mp hb with rfl | hb
        · exact List.mem_cons_self
        · exact List.mem_cons_of_mem _ (hsub b hb)
      · obtain ⟨hsep, hsub⟩ := ih piece (List.mem_cons_of_mem _ hpiece)
        exact ⟨hsep, fun b hb => List.mem_cons_of_mem _ (hsub b hb)⟩

end

end Form
