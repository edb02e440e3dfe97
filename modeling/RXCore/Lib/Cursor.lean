import Mathlib

/-!
# Cursors over a buffer

Code that walks over a buffer of bytes returns, fails with an error of its own, accesses what is not in the
buffer, or loops for ever. The last two are results here: `panic`, and `outOfFuel` for a loop that has used up
the steps it was given.

* `Walk`, with `Returns`: one of the first two;
* `index`, `sliceFrom`, `sliceTo`, `sliceRange`, `advance`, `getU8`, `getU16`, `copyToSlice`, `setByte`: the
  accesses, which panic if there is too little in the buffer, and what they give if there is enough.
-/

set_option autoImplicit false

namespace Cursor

variable {α β : Type*}

/-- What a computation over a buffer comes to. -/
inductive Walk (α : Type*) where
  | panic
  | outOfFuel
  | err (e : String)
  | ok (a : α)

namespace Walk

def bind : Walk α → (α → Walk β) → Walk β
  | panic, _ => panic
  | outOfFuel, _ => outOfFuel
  | err e, _ => err e
  | ok a, f => f a

instance : Monad Walk where
  pure := ok
  bind := bind

@[simp] theorem ok_bind {α β : Type} (a : α) (f : α → Walk β) : (ok a >>= f) = f a := rfl

@[simp] theorem err_bind {α β : Type} (e : String) (f : α → Walk β) : (err e >>= f) = err e := rfl

/-- A computation with a value has come by one in its first part. -/
theorem bind_eq_ok {α β : Type} {x : Walk α} {f : α → Walk β} {b : β} :
    (x >>= f) = ok b ↔ ∃ a, x = ok a ∧ f a = ok b := by
  constructor
  · intro h
    cases x with
    | ok a => exact ⟨a, rfl, h⟩
    | panic => cases h
    | outOfFuel => cases h
    | err e => cases h
  · rintro ⟨a, rfl, h⟩
    exact h

/-- A result without panics and loops. -/
def ofExcept : Except String α → Walk α
  | .error e => err e
  | .ok a => ok a

@[simp] theorem ofExcept_error (e : String) : ofExcept (.error e : Except String α) = err e := rfl

@[simp] theorem ofExcept_ok (a : α) : ofExcept (.ok a : Except String α) = ok a := rfl

/-- The computation ends inside the buffer, with a value or with an error of its own. -/
def Returns : Walk α → Prop
  | panic | outOfFuel => False
  | err _ | ok _ => True

theorem returns_ofExcept (r : Except String α) : (ofExcept r).Returns := by
  cases r <;> trivial

theorem ofExcept_eq_ok {r : Except String α} {a : α} : ofExcept r = ok a ↔ r = .ok a := by
  cases r <;> simp [ofExcept]

end Walk

open Walk

variable {bs : List UInt8} {n : ℕ}

/-! ## Accesses -/

def index (bs : List UInt8) (i : ℕ) : Walk UInt8 := if h : i < bs.length then ok bs[i] else panic

def sliceFrom (bs : List UInt8) (n : ℕ) : Walk (List UInt8) := if n ≤ bs.length then ok (bs.drop n) else panic

def sliceTo (bs : List UInt8) (n : ℕ) : Walk (List UInt8) := if n ≤ bs.length then ok (bs.take n) else panic

/-- The bytes from `m` up to `n`. -/
def sliceRange (bs : List UInt8) (m n : ℕ) : Walk (List UInt8) :=
  if m ≤ n ∧ n ≤ bs.length then ok ((bs.drop m).take (n - m)) else panic

def setByte (bs : List UInt8) (i : ℕ) (b : UInt8) : Walk (List UInt8) := if i < bs.length then ok (bs.set i b) else panic

/-- The cursor after `n` more bytes. -/
def advance (bs : List UInt8) (n : ℕ) : Walk (List UInt8) := if n ≤ bs.length then ok (bs.drop n) else panic

/-- The byte under the cursor, and the cursor after it. -/
def getU8 : List UInt8 → Walk (UInt8 × List UInt8)
  | b :: bs => ok (b, bs)
  | [] => panic

/-- The big-endian number under the cursor, and the cursor after it. -/
def getU16 : List UInt8 → Walk (ℕ × List UInt8)
  | a :: b :: bs => ok (a.toNat * 256 + b.toNat, bs)
  | _ => panic

/-- The next `n` bytes, and the cursor after them. -/
def copyToSlice (bs : List UInt8) (n : ℕ) : Walk (List UInt8 × List UInt8) :=
  if n ≤ bs.length then ok (bs.take n, bs.drop n) else panic

/-- `a - b` of lengths. -/
def subLen (a b : ℕ) : Walk ℕ := if b ≤ a then ok (a - b) else panic

theorem index_ok (h : n < bs.length) : index bs n = ok (bs.getD n 0) := by
  rw [index, dif_pos h, List.getD_eq_getElem _ _ h]

theorem sliceFrom_ok (h : n ≤ bs.length) : sliceFrom bs n = ok (bs.drop n) := if_pos h

theorem sliceTo_ok (h : n ≤ bs.length) : sliceTo bs n = ok (bs.take n) := if_pos h

theorem sliceRange_ok {m : ℕ} (hm : m ≤ n) (hn : n ≤ bs.length) : sliceRange bs m n = ok ((bs.drop m).take (n - m)) :=
  if_pos ⟨hm, hn⟩

theorem setByte_ok (h : n < bs.length) (b : UInt8) : setByte bs n b = ok (bs.set n b) := if_pos h

theorem advance_ok (h : n ≤ bs.length) : advance bs n = ok (bs.drop n) := if_pos h

theorem copyToSlice_ok (h : n ≤ bs.length) : copyToSlice bs n = ok (bs.take n, bs.drop n) := if_pos h

theorem subLen_ok {a b : ℕ} (h : b ≤ a) : subLen a b = ok (a - b) := if_pos h

@[simp] theorem getU8_cons (b : UInt8) (bs : List UInt8) : getU8 (b :: bs) = ok (b, bs) := rfl

end Cursor
