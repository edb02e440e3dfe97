import Mathlib

/-!
# Buffers of byte vectors

`ChunkVecBuffer` keeps bytes in the vectors in which they came.

* `ChunkVecBuffer`, none of whose vectors is empty, with `append`, `appendLimitedCopy`, `consume`, `read`, `writeTo`;
* `content`: the queue of bytes that it stands for;
* **`content_read`**, **`content_writeTo`**, `content_append`: the operations on the queue.
-/

set_option autoImplicit false

namespace RXCore.Rustls

/-- `consume`: `used` bytes are taken off the front. -/
def consumeChunks : ℕ → List (List UInt8) → List (List UInt8)
  | _, [] => []
  | used, buf :: chunks =>
    if used < buf.length then buf.drop used :: chunks else consumeChunks (used - buf.length) chunks

theorem consumeChunks_length_le (used : ℕ) (chunks : List (List UInt8)) :
    (consumeChunks used chunks).length ≤ chunks.length := by
  induction chunks generalizing used with
  | nil => exact le_rfl
  | cons buf chunks ih =>
    rw [consumeChunks]
    split_ifs
    · exact le_rfl
    · exact (ih _).trans (Nat.le_succ _)

/-- The loop of `read`, with room for `room` bytes more; a turn takes a byte, or drops an empty vector. -/
def readLoop : ℕ → ℕ → List (List UInt8) → List UInt8 × List (List UInt8)
  | 0, _, chunks => ([], chunks)
  | _ + 1, _, [] => ([], [])
  | turns + 1, room, chunk :: chunks =>
    if room = 0 then ([], chunk :: chunks)
    else
      let used := min chunk.length room
      let (out, left) := readLoop turns (room - used) (consumeChunks used (chunk :: chunks))
      (chunk.take used ++ out, left)

/-- `read` into a buffer of `room` bytes. -/
def readChunks (room : ℕ) (chunks : List (List UInt8)) : List UInt8 × List (List UInt8) :=
  readLoop (room + chunks.length) room chunks

/-- A turn of the loop of `read` takes a byte, or drops an empty vector. -/
theorem readLoop_decreases {room : ℕ} (h : room ≠ 0) (chunk : List UInt8) (rest : List (List UInt8)) :
    room - min chunk.length room + (consumeChunks (min chunk.length room) (chunk :: rest)).length <
      room + (chunk :: rest).length := by
  have hle := consumeChunks_length_le (min chunk.length room) (chunk :: rest)
  by_cases hc : chunk.length = 0
  · have hrest := consumeChunks_length_le 0 rest
    rw [consumeChunks, if_neg (by omega)]
    simp only [hc, Nat.zero_min, Nat.sub_zero, List.length_cons]
    omega
  · omega

theorem consumeChunks_flatten (used : ℕ) (chunks : List (List UInt8)) :
    (consumeChunks used chunks).flatten = chunks.flatten.drop used := by
  induction chunks generalizing used with
  | nil => simp [consumeChunks]
  | cons buf chunks ih =>
    rw [consumeChunks]
    split_ifs with h
    · rw [List.flatten_cons, List.flatten_cons, List.drop_append_of_le_length h.le]
    · rw [ih, List.flatten_cons, List.drop_append, List.drop_eq_nil_of_le (not_lt.mp h), List.nil_append]

theorem nonempty_consumeChunks {chunks : List (List UInt8)} (h : ∀ c ∈ chunks, c ≠ []) (used : ℕ) :
    ∀ c ∈ consumeChunks used chunks, c ≠ [] := by
  induction chunks generalizing used with
  | nil => exact h
  | cons buf chunks ih =>
    have htail : ∀ c ∈ chunks, c ≠ [] := fun c hc => h c (List.mem_cons_of_mem _ hc)
    rw [consumeChunks]
    split_ifs with hlt
    · intro c hc
      obtain rfl | hc := List.mem_cons.mp hc
      · intro hnil
        have := List.length_drop (l := buf) (i := used)
        rw [hnil, List.length_nil] at this
        omega
      · exact htail c hc
    · exact ih htail _

theorem readLoop_spec {turns room : ℕ} {chunks : List (List UInt8)} (h : room + chunks.length ≤ turns) :
    (readLoop turns room chunks).1 = chunks.flatten.take room ∧
      (readLoop turns room chunks).2.flatten = chunks.flatten.drop room := by
  induction turns generalizing room chunks with
  | zero =>
    obtain rfl : chunks = [] := List.eq_nil_of_length_eq_zero (by omega)
    simp [readLoop]
  | succ turns ih =>
    cases chunks with
    | nil => simp [readLoop]
    | cons chunk rest =>
      rw [readLoop]
      split_ifs with hroom
      · rw [hroom]
        exact ⟨rfl, rfl⟩
      · have hlt := readLoop_decreases hroom chunk rest
        obtain ⟨hout, hleft⟩ := @ih (room - min chunk.length room)
          (consumeChunks (min chunk.length room) (chunk :: rest)) (by omega)
        have hsplit : room = min chunk.length room + (room - min chunk.length room) := by omega
        have htake : chunk.take (min chunk.length room) = (chunk :: rest).flatten.take (min chunk.length room) := by
          rw [List.flatten_cons, List.take_append_of_le_length (min_le_left _ _)]
        simp only [hout, hleft, consumeChunks_flatten, htake]
        constructor
        · rw [← List.take_add, ← hsplit]
        · rw [List.drop_drop, ← hsplit]

/-- **`read` takes the first bytes**, as many as there is room for. -/
theorem readChunks_spec (room : ℕ) (chunks : List (List UInt8)) :
    (readChunks room chunks).1 = chunks.flatten.take room ∧
      (readChunks room chunks).2.flatten = chunks.flatten.drop room := readLoop_spec le_rfl

theorem nonempty_readLoop (turns room : ℕ) {chunks : List (List UInt8)} (h : ∀ c ∈ chunks, c ≠ []) :
    ∀ c ∈ (readLoop turns room chunks).2, c ≠ [] := by
  induction turns generalizing room chunks with
  | zero => exact h
  | succ turns ih =>
    cases chunks with
    | nil => exact h
    | cons chunk rest =>
      rw [readLoop]
      split_ifs
      · exact h
      · exact ih _ (nonempty_consumeChunks h _)

/-- `ChunkVecBuffer`. -/
structure ChunkVecBuffer where
  chunks : List (List UInt8)
  limit : Option ℕ
  nonempty : ∀ c ∈ chunks, c ≠ []

namespace ChunkVecBuffer

/-- `new`. -/
def new (limit : Option ℕ) : ChunkVecBuffer := ⟨[], limit, by simp⟩

variable (b : ChunkVecBuffer)

def setLimit (newLimit : Option ℕ) : ChunkVecBuffer := { b with limit := newLimit }

def isEmpty : Bool := b.chunks.isEmpty

def len : ℕ := (b.chunks.map List.length).sum

def isFull : Bool := (b.limit.map fun limit => decide (limit < b.len)).getD false

def applyLimit (len : ℕ) : ℕ :=
  match b.limit with
  | some limit => min len (limit - b.len)
  | none => len

def append (bytes : List UInt8) : ChunkVecBuffer :=
  if h : bytes = [] then b
  else { b with
    chunks := b.chunks ++ [bytes]
    nonempty := by
      intro c hc
      obtain hc | hc := List.mem_append.mp hc
      · exact b.nonempty c hc
      · exact (List.mem_singleton.mp hc) ▸ h }

/-- `append_limited_copy`, and how much was taken. -/
def appendLimitedCopy (bytes : List UInt8) : ℕ × ChunkVecBuffer :=
  let take := b.applyLimit bytes.length
  (take, b.append (bytes.take take))

/-- `pop`. -/
def pop : Option (List UInt8 × ChunkVecBuffer) :=
  match h : b.chunks with
  | [] => none
  | bytes :: chunks => some (bytes, { b with
      chunks := chunks
      nonempty := fun c hc => b.nonempty c (h ▸ List.mem_cons_of_mem _ hc) })

/-- `read` into a buffer of `n` bytes: what is read. -/
def read (n : ℕ) : List UInt8 × ChunkVecBuffer :=
  ((readChunks n b.chunks).1, { b with
    chunks := (readChunks n b.chunks).2
    nonempty := nonempty_readLoop _ n b.nonempty })

def consume (used : ℕ) : ChunkVecBuffer :=
  { b with
    chunks := consumeChunks used b.chunks
    nonempty := nonempty_consumeChunks b.nonempty used }

/-- `write_to` a socket that takes `n` of the bytes it is offered, of at most 64 vectors: what is written. -/
def writeTo (n : ℕ) : List UInt8 × ChunkVecBuffer :=
  let bufs := (b.chunks.take 64).flatten
  let used := min n bufs.length
  (bufs.take used, b.consume used)

/-! ## The queue of bytes -/

def content : List UInt8 := b.chunks.flatten

variable {b}

@[simp] theorem content_new (limit : Option ℕ) : (new limit).content = [] := rfl

theorem len_eq : b.len = b.content.length := (List.length_flatten).symm

theorem isEmpty_iff : b.isEmpty = true ↔ b.content = [] := by
  rw [isEmpty, List.isEmpty_iff, content, List.flatten_eq_nil_iff]
  constructor
  · rintro h c hc
    rw [h] at hc
    cases hc
  · intro h
    exact List.eq_nil_iff_forall_not_mem.mpr fun c hc => b.nonempty c hc (h c hc)

@[simp] theorem content_append (bytes : List UInt8) : (b.append bytes).content = b.content ++ bytes := by
  rw [append]
  split_ifs with h
  · rw [h, List.append_nil]
  · simp [content]

@[simp] theorem content_consume (used : ℕ) : (b.consume used).content = b.content.drop used :=
  consumeChunks_flatten used b.chunks

theorem content_pop {bytes : List UInt8} {b' : ChunkVecBuffer} (h : b.pop = some (bytes, b')) :
    b.content = bytes ++ b'.content := by
  rw [pop] at h
  split at h
  · cases h
  next hc =>
    obtain ⟨rfl, rfl⟩ := Prod.mk.inj (Option.some.inj h)
    exact (congrArg List.flatten hc).trans List.flatten_cons

theorem pop_eq_none_iff : b.pop = none ↔ b.content = [] := by
  rw [← isEmpty_iff, isEmpty, pop]
  split
  next hc => simp [hc]
  next hc => simp [hc]

/-- **What is read and what stays is what was there.** -/
theorem content_read (n : ℕ) : (b.read n).1 = b.content.take n ∧ (b.read n).2.content = b.content.drop n :=
  readChunks_spec n b.chunks

/-- **What is written and what stays is what was there.** -/
theorem content_writeTo (n : ℕ) : (b.writeTo n).1 ++ (b.writeTo n).2.content = b.content := by
  have hpre : ((b.chunks.take 64).flatten) <+: b.content := by
    refine ⟨(b.chunks.drop 64).flatten, ?_⟩
    rw [← List.flatten_append, List.take_append_drop, content]
  obtain ⟨rest, hrest⟩ := hpre
  have htake : ((b.chunks.take 64).flatten).take (min n (b.chunks.take 64).flatten.length) =
      b.content.take (min n (b.chunks.take 64).flatten.length) := by
    rw [← hrest, List.take_append_of_le_length (min_le_right _ _)]
  rw [writeTo]
  simp only [content_consume, htake, List.take_append_drop]

/-- A socket that takes bytes gets some, unless there are none. -/
theorem writeTo_pos {n : ℕ} (hn : 0 < n) (h : b.content ≠ []) : (b.writeTo n).1 ≠ [] := by
  have hne : (b.chunks.take 64).flatten ≠ [] := by
    cases hc : b.chunks with
    | nil => exact absurd (by rw [content, hc]; rfl) h
    | cons c cs =>
      have hpos := b.nonempty c (hc ▸ List.mem_cons_self)
      simp [hpos]
  have hpos := List.length_pos_of_ne_nil hne
  rw [writeTo]
  simp only [ne_eq, List.take_eq_nil_iff, not_or]
  exact ⟨by omega, hne⟩

end ChunkVecBuffer

end RXCore.Rustls
