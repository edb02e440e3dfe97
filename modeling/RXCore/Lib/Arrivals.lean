import Mathlib

/-!
# Streams as arrivals

A stream that is read piece by piece is the list of what arrives on it: pieces of data, of any
sizes, and possibly a fault. One read takes at most `cap` symbols of the first piece that is there,
so the same data under another segmentation is another list of arrivals with the same `content`.

* `recv cap`: one read, `none` for a fault, an empty list only at the end of the stream;
* `recvExact n`: reads until `n` symbols are there, and **`recvExact_eq`**;
* `recvLoop cap n`: the same as a loop of reads, and **`recvLoop_eq`**;
* `content`, `Clean`: the data that arrives before any fault, and the absence of faults;
* **`recv_spec`**: a read of a clean stream takes a prefix of its content off it;
* `recv_size_add`: a read that returns data makes the stream smaller.
-/

set_option autoImplicit false

namespace Arrivals

variable {α : Type*}

/-- One arrival: a piece of data, or a failing read. -/
inductive Arrival (α : Type*) where
  | data (bs : List α)
  | fault

/-- The data that arrives before the first fault. -/
def content : List (Arrival α) → List α
  | [] => []
  | .data bs :: r => bs ++ content r
  | .fault :: _ => []

/-- No read of the stream fails. -/
def Clean : List (Arrival α) → Prop
  | [] => True
  | .data _ :: r => Clean r
  | .fault :: _ => False

/-- A measure that every read returning data decreases. -/
def size : List (Arrival α) → ℕ
  | [] => 0
  | .data bs :: r => bs.length + 1 + size r
  | .fault :: r => 1 + size r

/-- Put what one read left of a piece back in front. -/
def putBack : List α → List (Arrival α) → List (Arrival α)
  | [], r => r
  | b :: bs, r => .data (b :: bs) :: r

/-- One read into a buffer of `cap` symbols: what it returns and what is left. -/
def recv (cap : ℕ) : List (Arrival α) → Option (List α) × List (Arrival α)
  | [] => (some [], [])
  | .fault :: r => (none, r)
  | .data [] :: r => recv cap r
  | .data (b :: bs) :: r => (some ((b :: bs).take cap), putBack ((b :: bs).drop cap) r)

/-- Reads until `n` symbols are there, `none` if the stream ends or fails before. -/
def recvExact : ℕ → List (Arrival α) → Option (List α) × List (Arrival α)
  | 0, r => (some [], r)
  | _ + 1, [] => (none, [])
  | _ + 1, .fault :: r => (none, r)
  | n + 1, .data bs :: r =>
    if n + 1 ≤ bs.length then (some (bs.take (n + 1)), putBack (bs.drop (n + 1)) r)
    else
      let (rest, r') := recvExact (n + 1 - bs.length) r
      (rest.map (bs ++ ·), r')

@[simp] theorem content_putBack (bs : List α) (r : List (Arrival α)) :
    content (putBack bs r) = bs ++ content r := by
  cases bs <;> rfl

theorem clean_putBack {bs : List α} {r : List (Arrival α)} : Clean (putBack bs r) ↔ Clean r := by
  cases bs <;> rfl

theorem size_putBack_le (bs : List α) (r : List (Arrival α)) :
    size (putBack bs r) ≤ bs.length + 1 + size r := by
  cases bs with
  | nil => rw [putBack]; omega
  | cons b bs => exact le_rfl

/-- **One read of a clean stream.** -/
theorem recv_spec {cap : ℕ} (hcap : 0 < cap) {r : List (Arrival α)} (h : Clean r) :
    ∃ bs r', recv cap r = (some bs, r') ∧ Clean r' ∧ content r = bs ++ content r' ∧
      bs.length ≤ cap ∧ (bs = [] → content r = []) := by
  induction r with
  | nil => exact ⟨[], [], rfl, trivial, rfl, Nat.zero_le _, fun _ => rfl⟩
  | cons a r ih =>
    cases a with
    | fault => exact absurd h id
    | data bs =>
      cases bs with
      | nil => exact ih h
      | cons b bs =>
        refine ⟨(b :: bs).take cap, putBack ((b :: bs).drop cap) r, rfl, clean_putBack.mpr h,
          ?_, List.length_take_le _ _, fun hnil => ?_⟩
        · rw [content_putBack, ← List.append_assoc, List.take_append_drop]
          rfl
        · obtain ⟨cap, rfl⟩ := Nat.exists_eq_succ_of_ne_zero hcap.ne'
          exact absurd hnil (by simp)

/-- Of two beginnings of one list, the longer one goes on from the shorter. -/
theorem split_of_length_le {as bs cs ds : List α} (h : as ++ bs = cs ++ ds) (hle : as.length ≤ cs.length) :
    ∃ es, cs = as ++ es ∧ bs = es ++ ds := by
  obtain ⟨es, rfl⟩ := List.prefix_of_prefix_length_le ⟨bs, h⟩ (List.prefix_append cs ds) hle
  rw [List.append_assoc] at h
  exact ⟨es, rfl, List.append_cancel_left h⟩

/-- **Reading what is there**, in whatever pieces it arrives. -/
theorem recvExact_eq {r : List (Arrival α)} {bs rest : List α} (h : content r = bs ++ rest) :
    ∃ r', recvExact bs.length r = (some bs, r') ∧ content r' = rest := by
  induction r generalizing bs with
  | nil =>
    obtain ⟨rfl, rfl⟩ := List.append_eq_nil_iff.mp h.symm
    exact ⟨[], rfl, rfl⟩
  | cons a r ih =>
    obtain rfl | ⟨n, hn⟩ : bs = [] ∨ ∃ n, bs.length = n + 1 := by
      cases bs with
      | nil => exact .inl rfl
      | cons b bs => exact .inr ⟨bs.length, rfl⟩
    · exact ⟨a :: r, rfl, h⟩
    · cases a with
      | fault =>
        obtain ⟨rfl, rfl⟩ := List.append_eq_nil_iff.mp h.symm
        cases hn
      | data cs =>
        rw [content] at h
        rw [hn, recvExact]
        by_cases hle : n + 1 ≤ cs.length
        · -- the first piece is enough
          obtain ⟨ds, rfl, hrest⟩ := split_of_length_le h.symm (by omega)
          rw [if_pos hle, ← hn, List.take_left, List.drop_left]
          exact ⟨_, rfl, by rw [content_putBack, hrest]⟩
        · obtain ⟨ds, rfl, hrest⟩ := split_of_length_le h (by omega)
          obtain ⟨r', hr', hc'⟩ := ih hrest
          rw [List.length_append] at hn
          rw [if_neg hle, show n + 1 - cs.length = ds.length by omega, hr']
          exact ⟨r', rfl, hc'⟩

/-- What is read has the length that was asked for, and was the next of the content. -/
theorem recvExact_spec {n : ℕ} {r r' : List (Arrival α)} {bs : List α} (h : recvExact n r = (some bs, r')) :
    bs.length = n ∧ content r = bs ++ content r' := by
  induction r generalizing n bs r' with
  | nil =>
    cases n with
    | zero =>
      obtain ⟨h1, rfl⟩ := Prod.mk.inj h
      obtain rfl := Option.some.inj h1
      exact ⟨rfl, rfl⟩
    | succ n => cases h
  | cons a r ih =>
    cases n with
    | zero =>
      obtain ⟨h1, rfl⟩ := Prod.mk.inj h
      obtain rfl := Option.some.inj h1
      exact ⟨rfl, rfl⟩
    | succ n =>
      cases a with
      | fault => cases h
      | data cs =>
        rw [recvExact] at h
        split_ifs at h with hle
        · obtain ⟨h1, rfl⟩ := Prod.mk.inj h
          obtain rfl := Option.some.inj h1
          refine ⟨by rw [List.length_take, min_eq_left hle], ?_⟩
          rw [content_putBack, ← List.append_assoc, List.take_append_drop]
          rfl
        · obtain ⟨h1, rfl⟩ := Prod.mk.inj h
          obtain ⟨ds, hds, rfl⟩ := Option.map_eq_some_iff.mp h1
          obtain ⟨hlen, hrest⟩ := ih (Prod.ext hds rfl)
          refine ⟨?_, by rw [content, hrest, List.append_assoc]⟩
          rw [List.length_append, hlen]
          omega

theorem recvExact_length {n : ℕ} {r r' : List (Arrival α)} {bs : List α} (h : recvExact n r = (some bs, r')) :
    bs.length = n := (recvExact_spec h).1

theorem recvExact_content {n : ℕ} {r r' : List (Arrival α)} {bs : List α} (h : recvExact n r = (some bs, r')) :
    content r = bs ++ content r' := (recvExact_spec h).2

/-- What a read returns is taken off the stream. -/
theorem recv_size_add {cap : ℕ} {r r' : List (Arrival α)} {b : α} {bs : List α}
    (h : recv cap r = (some (b :: bs), r')) : size r' + (b :: bs).length ≤ size r := by
  induction r with
  | nil => cases h
  | cons a r ih =>
    cases a with
    | fault => cases h
    | data cs =>
      cases cs with
      | nil =>
        have := ih h
        simp only [size, List.length_nil]
        omega
      | cons c cs =>
        obtain ⟨h1, rfl⟩ := Prod.mk.inj h
        have hlen := congrArg List.length (Option.some.inj h1)
        have := size_putBack_le ((c :: cs).drop cap) r
        rw [List.length_take] at hlen
        rw [List.length_drop] at this
        simp only [size]
        simp only [List.length_cons] at hlen this ⊢
        omega

theorem recv_size {cap : ℕ} {r r' : List (Arrival α)} {b : α} {bs : List α}
    (h : recv cap r = (some (b :: bs), r')) : size r' < size r := by
  have := recv_size_add h
  rw [List.length_cons] at this
  omega

/-- A read returns no more than it has room for. -/
theorem recv_length_le {cap : ℕ} {r r' : List (Arrival α)} {bs : List α} (h : recv cap r = (some bs, r')) :
    bs.length ≤ cap := by
  induction r with
  | nil =>
    obtain ⟨hbs, -⟩ := Prod.mk.inj h
    obtain rfl := Option.some.inj hbs
    exact Nat.zero_le _
  | cons a r ih =>
    cases a with
    | fault => cases h
    | data cs =>
      cases cs with
      | nil => exact ih h
      | cons b cs =>
        obtain ⟨hbs, -⟩ := Prod.mk.inj h
        obtain rfl := Option.some.inj hbs
        exact List.length_take_le _ _

/-- **What a read returns was the next of the content.** -/
theorem recv_content {cap : ℕ} {r r' : List (Arrival α)} {bs : List α} (h : recv cap r = (some bs, r')) :
    content r = bs ++ content r' := by
  induction r with
  | nil =>
    obtain ⟨rfl, rfl⟩ := by simpa [recv] using h
    rfl
  | cons a r ih =>
    cases a with
    | fault => cases h
    | data cs =>
      cases cs with
      | nil => exact ih h
      | cons c cs =>
        simp only [recv, Prod.mk.injEq, Option.some.injEq] at h
        obtain ⟨rfl, rfl⟩ := h
        rw [content_putBack, ← List.append_assoc, List.take_append_drop]
        rfl

/-- A read succeeds as long as there is content, and gets something if it has room. -/
theorem recv_of_content (cap : ℕ) {r : List (Arrival α)} (h : content r ≠ []) :
    ∃ bs r', recv cap r = (some bs, r') ∧ bs.length ≤ cap ∧ (0 < cap → bs ≠ []) := by
  induction r with
  | nil => exact absurd rfl h
  | cons a r ih =>
    cases a with
    | fault => exact absurd rfl h
    | data cs =>
      cases cs with
      | nil => exact ih h
      | cons c cs =>
        refine ⟨(c :: cs).take cap, putBack ((c :: cs).drop cap) r, rfl, List.length_take_le _ _, fun hcap => ?_⟩
        simp [hcap.ne']

/-- A read that gets nothing finds nothing. -/
theorem content_of_recv_nil {cap : ℕ} {r r' : List (Arrival α)} {o : Option (List α)} (hcap : 0 < cap)
    (ho : o = none ∨ o = some []) (h : recv cap r = (o, r')) : content r = [] := by
  by_contra hne
  obtain ⟨bs, r', hr, -, hbs⟩ := recv_of_content cap hne
  rw [h] at hr
  obtain ⟨hr, -⟩ := Prod.mk.inj hr
  rcases ho with rfl | rfl
  · cases hr
  · exact hbs hcap (Option.some.inj hr).symm

/-- A loop of reads into a buffer of `cap` symbols until `n` symbols are there. -/
def recvLoop (cap : ℕ) : ℕ → List (Arrival α) → Option (List α) × List (Arrival α)
  | 0, r => (some [], r)
  | n + 1, r => match recv (min cap (n + 1)) r with
    | (some (b :: bs), r') =>
      let (rest, r'') := recvLoop cap (n - bs.length) r'
      (rest.map (b :: bs ++ ·), r'')
    | (_, r') => (none, r')
termination_by n => n
decreasing_by omega

/-- A turn of the loop that gets something. -/
theorem recvLoop_of_recv {cap n : ℕ} {r r' : List (Arrival α)} {b : α} {bs : List α}
    (h : recv (min cap (n + 1)) r = (some (b :: bs), r')) :
    recvLoop cap (n + 1) r =
      ((recvLoop cap (n - bs.length) r').1.map (b :: bs ++ ·), (recvLoop cap (n - bs.length) r').2) := by
  rw [recvLoop]
  simp only [h]

theorem recvLoop_content {cap n : ℕ} {r r' : List (Arrival α)} {bs : List α}
    (h : recvLoop cap n r = (some bs, r')) : content r = bs ++ content r' := by
  induction n using Nat.strong_induction_on generalizing r bs with
  | _ n ih =>
    cases n with
    | zero =>
      obtain ⟨rfl, rfl⟩ := by simpa [recvLoop] using h
      rfl
    | succ n =>
      rcases hr : recv (min cap (n + 1)) r with ⟨_ | _ | ⟨c, cs⟩, r₁⟩
      · simp [recvLoop, hr] at h
      · simp [recvLoop, hr] at h
      · rw [recvLoop_of_recv hr] at h
        obtain ⟨h1, h2⟩ := Prod.mk.inj h
        obtain ⟨ds, hds, rfl⟩ := Option.map_eq_some_iff.mp h1
        have hrest := ih (n - cs.length) (by omega) (Prod.ext hds h2)
        rw [recv_content hr, hrest, List.append_assoc]

/-- **Reading what is there in a loop.** -/
theorem recvLoop_eq {cap : ℕ} (hcap : 0 < cap) {r : List (Arrival α)} {bs rest : List α}
    (h : content r = bs ++ rest) : ∃ r', recvLoop cap bs.length r = (some bs, r') ∧ content r' = rest := by
  induction hn : bs.length using Nat.strong_induction_on generalizing r bs with
  | _ n ih =>
    cases n with
    | zero =>
      obtain rfl := List.eq_nil_of_length_eq_zero hn
      exact ⟨r, by rw [recvLoop], h⟩
    | succ n =>
      have hne : content r ≠ [] := by
        rw [h]
        intro hnil
        rw [(List.append_eq_nil_iff.mp hnil).1] at hn
        cases hn
      obtain ⟨cs, r₁, hr, hle, hpos⟩ := recv_of_content (min cap (n + 1)) hne
      obtain ⟨c, cs, rfl⟩ := List.exists_cons_of_ne_nil (hpos (lt_min hcap n.succ_pos))
      have hle' := hle.trans (min_le_right _ _)
      rw [List.length_cons] at hle'
      -- what was read is a part of what is there
      obtain ⟨ds, rfl, hrest⟩ := split_of_length_le ((recv_content hr).symm.trans h) (by rw [List.length_cons]; omega)
      rw [List.length_append, List.length_cons] at hn
      obtain ⟨r', hr', hc'⟩ := ih ds.length (by omega) hrest rfl
      refine ⟨r', ?_, hc'⟩
      rw [recvLoop_of_recv hr, show n - cs.length = ds.length by omega, hr']
      rfl

end Arrivals
