import RXCore.State.Stats
import RXCore.Lib.Arrivals

/-!
# One-way copy loops

`copy_one_way_unlimited`, `copy_one_way_fast` and `copy_one_way_rate_limited` are one loop with three
settings: whether it consults the quota, how much it reads at once, and whether it paces its writes.
A reader is a list of arrivals. What happens around the loop (the effect of other tasks at its
awaits, the clock, faults of the writer) is given turn by turn.

* `Kind`, `Turn`, `Copy`: the setting, the surroundings of a turn, the state of the loop;
* `copyLoop`, `copyOneWay` and its three members;
* `Transfers`: the whole input is written and its length returned;
* **`copyLoop_transfers`**: a loop that does not consult a quota transfers its input;
* **`copies_agree_iff`**: for an unlimited user the three agree on the empty input only.
-/

set_option autoImplicit false

namespace RXCore

open Arrivals

/-- The setting of a copy loop. -/
structure Kind where
  /-- The loop checks and reserves the user's remaining bytes. -/
  metered : Bool
  /-- The most bytes of one read. -/
  chunk : ℕ
  /-- The bytes per second at which writes are paced. -/
  pace : Option ℕ

/-- What surrounds one turn of the loop. -/
structure Turn where
  /-- What other tasks make of the user while the loop waits for its read. -/
  duringRead : UserStats → UserStats
  /-- The same while it waits for its write. -/
  duringWrite : UserStats → UserStats
  /-- The same while it sleeps before its write. -/
  duringSleep : UserStats → UserStats
  /-- The clock before the write. -/
  now : ℚ
  /-- The write fails after so many bytes. -/
  writeFault : Option ℕ
  /-- At least 500 ms have passed since the counters were last committed. -/
  commitDue : Bool

/-- The state of a copy loop. -/
structure Copy where
  reader : List (Arrival UInt8)
  user : Option UserStats
  written : List UInt8
  totalBytes : ℕ
  accumulatedBytes : ℕ
  connectionCounter : ℕ
  dirty : Bool
  nextSend : ℚ

/-- Other tasks act on the user during an await. -/
def Copy.meanwhile (s : Copy) (f : UserStats → UserStats) : Copy := { s with user := s.user.map f }

/-- The check before a read: a metered loop stops when its user has nothing left. -/
def preReadCheck (k : Kind) (s : Copy) : Bool :=
  k.metered && match s.user with
    | none => false
    | some u => decide (u.remainingBytes ≤ 0)

/-- The bytes of a read that may be written, and the reservation made for them. -/
def Copy.reserve (k : Kind) (s : Copy) (n : ℕ) : ℕ × Copy :=
  if k.metered then
    match s.user with
    | none => (n, s)
    | some u =>
      let (allowed, remaining) := reserveQuota u.remainingBytes n
      (allowed, { s with user := some { u with remainingBytes := remaining } })
  else (n, s)

/-- The virtual clock of a paced loop. It sleeps until `nextSend`, or gives up more than 10 ms of
arrears. -/
def Copy.sleepBeforeWrite (k : Kind) (t : Turn) (s : Copy) (allowed : ℕ) : Copy :=
  match k.pace with
  | none => s
  | some limit =>
    let nextSend := s.nextSend + (allowed : ℚ) / limit
    if t.now < nextSend then { s with nextSend := nextSend }.meanwhile t.duringSleep
    else if 1 / 100 < t.now - nextSend then { s with nextSend := t.now }
    else { s with nextSend := nextSend }

/-- The write and its flush; `false` when it fails. -/
def Copy.write (t : Turn) (s : Copy) (bs : List UInt8) : Copy × Bool :=
  match t.writeFault with
  | some k => ({ s with written := s.written ++ bs.take k }, false)
  | none => ({ s with written := s.written ++ bs }.meanwhile t.duringWrite, true)

/-- The counters take what has been accumulated. -/
def Copy.commit (d : Direction) (s : Copy) : Copy :=
  { s with
    connectionCounter := s.connectionCounter + s.accumulatedBytes
    user := s.user.map fun u => u.count d s.accumulatedBytes
    dirty := true
    accumulatedBytes := 0 }

/-- The bytes of a write are accumulated, and committed from 1 MiB or 500 ms on. -/
def Copy.account (d : Direction) (t : Turn) (s : Copy) (n : ℕ) : Copy :=
  let s := { s with totalBytes := s.totalBytes + n, accumulatedBytes := s.accumulatedBytes + n }
  if 1048576 ≤ s.accumulatedBytes || t.commitDue then s.commit d else s

/-- What a turn does with the bytes it has read: the state after it, and whether it went well. -/
def Copy.forward (k : Kind) (d : Direction) (t : Turn) (s : Copy) (allowed : ℕ) (bs : List UInt8) :
    Copy × Bool :=
  let (s, ok) := (s.sleepBeforeWrite k t allowed).write t (bs.take allowed)
  if ok then (s.account d t allowed, true) else (s, false)

@[simp] theorem Copy.meanwhile_reader (s : Copy) (f : UserStats → UserStats) :
    (s.meanwhile f).reader = s.reader := rfl

@[simp] theorem Copy.reserve_reader (k : Kind) (s : Copy) (n : ℕ) :
    (s.reserve k n).2.reader = s.reader := by
  unfold Copy.reserve
  split
  · split <;> rfl
  · rfl

theorem Copy.sleepBeforeWrite_reader (k : Kind) (t : Turn) (s : Copy) (n : ℕ) :
    (s.sleepBeforeWrite k t n).reader = s.reader := by
  unfold Copy.sleepBeforeWrite
  split
  · rfl
  · dsimp only
    split_ifs <;> rfl

theorem Copy.write_reader (t : Turn) (s : Copy) (bs : List UInt8) :
    (s.write t bs).1.reader = s.reader := by
  unfold Copy.write
  split <;> rfl

theorem Copy.account_reader (d : Direction) (t : Turn) (s : Copy) (n : ℕ) :
    (s.account d t n).reader = s.reader := by
  unfold Copy.account
  dsimp only
  split_ifs <;> rfl

@[simp] theorem Copy.forward_reader (k : Kind) (d : Direction) (t : Turn) (s : Copy) (n : ℕ)
    (bs : List UInt8) : (s.forward k d t n bs).1.reader = s.reader := by
  have h := (Copy.write_reader t (s.sleepBeforeWrite k t n) (bs.take n)).trans
    (Copy.sleepBeforeWrite_reader k t s n)
  unfold Copy.forward
  dsimp only
  split_ifs
  · exact (Copy.account_reader _ _ _ _).trans h
  · exact h

/-- The loop from turn number `i` on: its last state, and whether it ended without a fault. -/
def copyLoop (k : Kind) (d : Direction) (env : ℕ → Turn) (i : ℕ) (s : Copy) : Copy × Bool :=
  if preReadCheck k s then (s, true)
  else match h : recv k.chunk s.reader with
    | (none, r) => ({ s with reader := r }, false)
    | (some [], r) => ({ s with reader := r }, true)
    | (some (b :: bs), r) =>
      let s' := ({ s with reader := r }.meanwhile (env i).duringRead).reserve k (b :: bs).length
      if s'.1 = 0 then (s'.2, true)
      else
        let out := s'.2.forward k d (env i) s'.1 (b :: bs)
        if out.2 = false then out
        else if s'.1 < (b :: bs).length then out
        else copyLoop k d env (i + 1) out.1
termination_by size s.reader
decreasing_by
  simp only [Copy.forward_reader, Copy.reserve_reader, Copy.meanwhile_reader]
  exact recv_size h

/-- What a copy function returns: the total, or the fault of a read or of a write. -/
abbrev CopyResult := Option ℕ

/-- A copy function: the loop, the last commit, and the shutdown of the writer. -/
def copyOneWay (k : Kind) (d : Direction) (env : ℕ → Turn) (shutdownOk : Bool) (s : Copy) :
    CopyResult × Copy :=
  let (s, ok) := copyLoop k d env 0 s
  if ok then
    let s := if 0 < s.accumulatedBytes then s.commit d else s
    (if shutdownOk then some s.totalBytes else none, s)
  else (none, s)

/-- The state in which a copy function starts. -/
def Copy.start (reader : List (Arrival UInt8)) (user : Option UserStats) (connectionCounter : ℕ)
    (dirty : Bool) (now : ℚ) : Copy where
  reader := reader
  user := user
  written := []
  totalBytes := 0
  accumulatedBytes := 0
  connectionCounter := connectionCounter
  dirty := dirty
  nextSend := now

/-! ## The three members -/

/-- `copy_one_way_unlimited`. -/
def copyOneWayUnlimited : Direction → (ℕ → Turn) → Bool → Copy → CopyResult × Copy :=
  copyOneWay ⟨false, 32768, none⟩

/-- `copy_one_way_fast`. -/
def copyOneWayFast : Direction → (ℕ → Turn) → Bool → Copy → CopyResult × Copy :=
  copyOneWay ⟨true, 32768, none⟩

/-- The most bytes that the rate-limited loop reads at once: 5 ms of traffic, within bounds. -/
def maxChunk (limit : ℕ) : ℕ :=
  let bytesPerInterval := limit * 5000000 / 1000000000
  let bound := if limit < 1250000 then 4096 else if limit < 12500000 then 16384 else 65536
  max 256 (min bytesPerInterval bound)

/-- `copy_one_way_rate_limited`. -/
def copyOneWayRateLimited (limit : ℕ) : Direction → (ℕ → Turn) → Bool → Copy → CopyResult × Copy :=
  copyOneWay ⟨true, maxChunk limit, some limit⟩

/-! ## A loop without a quota -/

/-- The whole input is written, in order, and its length is returned. -/
def Transfers (bytes : List UInt8) (out : CopyResult × Copy) : Prop :=
  out.2.written = bytes ∧ out.1 = some bytes.length

/-- The reader presents `bytes`, in some segmentation, and then ends. -/
def Presents (reader : List (Arrival UInt8)) (bytes : List UInt8) : Prop :=
  Clean reader ∧ content reader = bytes

/-- No write fails, and no other task touches the quota of an unlimited user. -/
structure Calm (env : ℕ → Turn) : Prop where
  writes : ∀ i, (env i).writeFault = none
  read : ∀ i (u : UserStats), u.remainingBytes = -1 → ((env i).duringRead u).remainingBytes = -1
  write : ∀ i (u : UserStats), u.remainingBytes = -1 → ((env i).duringWrite u).remainingBytes = -1
  sleep : ∀ i (u : UserStats), u.remainingBytes = -1 → ((env i).duringSleep u).remainingBytes = -1

theorem Copy.sleepBeforeWrite_written (k : Kind) (t : Turn) (s : Copy) (n : ℕ) :
    (s.sleepBeforeWrite k t n).written = s.written ∧
      (s.sleepBeforeWrite k t n).totalBytes = s.totalBytes := by
  unfold Copy.sleepBeforeWrite
  split
  · exact ⟨rfl, rfl⟩
  · dsimp only
    split_ifs <;> exact ⟨rfl, rfl⟩

theorem Copy.account_written (d : Direction) (t : Turn) (s : Copy) (n : ℕ) :
    (s.account d t n).written = s.written ∧ (s.account d t n).totalBytes = s.totalBytes + n := by
  unfold Copy.account
  dsimp only
  split_ifs <;> exact ⟨rfl, rfl⟩

/-- A turn whose write does not fail writes what is allowed and counts it. -/
theorem Copy.forward_ok (k : Kind) (d : Direction) {t : Turn} (s : Copy) (allowed : ℕ)
    (bs : List UInt8) (h : t.writeFault = none) :
    (s.forward k d t allowed bs).2 = true ∧
      (s.forward k d t allowed bs).1.written = s.written ++ bs.take allowed ∧
      (s.forward k d t allowed bs).1.totalBytes = s.totalBytes + allowed := by
  obtain ⟨hw, ht⟩ := s.sleepBeforeWrite_written k t allowed
  obtain ⟨haw, hat⟩ := Copy.account_written d t
    ((s.sleepBeforeWrite k t allowed).write t (bs.take allowed)).1 allowed
  simp only [Copy.forward, Copy.write, h] at haw hat ⊢
  refine ⟨rfl, ?_, ?_⟩
  · rw [if_true, haw]
    exact congrArg (· ++ bs.take allowed) hw
  · rw [if_true, hat]
    exact congrArg (· + allowed) ht

/-- **A loop that consults no quota transfers everything that arrives.** The induction is on the size
of what the reader has left. -/
theorem copyLoop_transfers {k : Kind} (hk : k.metered = false) (hc : 0 < k.chunk) (d : Direction)
    {env : ℕ → Turn} (henv : ∀ i, (env i).writeFault = none) (i : ℕ) (s : Copy)
    (hs : Clean s.reader) :
    (copyLoop k d env i s).2 = true ∧
      (copyLoop k d env i s).1.written = s.written ++ content s.reader ∧
      (copyLoop k d env i s).1.totalBytes = s.totalBytes + (content s.reader).length := by
  induction hn : size s.reader using Nat.strong_induction_on generalizing i s with
  | _ n ih =>
    obtain ⟨bs, r, hr, hclean, hcontent, -, hnil⟩ := recv_spec hc hs
    have hcheck : preReadCheck k s = false := by rw [preReadCheck, hk]; rfl
    rw [copyLoop, hcheck, if_neg Bool.false_ne_true]
    split
    · next hr' =>
      rw [hr] at hr'
      cases hr'
    · next r' hr' =>
      -- the end of the stream
      rw [hr] at hr'
      obtain ⟨rfl, rfl⟩ : bs = [] ∧ r = r' := by simpa using hr'
      rw [hnil rfl]
      exact ⟨rfl, (List.append_nil _).symm, rfl⟩
    · next b cs r' hr' =>
      have hsize := recv_size hr'
      rw [hr] at hr'
      obtain ⟨rfl, rfl⟩ : bs = b :: cs ∧ r = r' := by simpa using hr'
      have hres : ∀ (t : Copy) (m : ℕ), t.reserve k m = (m, t) := fun t m => by
        rw [Copy.reserve, hk]
        rfl
      simp only [hres, List.length_cons]
      obtain ⟨hok, hw, ht⟩ := Copy.forward_ok k d
        ({ s with reader := r }.meanwhile (env i).duringRead) (cs.length + 1) (b :: cs) (henv i)
      rw [if_neg (Nat.succ_ne_zero _), hok, if_neg Bool.true_eq_false_eq_False, if_neg (lt_irrefl _)]
      have hread := Copy.forward_reader k d (env i)
        ({ s with reader := r }.meanwhile (env i).duringRead) (cs.length + 1) (b :: cs)
      set s' := ({ s with reader := r }.meanwhile (env i).duringRead).forward k d (env i)
        (cs.length + 1) (b :: cs)
      have hread' : s'.1.reader = r := hread
      obtain ⟨h1, h2, h3⟩ := ih (size s'.1.reader) (by rw [hread', ← hn]; exact hsize) (i + 1) s'.1
        (by rw [hread']; exact hclean) rfl
      refine ⟨h1, ?_, ?_⟩
      · rw [h2, hw, hread, hcontent]
        change s.written ++ (b :: cs).take (cs.length + 1) ++ content r = _
        rw [List.take_of_length_le (le_of_eq List.length_cons), List.append_assoc]
      · rw [h3, ht, hread, hcontent]
        change s.totalBytes + (cs.length + 1) + (content r).length = _
        rw [List.length_append, List.length_cons]
        omega

/-- A loop without a quota, as a copy function. -/
theorem copyOneWay_transfers {k : Kind} (hk : k.metered = false) (hc : 0 < k.chunk) (d : Direction)
    {env : ℕ → Turn} (henv : ∀ i, (env i).writeFault = none) {reader : List (Arrival UInt8)}
    {bytes : List UInt8} (h : Presents reader bytes) (user : Option UserStats) (counter : ℕ)
    (dirty : Bool) (now : ℚ) :
    Transfers bytes (copyOneWay k d env true (.start reader user counter dirty now)) := by
  obtain ⟨hclean, rfl⟩ := h
  obtain ⟨h1, h2, h3⟩ := copyLoop_transfers hk hc d henv 0 (.start reader user counter dirty now) hclean
  rw [copyOneWay]
  simp only [h1, if_true]
  constructor
  · split_ifs
    · exact h2.trans (List.nil_append _)
    · exact h2.trans (List.nil_append _)
  · split_ifs
    · exact congrArg some (h3.trans (Nat.zero_add _))
    · exact congrArg some (h3.trans (Nat.zero_add _))

/-! ## A loop with a quota, for a user without one -/

/-- **A metered loop takes the sentinel for an exhausted quota**: for an unlimited user its check
before the first read already ends it, and it writes nothing. -/
theorem copyOneWay_unlimited_user {k : Kind} (hk : k.metered = true) (d : Direction) (env : ℕ → Turn)
    (reader : List (Arrival UInt8)) {u : UserStats} (hu : u.remainingBytes = -1) (counter : ℕ)
    (dirty : Bool) (now : ℚ) :
    copyOneWay k d env true (.start reader (some u) counter dirty now) =
      (some 0, .start reader (some u) counter dirty now) := by
  have hcheck : preReadCheck k (.start reader (some u) counter dirty now) = true := by
    simp [preReadCheck, hk, Copy.start, hu]
  rw [copyOneWay, copyLoop, hcheck, if_pos rfl]
  rfl

theorem transfers_unlimited_user_iff {k : Kind} (hk : k.metered = true) (d : Direction)
    (env : ℕ → Turn) (reader : List (Arrival UInt8)) {u : UserStats} (hu : u.remainingBytes = -1)
    (counter : ℕ) (dirty : Bool) (now : ℚ) (bytes : List UInt8) :
    Transfers bytes (copyOneWay k d env true (.start reader (some u) counter dirty now)) ↔
      bytes = [] := by
  rw [copyOneWay_unlimited_user hk d env reader hu, Transfers]
  constructor
  · rintro ⟨h, -⟩
    exact h.symm
  · rintro rfl
    exact ⟨rfl, rfl⟩

/-- **The three copy functions agree for an unlimited user on the empty input only.** -/
theorem copies_agree_iff {bytes : List UInt8} {r₁ r₂ r₃ : List (Arrival UInt8)}
    (h₁ : Presents r₁ bytes) (_h₂ : Presents r₂ bytes) (_h₃ : Presents r₃ bytes)
    {env₁ env₂ env₃ : ℕ → Turn} (he₁ : Calm env₁) (_he₂ : Calm env₂) (_he₃ : Calm env₃)
    {limit : ℕ} (_hlimit : 0 < limit) {u : UserStats} (hu : u.remainingBytes = -1) (d : Direction)
    (counter : ℕ) (dirty : Bool) (now : ℚ) :
    (Transfers bytes (copyOneWayUnlimited d env₁ true (.start r₁ (some u) counter dirty now)) ∧
      Transfers bytes (copyOneWayFast d env₂ true (.start r₂ (some u) counter dirty now)) ∧
      Transfers bytes
        (copyOneWayRateLimited limit d env₃ true (.start r₃ (some u) counter dirty now))) ↔
      bytes = [] := by
  have hunlimited := copyOneWay_transfers (k := ⟨false, 32768, none⟩) rfl (by decide) d he₁.writes h₁
    (some u) counter dirty now
  rw [copyOneWayFast, copyOneWayRateLimited, transfers_unlimited_user_iff rfl d env₂ r₂ hu,
    transfers_unlimited_user_iff rfl d env₃ r₃ hu, and_self]
  exact ⟨fun h => h.2, fun h => ⟨hunlimited, h⟩⟩

/-- Nothing happens around the loop. -/
def quiet : ℕ → Turn := fun _ => ⟨id, id, id, 0, none, false⟩

theorem calm_quiet : Calm quiet := ⟨fun _ => rfl, fun _ _ h => h, fun _ _ h => h, fun _ _ h => h⟩

/-- An account without a limit. -/
def unlimitedUser : UserStats := ⟨"ad60c2b2-cc0c-492a-89aa-c92330a10cc9", none, 0, -1, 0, 0, -1, 0, 0,
  none, none, none⟩

/-- The theorem on an empty stream. -/
theorem copies_agree_empty :
    Transfers [] (copyOneWayUnlimited .tx quiet true (.start [] (some unlimitedUser) 0 false 0)) ∧
      Transfers [] (copyOneWayFast .tx quiet true (.start [] (some unlimitedUser) 0 false 0)) ∧
      Transfers []
        (copyOneWayRateLimited 10000 .tx quiet true (.start [] (some unlimitedUser) 0 false 0)) :=
  have h : Presents [] [] := ⟨trivial, rfl⟩
  have hlimit : 0 < 10000 := by decide
  have hu : unlimitedUser.remainingBytes = -1 := rfl
  (copies_agree_iff h h h calm_quiet calm_quiet calm_quiet hlimit hu .tx 0 false 0).mpr rfl

/-- **One byte of an unlimited user is lost** by both loops that know a quota. -/
theorem unlimited_byte_dropped :
    Transfers [65] (copyOneWayUnlimited .tx quiet true
      (.start [.data [65]] (some unlimitedUser) 0 false 0)) ∧
    ¬ Transfers [65] (copyOneWayFast .tx quiet true
      (.start [.data [65]] (some unlimitedUser) 0 false 0)) ∧
    ¬ Transfers [65] (copyOneWayRateLimited 10000 .tx quiet true
      (.start [.data [65]] (some unlimitedUser) 0 false 0)) := by
  have h : Presents [.data [65]] [65] := ⟨trivial, rfl⟩
  refine ⟨copyOneWay_transfers rfl (by decide) .tx (fun _ => rfl) h _ 0 false 0, ?_, ?_⟩
  · rw [copyOneWayFast, transfers_unlimited_user_iff rfl _ _ _ rfl]
    decide
  · rw [copyOneWayRateLimited, transfers_unlimited_user_iff rfl _ _ _ rfl]
    decide

end RXCore
