import RXCore.Lib.Run
import RXCore.Outbound.Stream

/-!
# The accounts of a relay

`copy_bidirectional_with_rate_limit` as two copy loops under one `select!`, step by step, with everything that it
has written, committed and reserved. Other connections of the account take their steps in between.

* `Duplex`, `Duplex.step`: the two directions and the account; a direction that is dropped in the middle of a write
  may have passed on a part of it;
* `Half.step_counts`, `Half.step_faults`: what a step of one direction writes, commits and reserves;
* `Duplex.Exact`: the counters have grown by what was written, and so much was reserved;
* `Duplex.EndsSettled`: no direction is cut off with bytes that it has not committed or not written;
* **`accounts_exact_iff`**: a relay that returns leaves exact accounts if and only if it ends settled.
-/

set_option autoImplicit false

namespace RXCore

open Arrivals

/-- The counters of an account. -/
def UserStats.traffic (u : UserStats) : ℕ × ℕ := (u.rx, u.tx)

/-! ## The function -/

/-- A direction at work on the account as it is now. -/
def Half.withUser (h : Half) (user : Option UserStats) : Half := { h with copy := { h.copy with user := user } }

/-- A direction that is dropped: the writer has taken the first `taken` bytes of a write in progress. -/
def Half.cut (h : Half) (taken : ℕ) : Half :=
  match h.phase with
  | .writing allowed bs => { h with copy := { h.copy with written := h.copy.written ++ (bs.take allowed).take taken } }
  | _ => h

/-- The paths of `copy_bidirectional_with_rate_limit`. -/
def duplexKind (speedLimit : Option ℕ) (user : Option UserStats) : Kind :=
  match speedLimit.filter (0 < ·) with
  | some limit => ⟨true, maxChunk limit, some limit⟩
  | none => ⟨user.any fun u => u.remainingBytes != -1, 32768, none⟩

/-- The function while it runs. -/
structure Duplex where
  kind : Kind
  user : Option UserStats
  up : Half
  down : Half
  returned : Bool
  /-- The account had a limit when the function was called. -/
  finite : Bool
  /-- What `reserve_quota` has granted to both directions. -/
  reserved : ℕ
  /-- The counters `rx` and `tx` of the account, without what this function has added. -/
  base : ℕ × ℕ

inductive DuplexEvent where
  /-- A step of a direction. If it makes the function return, the other direction is dropped, whose writer
  has taken the first bytes of a write. -/
  | half (d : Direction) (e : HalfEvent) (taken : ℕ)
  /-- The 15 seconds that the download has after the upload are over. -/
  | drained (taken : ℕ)
  /-- Other tasks add to the counters of the account, and change what remains. -/
  | others (rx tx : ℕ) (remaining : ℤ)

/-- What a step reserves. -/
def HalfEvent.granted (k : Kind) (user : Option UserStats) (h' : Half) : HalfEvent → ℕ
  | .read => if k.metered ∧ user.isSome then h'.outstanding else 0
  | _ => 0

/-- The call. -/
def Duplex.start (speedLimit : Option ℕ) (user : Option UserStats) (inboundRead outboundRead : List (Arrival UInt8))
    (now : ℚ) : Duplex where
  kind := duplexKind speedLimit user
  user := user
  up := .start inboundRead now
  down := .start outboundRead now
  returned := false
  finite := user.any fun u => u.remainingBytes != -1
  reserved := 0
  base := (user.map UserStats.traffic).getD (0, 0)

/-- One step of the function or of its surroundings. -/
def Duplex.step (s : Duplex) : DuplexEvent → Option Duplex
  | .half .tx e taken =>
    if s.returned then none
    else ((s.up.withUser s.user).step s.kind .tx e).map fun (up, _) =>
      let s' := { s with up := up, user := up.copy.user, reserved := s.reserved + e.granted s.kind s.user up }
      -- `res1?`
      if up.phase = .ended false then { s' with returned := true, down := s.down.cut taken } else s'
  | .half .rx e taken =>
    if s.returned then none
    else ((s.down.withUser s.user).step s.kind .rx e).map fun (down, _) =>
      let s' := { s with down := down, user := down.copy.user, reserved := s.reserved + e.granted s.kind s.user down }
      if down.phase = .ended false ∨ down.phase = .ended true then
        { s' with returned := true, up := s.up.cut taken }
      else s'
  | .drained taken =>
    if s.returned = false ∧ s.up.phase = .ended true then
      some { s with returned := true, down := s.down.cut taken }
    else none
  | .others rx tx remaining =>
    if s.returned then none
    else some { s with
      user := s.user.map fun u => { u with rx := u.rx + rx, tx := u.tx + tx, remainingBytes := remaining }
      base := (s.base.1 + rx, s.base.2 + tx) }

/-! ## Exact accounts -/

/-- The counters of the connection and of the account have grown by what was written, and, of a limit, just as
much was reserved. -/
structure Duplex.Exact (s : Duplex) : Prop where
  tx : s.up.copy.connectionCounter = s.up.copy.written.length
  rx : s.down.copy.connectionCounter = s.down.copy.written.length
  user : ∀ u ∈ s.user,
    u.traffic = (s.base.1 + s.down.copy.written.length, s.base.2 + s.up.copy.written.length)
  reserved : s.finite = true → s.reserved = s.up.copy.written.length + s.down.copy.written.length

/-- The event makes the loop fail, or is its last. -/
def Half.Ends (k : Kind) (d : Direction) (h : Half) : HalfEvent → Prop
  | .check => False
  | .read => (recv k.chunk h.copy.reader).1 = none
  | .write _ fault _ => fault.isSome = true
  | .shutdown ok => d = .rx ∨ ok = false

/-- The bytes of its write that a loop that fails has passed on. -/
def HalfEvent.taken : HalfEvent → ℕ
  | .write _ fault _ => fault.getD 0
  | _ => 0

/-- A direction has committed what it has written, and is not cut off in a write; without a limit, a write of which
nothing was passed on does no harm. -/
def Half.Settled (finite : Bool) (h : Half) (taken : ℕ) : Prop :=
  h.copy.accumulatedBytes = 0 ∧ (h.outstanding = 0 ∨ (taken = 0 ∧ finite = false))

/-- If the event makes the function return, both directions are settled before it. -/
def Duplex.EndsSettled (s : Duplex) : DuplexEvent → Prop
  | .half .tx e taken => s.up.Ends s.kind .tx e → s.up.Settled s.finite e.taken ∧ s.down.Settled s.finite taken
  | .half .rx e taken => s.down.Ends s.kind .rx e → s.down.Settled s.finite e.taken ∧ s.up.Settled s.finite taken
  | .drained taken => s.down.Settled s.finite taken
  | .others _ _ _ => True

/-! ## What one direction counts -/

/-- A loop has written `m` bytes and committed `n`. -/
structure Copy.Counts (d : Direction) (c c' : Copy) (m n : ℕ) : Prop where
  written : c'.written.length = c.written.length + m
  conn : c'.connectionCounter = c.connectionCounter + n
  acc : c'.accumulatedBytes + n = c.accumulatedBytes + m
  user : c'.user.map UserStats.traffic = c.user.map fun u => (u.count d n).traffic

section

variable {k : Kind} {d : Direction} {c c₁ c₂ : Copy} {m n m' n' : ℕ}

theorem UserStats.traffic_count_zero (d : Direction) (u : UserStats) : (u.count d 0).traffic = u.traffic := by
  cases d <;> rfl

theorem UserStats.traffic_count_add (d : Direction) (u u' : UserStats) (n n' : ℕ)
    (h : u'.traffic = (u.count d n).traffic) : (u'.count d n').traffic = (u.count d (n + n')).traffic := by
  cases d with
  | rx =>
    obtain ⟨hrx, htx⟩ := Prod.mk.inj h
    simp only [UserStats.traffic, UserStats.count] at hrx htx ⊢
    rw [hrx, htx, Nat.add_assoc]
  | tx =>
    obtain ⟨hrx, htx⟩ := Prod.mk.inj h
    simp only [UserStats.traffic, UserStats.count] at hrx htx ⊢
    rw [hrx, htx, Nat.add_assoc]

theorem Copy.Counts.of_same (hwritten : c₁.written = c.written) (hconn : c₁.connectionCounter = c.connectionCounter)
    (hacc : c₁.accumulatedBytes = c.accumulatedBytes)
    (huser : c₁.user.map UserStats.traffic = c.user.map UserStats.traffic) : c.Counts d c₁ 0 0 := by
  refine ⟨by rw [hwritten, Nat.add_zero], by rw [hconn, Nat.add_zero], by rw [hacc], ?_⟩
  rw [huser]
  cases c.user with
  | none => rfl
  | some u => rw [Option.map_some, Option.map_some, UserStats.traffic_count_zero]

theorem Copy.Counts.trans (h : c.Counts d c₁ m n) (h' : c₁.Counts d c₂ m' n') : c.Counts d c₂ (m + m') (n + n') := by
  refine ⟨by rw [h'.written, h.written, Nat.add_assoc], by rw [h'.conn, h.conn, Nat.add_assoc], ?_, ?_⟩
  · have := h.acc
    have := h'.acc
    omega
  · have huser := h.user
    rw [h'.user]
    cases hc₁ : c₁.user with
    | none =>
      rw [hc₁] at huser
      cases hc : c.user with
      | none => rfl
      | some u =>
        rw [hc] at huser
        cases huser
    | some u₁ =>
      rw [hc₁] at huser
      cases hc : c.user with
      | none =>
        rw [hc] at huser
        cases huser
      | some u =>
        rw [hc] at huser
        rw [Option.map_some, Option.map_some, UserStats.traffic_count_add d u u₁ n n' (Option.some.inj huser)]

theorem Copy.commit_counts (d : Direction) (c : Copy) : c.Counts d (c.commit d) 0 c.accumulatedBytes := by
  refine ⟨rfl, rfl, by simp [Copy.commit], ?_⟩
  rw [Copy.commit, Option.map_map]
  rfl

/-- A loop that ends well leaves nothing behind. -/
theorem Half.finish_counts (d : Direction) (c : Copy) : (Half.finish d c).copy.accumulatedBytes = 0 ∧
    ∃ n, c.Counts d (Half.finish d c).copy 0 n := by
  rw [Half.finish]
  split_ifs with hpos
  · exact ⟨rfl, _, c.commit_counts d⟩
  · exact ⟨by simpa using hpos, 0, .of_same rfl rfl rfl rfl⟩

theorem Copy.reserve_counts (k : Kind) (d : Direction) (c : Copy) (n : ℕ) :
    c.Counts d (c.reserve k n).2 0 0 ∧ (c.reserve k n).1 ≤ n := by
  rw [Copy.reserve]
  split_ifs
  · cases hc : c.user with
    | none => exact ⟨.of_same rfl rfl rfl rfl, le_rfl⟩
    | some u =>
      refine ⟨.of_same rfl rfl rfl ?_, reserveQuota_le u.remainingBytes n⟩
      rw [hc]
      rfl
  · exact ⟨.of_same rfl rfl rfl rfl, le_rfl⟩

/-- A loop has passed on `m` bytes that it counts nowhere. -/
structure Copy.Passes (c c' : Copy) (m : ℕ) : Prop where
  written : c'.written.length = c.written.length + m
  conn : c'.connectionCounter = c.connectionCounter
  acc : c'.accumulatedBytes = c.accumulatedBytes
  user : c'.user.map UserStats.traffic = c.user.map UserStats.traffic

theorem Copy.Passes.of_eq (hm : m = 0) (h : { c₁ with reader := c.reader } = c) : c.Passes c₁ m := by
  subst hm
  rw [← h]
  exact ⟨rfl, rfl, rfl, rfl⟩

theorem Copy.Passes.trans (h : c.Passes c₁ m) (h' : c₁.Passes c₂ m') : c.Passes c₂ (m + m') :=
  ⟨by rw [h'.written, h.written, Nat.add_assoc], h'.conn.trans h.conn, h'.acc.trans h.acc, h'.user.trans h.user⟩

/-- The sleep before a write lets other tasks act, which does not show here. -/
theorem Copy.sleep_passes (k : Kind) (c : Copy) (now : ℚ) (fault : Option ℕ) (commitDue : Bool) (allowed : ℕ) :
    c.Passes (c.sleepBeforeWrite k (writeTurn now fault commitDue) allowed) 0 := by
  rw [Copy.sleepBeforeWrite]
  split
  · exact ⟨rfl, rfl, rfl, rfl⟩
  · dsimp only
    split_ifs
    · refine ⟨rfl, rfl, rfl, ?_⟩
      rw [Copy.meanwhile, writeTurn, Option.map_id]
      rfl
    · exact ⟨rfl, rfl, rfl, rfl⟩
    · exact ⟨rfl, rfl, rfl, rfl⟩

theorem Copy.write_passes (c : Copy) (now : ℚ) (fault : Option ℕ) (commitDue : Bool) (bs : List UInt8) :
    c.Passes (c.write (writeTurn now fault commitDue) bs).1 (min (fault.getD bs.length) bs.length) := by
  rw [Copy.write, writeTurn]
  cases fault with
  | none =>
    refine ⟨?_, rfl, rfl, ?_⟩
    · dsimp only [Copy.meanwhile]
      rw [List.length_append, Option.getD_none, Nat.min_self]
    · dsimp only [Copy.meanwhile]
      rw [Option.map_id]
      rfl
  | some n =>
    refine ⟨?_, rfl, rfl, rfl⟩
    dsimp only
    rw [List.length_append, List.length_take, Option.getD_some]

/-- A write that fails passes on its first bytes, and counts none of them. -/
theorem Copy.forward_fault (k : Kind) (d : Direction) (c : Copy) (now : ℚ) (n : ℕ) (commitDue : Bool) {allowed : ℕ}
    {bs : List UInt8} (hallowed : allowed ≤ bs.length) :
    (c.forward k d (writeTurn now (some n) commitDue) allowed bs).2 = false ∧
      c.Passes (c.forward k d (writeTurn now (some n) commitDue) allowed bs).1 (min n allowed) := by
  have hsleep := c.sleep_passes k now (some n) commitDue allowed
  have hwrite := (c.sleepBeforeWrite k (writeTurn now (some n) commitDue) allowed).write_passes now (some n) commitDue
    (bs.take allowed)
  have h := hsleep.trans hwrite
  rw [List.length_take, Nat.min_eq_left hallowed, Nat.zero_add, Option.getD_some] at h
  exact ⟨rfl, h⟩

/-- What was passed on is accumulated, and maybe committed. -/
theorem Copy.Passes.account (h : c.Passes c₁ m) (t : Turn) : ∃ n, c.Counts d (c₁.account d t m) m n := by
  have hcounts : c.Counts d { c₁ with
      totalBytes := c₁.totalBytes + m, accumulatedBytes := c₁.accumulatedBytes + m } m 0 := by
    refine ⟨h.written, h.conn, ?_, ?_⟩
    · show c₁.accumulatedBytes + m + 0 = c.accumulatedBytes + m
      rw [h.acc, Nat.add_zero]
    · have hsame : c.Counts d { c with user := c₁.user } 0 0 := .of_same rfl rfl rfl h.user
      exact hsame.user
  rw [Copy.account]
  dsimp only
  split_ifs
  · exact ⟨_, hcounts.trans (Copy.commit_counts d _)⟩
  · exact ⟨0, hcounts⟩

/-- A write that succeeds is accumulated, and maybe committed. -/
theorem Copy.forward_counts (k : Kind) (d : Direction) (c : Copy) (now : ℚ) (commitDue : Bool) {allowed : ℕ}
    {bs : List UInt8} (hallowed : allowed ≤ bs.length) :
    (c.forward k d (writeTurn now none commitDue) allowed bs).2 = true ∧
      ∃ n, c.Counts d (c.forward k d (writeTurn now none commitDue) allowed bs).1 allowed n := by
  have hsleep := c.sleep_passes k now none commitDue allowed
  have hwrite := (c.sleepBeforeWrite k (writeTurn now none commitDue) allowed).write_passes now none commitDue
    (bs.take allowed)
  have h := hsleep.trans hwrite
  rw [Option.getD_none, Nat.min_self, List.length_take, Nat.min_eq_left hallowed, Nat.zero_add] at h
  exact ⟨rfl, h.account _⟩

/-! ## One direction step by step -/

/-- What holds of a direction while the function runs. -/
structure Half.Steady (h : Half) : Prop where
  total : h.copy.connectionCounter + h.copy.accumulatedBytes = h.copy.written.length
  closing : h.phase = .closing → h.copy.accumulatedBytes = 0
  ended : ∀ ok, h.phase = .ended ok → h.copy.accumulatedBytes = 0
  piece : ∀ allowed bs, h.phase = .writing allowed bs → 0 < allowed ∧ allowed ≤ bs.length

/-- The result `h'` of a step that does not end the loop. -/
structure Half.Moves (k : Kind) (d : Direction) (h : Half) (e : HalfEvent) (h' : Half) : Prop where
  steady : h'.Steady
  goes : h'.phase ≠ .ended false ∧ (d = .rx → h'.phase ≠ .ended true)
  counts : ∃ m n, h.copy.Counts d h'.copy m n ∧
    (k.metered = true ∧ h.copy.user.isSome = true → m + h'.outstanding = h.outstanding + e.granted k h.copy.user h')

theorem Half.start_steady (reader : List (Arrival UInt8)) (now : ℚ) : (Half.start reader now).Steady :=
  ⟨rfl, fun _ => rfl, fun _ _ => rfl, fun _ _ h => (nomatch h)⟩

theorem Copy.Counts.total (h : c.Counts d c₁ m n)
    (htotal : c.connectionCounter + c.accumulatedBytes = c.written.length) :
    c₁.connectionCounter + c₁.accumulatedBytes = c₁.written.length := by
  have := h.written
  have := h.conn
  have := h.acc
  omega

/-- A loop that ends well is steady. -/
theorem Half.finish_steady (d : Direction) (c : Copy)
    (htotal : c.connectionCounter + c.accumulatedBytes = c.written.length) : (Half.finish d c).Steady := by
  obtain ⟨hacc, n, hcounts⟩ := Half.finish_counts d c
  exact ⟨hcounts.total htotal, fun _ => hacc, fun _ _ => hacc, fun _ _ h => (nomatch h)⟩

theorem Half.finish_moves {h : Half} {e : HalfEvent} (hcounts : h.copy.Counts d c₁ m n) (hsteady : h.Steady)
    (hm : m = h.outstanding) : h.Moves k d e (Half.finish d c₁) := by
  obtain ⟨-, n', hfinish⟩ := Half.finish_counts d c₁
  refine ⟨Half.finish_steady d c₁ (hcounts.total hsteady.total), ⟨nofun, fun _ => nofun⟩,
    m + 0, n + n', hcounts.trans hfinish, fun _ => ?_⟩
  have hgranted : e.granted k h.copy.user (Half.finish d c₁) = 0 := by
    cases e <;> simp [HalfEvent.granted]
  rw [hgranted, Half.finish_outstanding, hm]

/-- **A step of a direction** that goes on: what it has written is committed or accumulated, and of what is
reserved for it the rest is still to be written. -/
theorem Half.step_counts {h h' : Half} {e : HalfEvent} {bytes : List UInt8} (hsteady : h.Steady)
    (hends : ¬ h.Ends k d e) (hs : h.step k d e = some (h', bytes)) : h.Moves k d e h' := by
  cases e with
  | check =>
    obtain ⟨hphase, -, hcheck⟩ := Half.check_cases hs
    have hout : h.outstanding = 0 := by rw [Half.outstanding, hphase]
    obtain ⟨-, rfl⟩ | ⟨-, rfl⟩ := hcheck
    · exact Half.finish_moves (.of_same rfl rfl rfl rfl) hsteady hout.symm
    · exact ⟨⟨hsteady.total, by simp, by simp, by simp⟩, ⟨by simp, by simp⟩, 0, 0, .of_same rfl rfl rfl rfl,
        fun _ => by rw [hout]; rfl⟩
  | read =>
    obtain ⟨hphase, -, hread⟩ := Half.read_cases hs
    have hout : h.outstanding = 0 := by rw [Half.outstanding, hphase]
    obtain ⟨r, hrecv, -⟩ | ⟨r, -, rfl⟩ | ⟨b, bs, r, -, rfl⟩ := hread
    · exact absurd (congrArg Prod.fst hrecv) hends
    · exact Half.finish_moves (.of_same rfl rfl rfl rfl) hsteady hout.symm
    · have hafter : h.copy.Counts d { h.copy with reader := r } 0 0 := .of_same rfl rfl rfl rfl
      obtain ⟨hreserve, hle⟩ := Copy.reserve_counts k d { h.copy with reader := r } (b :: bs).length
      have hcounts := hafter.trans hreserve
      rw [Half.reserve]
      dsimp only
      split_ifs with hzero
      · exact Half.finish_moves hcounts hsteady hout.symm
      · refine ⟨⟨hcounts.total hsteady.total, by simp, by simp, ?_⟩, ⟨by simp, by simp⟩, _, _, hcounts, ?_⟩
        · intro allowed bs' hphase'
          obtain ⟨rfl, rfl⟩ := Phase.writing.inj hphase'
          exact ⟨Nat.pos_of_ne_zero hzero, hle⟩
        · intro hmetered
          rw [HalfEvent.granted, if_pos hmetered, hout]
  | write now fault commitDue =>
    obtain ⟨allowed, bs, c, hphase, rfl, hwrite⟩ := Half.write_cases hs
    have hout : h.outstanding = allowed := by rw [Half.outstanding, hphase]
    obtain ⟨-, hle⟩ := hsteady.piece allowed bs hphase
    obtain ⟨n, rfl, -, -⟩ | ⟨rfl, -, hend⟩ := hwrite
    · exact absurd rfl hends
    · obtain ⟨-, n, hcounts⟩ := Copy.forward_counts k d h.copy now commitDue hle
      obtain ⟨-, rfl⟩ | ⟨-, rfl⟩ := hend
      · exact Half.finish_moves hcounts hsteady hout.symm
      · exact ⟨⟨hcounts.total hsteady.total, by simp, by simp, by simp⟩, ⟨by simp, by simp⟩, _, _, hcounts,
          fun _ => by rw [hout]; rfl⟩
  | shutdown ok =>
    obtain ⟨hphase, -, rfl⟩ := Half.shutdown_cases hs
    obtain ⟨hd, hok⟩ := not_or.mp hends
    obtain rfl := Bool.not_eq_false ok ▸ hok
    have hout : h.outstanding = 0 := by rw [Half.outstanding, hphase]
    exact ⟨⟨hsteady.total, by simp, fun _ _ => hsteady.closing hphase, by simp⟩, ⟨by simp, fun h => absurd h hd⟩, 0, 0,
      .of_same rfl rfl rfl rfl, fun _ => by rw [hout]; rfl⟩

/-- **A step that ends the loop** commits nothing, and a write that fails has passed on its first bytes. -/
theorem Half.step_faults {h h' : Half} {e : HalfEvent} {bytes : List UInt8} (hsteady : h.Steady)
    (hends : h.Ends k d e) (hs : h.step k d e = some (h', bytes)) :
    h.copy.Passes h'.copy (min e.taken h.outstanding) ∧ h'.outstanding = 0 ∧
      (h'.phase = .ended false ∨ (d = .rx ∧ h'.phase = .ended true)) := by
  cases e with
  | check => exact hends.elim
  | read =>
    obtain ⟨-, -, ⟨r, -, rfl⟩ | ⟨r, hrecv, -⟩ | ⟨b, bs, r, hrecv, -⟩⟩ := Half.read_cases hs
    · exact ⟨.of_eq (Nat.zero_min _) rfl, rfl, .inl rfl⟩
    · rw [Half.Ends, hrecv] at hends
      cases hends
    · rw [Half.Ends, hrecv] at hends
      cases hends
  | write now fault commitDue =>
    obtain ⟨allowed, bs, c, hphase, rfl, hwrite⟩ := Half.write_cases hs
    obtain ⟨-, hle⟩ := hsteady.piece allowed bs hphase
    obtain ⟨n, rfl, -, rfl⟩ | ⟨rfl, -, -⟩ := hwrite
    · obtain ⟨-, hpasses⟩ := Copy.forward_fault k d h.copy now n commitDue hle
      have hout : h.outstanding = allowed := by rw [Half.outstanding, hphase]
      refine ⟨?_, rfl, .inl rfl⟩
      rw [hout, HalfEvent.taken, Option.getD_some]
      exact hpasses
    · cases hends
  | shutdown ok =>
    obtain ⟨-, -, rfl⟩ := Half.shutdown_cases hs
    refine ⟨.of_eq (Nat.zero_min _) rfl, rfl, ?_⟩
    obtain hd | hok := hends
    · cases ok with
      | true => exact .inr ⟨hd, rfl⟩
      | false => exact .inl rfl
    · exact .inl (congrArg Phase.ended hok)

/-- A direction that is dropped in a write has passed on a part of it. -/
theorem Half.cut_passes {h : Half} (hsteady : h.Steady) (taken : ℕ) :
    h.copy.Passes (h.cut taken).copy (min taken h.outstanding) := by
  have hout : (∀ allowed bs, h.phase ≠ .writing allowed bs) → min taken h.outstanding = 0 := by
    intro hphase
    rw [Half.outstanding]
    split
    · next allowed bs hwriting => exact absurd hwriting (hphase allowed bs)
    · exact Nat.min_zero taken
  rw [Half.cut]
  split
  · next allowed bs hphase =>
    obtain ⟨-, hle⟩ := hsteady.piece allowed bs hphase
    refine ⟨?_, rfl, rfl, rfl⟩
    dsimp only
    rw [List.length_append, List.length_take, List.length_take, Nat.min_eq_left hle, Half.outstanding, hphase]
  · next hphase => exact .of_eq (hout hphase) rfl

/-- A direction that ends or is dropped, after so many bytes of a write, leaves exact accounts if it is settled. -/
theorem Half.Steady.settled_iff {h : Half} (hsteady : h.Steady) (finite : Bool) (taken : ℕ) :
    h.Settled finite taken ↔ h.copy.connectionCounter = h.copy.written.length + min taken h.outstanding ∧
      (finite = true → min taken h.outstanding = h.outstanding) := by
  have htotal := hsteady.total
  rw [Half.Settled]
  constructor
  · rintro ⟨hacc, hout | ⟨htaken, hfinite⟩⟩
    · exact ⟨by omega, fun _ => by omega⟩
    · exact ⟨by omega, fun h => absurd (hfinite.symm.trans h) nofun⟩
  · rintro ⟨hconn, hreserved⟩
    refine ⟨by omega, ?_⟩
    cases finite with
    | true =>
      have := hreserved rfl
      exact .inl (by omega)
    | false =>
      rcases Nat.eq_zero_or_pos h.outstanding with hout | hout
      · exact .inl hout
      · exact .inr ⟨by omega, rfl⟩

theorem Copy.Counts.isSome (h : c.Counts d c₁ m n) : c₁.user.isSome = c.user.isSome := by
  have := congrArg Option.isSome h.user
  rwa [Option.isSome_map, Option.isSome_map] at this

theorem Copy.Counts.traffic (h : c.Counts d c₁ m n) {p : ℕ × ℕ} (hp : ∀ u ∈ c.user, u.traffic = p) :
    ∀ u ∈ c₁.user, u.traffic = match d with
      | .rx => (p.1 + n, p.2)
      | .tx => (p.1, p.2 + n) := by
  intro u₁ hu₁
  have huser := h.user
  rw [Option.mem_def] at hu₁
  rw [hu₁] at huser
  cases hc : c.user with
  | none =>
    rw [hc] at huser
    cases huser
  | some u =>
    rw [hc] at huser
    rw [Option.some.inj huser]
    have := hp u hc
    cases d with
    | rx => exact congrArg (fun q : ℕ × ℕ => (q.1 + n, q.2)) this
    | tx => exact congrArg (fun q : ℕ × ℕ => (q.1, q.2 + n)) this

end

/-! ## The whole function -/

section

variable {s s' : Duplex}

/-- What holds while the function runs: the counters are those of the two directions, and what is reserved is
written or about to be written. -/
structure Duplex.Running (s : Duplex) : Prop where
  up : s.up.Steady
  down : s.down.Steady
  user : ∀ u ∈ s.user,
    u.traffic = (s.base.1 + s.down.copy.connectionCounter, s.base.2 + s.up.copy.connectionCounter)
  limited : s.finite = true → s.kind.metered = true ∧ s.user.isSome = true
  reserved : s.finite = true → s.reserved =
    s.up.copy.written.length + s.up.outstanding + (s.down.copy.written.length + s.down.outstanding)

theorem Half.Steady.withUser {h : Half} (hsteady : h.Steady) (user : Option UserStats) : (h.withUser user).Steady :=
  ⟨hsteady.total, hsteady.closing, hsteady.ended, hsteady.piece⟩

/-- A step of the upload that goes on. -/
theorem Duplex.Running.moveUp (hs : s.Running) {e : HalfEvent} {up : Half}
    (h : (s.up.withUser s.user).Moves s.kind .tx e up) :
    Duplex.Running { s with
      up := up, user := up.copy.user, reserved := s.reserved + e.granted s.kind s.user up } := by
  obtain ⟨m, n, hcounts, hgranted⟩ := h.counts
  refine ⟨h.steady, hs.down, ?_, ?_, ?_⟩
  · intro u hu
    have hcounters := hcounts.traffic hs.user u hu
    have hconn : up.copy.connectionCounter = s.up.copy.connectionCounter + n := hcounts.conn
    dsimp only at hcounters ⊢
    rw [hcounters, hconn, Nat.add_assoc]
  · intro hfinite
    exact ⟨(hs.limited hfinite).1, hcounts.isSome.trans (hs.limited hfinite).2⟩
  · intro hfinite
    have hreserved := hs.reserved hfinite
    have hwritten : up.copy.written.length = s.up.copy.written.length + m := hcounts.written
    have hgranted : m + up.outstanding = s.up.outstanding + e.granted s.kind s.user up :=
      hgranted (hs.limited hfinite)
    dsimp only
    omega

/-- A step of the download that goes on. -/
theorem Duplex.Running.moveDown (hs : s.Running) {e : HalfEvent} {down : Half}
    (h : (s.down.withUser s.user).Moves s.kind .rx e down) :
    Duplex.Running { s with
      down := down, user := down.copy.user, reserved := s.reserved + e.granted s.kind s.user down } := by
  obtain ⟨m, n, hcounts, hgranted⟩ := h.counts
  refine ⟨hs.up, h.steady, ?_, ?_, ?_⟩
  · intro u hu
    have hcounters := hcounts.traffic hs.user u hu
    have hconn : down.copy.connectionCounter = s.down.copy.connectionCounter + n := hcounts.conn
    dsimp only at hcounters ⊢
    rw [hcounters, hconn, Nat.add_assoc]
  · intro hfinite
    exact ⟨(hs.limited hfinite).1, hcounts.isSome.trans (hs.limited hfinite).2⟩
  · intro hfinite
    have hreserved := hs.reserved hfinite
    have hwritten : down.copy.written.length = s.down.copy.written.length + m := hcounts.written
    have hgranted : m + down.outstanding = s.down.outstanding + e.granted s.kind s.user down :=
      hgranted (hs.limited hfinite)
    dsimp only
    omega

/-- What the two directions leave when the function returns. -/
theorem Duplex.Running.exact_iff (hs : s.Running) {up down : Half} {user user₁ user₂ : Option UserStats}
    {taken taken' : ℕ} (hup : (s.up.withUser user₁).copy.Passes up.copy (min taken s.up.outstanding))
    (hdown : (s.down.withUser user₂).copy.Passes down.copy (min taken' s.down.outstanding))
    (huser : user.map UserStats.traffic = s.user.map UserStats.traffic) :
    Duplex.Exact { s with up := up, down := down, user := user, returned := true } ↔
      s.up.Settled s.finite taken ∧ s.down.Settled s.finite taken' := by
  have hup₁ : up.copy.written.length = s.up.copy.written.length + min taken s.up.outstanding := hup.written
  have hup₂ : up.copy.connectionCounter = s.up.copy.connectionCounter := hup.conn
  have hdown₁ : down.copy.written.length = s.down.copy.written.length + min taken' s.down.outstanding :=
    hdown.written
  have hdown₂ : down.copy.connectionCounter = s.down.copy.connectionCounter := hdown.conn
  rw [hs.up.settled_iff, hs.down.settled_iff]
  constructor
  · intro hexact
    have htx : up.copy.connectionCounter = up.copy.written.length := hexact.tx
    have hrx : down.copy.connectionCounter = down.copy.written.length := hexact.rx
    have hreserved : s.finite = true → min taken s.up.outstanding = s.up.outstanding ∧
        min taken' s.down.outstanding = s.down.outstanding := by
      intro hfinite
      have hsum : s.reserved = up.copy.written.length + down.copy.written.length := hexact.reserved hfinite
      have := hs.reserved hfinite
      omega
    exact ⟨⟨by omega, fun hfinite => (hreserved hfinite).1⟩, ⟨by omega, fun hfinite => (hreserved hfinite).2⟩⟩
  · rintro ⟨⟨htx, hupReserved⟩, ⟨hrx, hdownReserved⟩⟩
    refine ⟨by dsimp only; omega, by dsimp only; omega, ?_, ?_⟩
    · intro u hu
      dsimp only at hu ⊢
      rw [Option.mem_def] at hu
      rw [hu] at huser
      cases hu' : s.user with
      | none =>
        rw [hu'] at huser
        cases huser
      | some u' =>
        rw [hu'] at huser
        rw [Option.some.inj huser, hs.user u' hu', hup₁, hdown₁, htx, hrx]
    · intro hfinite
      have := hupReserved hfinite
      have := hdownReserved hfinite
      have := hs.reserved hfinite
      dsimp only
      omega

/-- A step that ends a loop reserves nothing. -/
theorem HalfEvent.granted_of_ends {k : Kind} {h' : Half} {e : HalfEvent} {user : Option UserStats}
    (hout : h'.outstanding = 0) : e.granted k user h' = 0 := by
  cases e with
  | check => rfl
  | read => rw [HalfEvent.granted, hout, ite_self]
  | write _ _ _ => rfl
  | shutdown _ => rfl

/-- **One step**: the function runs on, or returns with accounts that are exact if both directions were settled. -/
theorem Duplex.Running.step (hs : s.Running) {e : DuplexEvent} (hstep : s.step e = some s') :
    (s'.returned = s.returned ∧ s'.Running ∧ s.EndsSettled e) ∨
      (s'.returned = true ∧ (s'.Exact ↔ s.EndsSettled e)) := by
  cases e with
  | half d e taken =>
    cases d with
    | tx =>
      simp only [Duplex.step] at hstep
      split_ifs at hstep with hreturned
      obtain ⟨⟨up, bytes⟩, hhalf, rfl⟩ := Option.map_eq_some_iff.mp hstep
      by_cases hends : s.up.Ends s.kind .tx e
      · obtain ⟨hpasses, hout, hphase⟩ := Half.step_faults (hs.up.withUser s.user) hends hhalf
        have hfault : up.phase = .ended false := hphase.resolve_right fun h => nomatch h.1
        have hexact := hs.exact_iff hpasses (Half.cut_passes hs.down taken) hpasses.user
        rw [if_pos hfault, HalfEvent.granted_of_ends hout]
        exact .inr ⟨rfl, hexact.trans ⟨fun h _ => h, fun h => h hends⟩⟩
      · have hmoves := Half.step_counts (hs.up.withUser s.user) hends hhalf
        rw [if_neg hmoves.goes.1]
        exact .inl ⟨rfl, hs.moveUp hmoves, fun h => absurd h hends⟩
    | rx =>
      simp only [Duplex.step] at hstep
      split_ifs at hstep with hreturned
      obtain ⟨⟨down, bytes⟩, hhalf, rfl⟩ := Option.map_eq_some_iff.mp hstep
      by_cases hends : s.down.Ends s.kind .rx e
      · obtain ⟨hpasses, hout, hphase⟩ := Half.step_faults (hs.down.withUser s.user) hends hhalf
        have hended : down.phase = .ended false ∨ down.phase = .ended true := hphase.imp_right And.right
        have hexact := hs.exact_iff (Half.cut_passes hs.up taken) hpasses hpasses.user
        rw [if_pos hended, HalfEvent.granted_of_ends hout]
        exact .inr ⟨rfl, hexact.trans ⟨fun h _ => h.symm, fun h => (h hends).symm⟩⟩
      · have hmoves := Half.step_counts (hs.down.withUser s.user) hends hhalf
        rw [if_neg (not_or.mpr ⟨hmoves.goes.1, hmoves.goes.2 rfl⟩)]
        exact .inl ⟨rfl, hs.moveDown hmoves, fun h => absurd h hends⟩
  | drained taken =>
    simp only [Duplex.step] at hstep
    split_ifs at hstep with hdrained
    obtain rfl := Option.some.inj hstep
    have hacc : s.up.copy.accumulatedBytes = 0 := hs.up.ended true hdrained.2
    have hout : s.up.outstanding = 0 := by rw [Half.outstanding, hdrained.2]
    have hnone : (s.up.withUser s.up.copy.user).copy.Passes s.up.copy (min 0 s.up.outstanding) :=
      .of_eq (Nat.zero_min _) rfl
    have hexact := hs.exact_iff hnone (Half.cut_passes hs.down taken) rfl
    exact .inr ⟨rfl, hexact.trans (and_iff_right ⟨hacc, .inl hout⟩)⟩
  | others rx tx remaining =>
    simp only [Duplex.step] at hstep
    split_ifs at hstep with hreturned
    obtain rfl := Option.some.inj hstep
    refine .inl ⟨rfl, ⟨hs.up, hs.down, ?_, ?_, hs.reserved⟩, trivial⟩
    · intro u hu
      obtain ⟨u', hu', rfl⟩ := Option.map_eq_some_iff.mp hu
      obtain ⟨hrx, htx⟩ := Prod.mk.inj (hs.user u' hu')
      refine Prod.ext ?_ ?_
      · show u'.rx + rx = s.base.1 + rx + s.down.copy.connectionCounter
        omega
      · show u'.tx + tx = s.base.2 + tx + s.up.copy.connectionCounter
        omega
    · intro hfinite
      exact ⟨(hs.limited hfinite).1, (Option.isSome_map ..).trans (hs.limited hfinite).2⟩

/-- The function starts with nothing counted and nothing reserved. -/
theorem Duplex.start_running (speedLimit : Option ℕ) (user : Option UserStats)
    (inboundRead outboundRead : List (Arrival UInt8)) (now : ℚ) :
    (Duplex.start speedLimit user inboundRead outboundRead now).Running := by
  refine ⟨Half.start_steady _ _, Half.start_steady _ _, ?_, ?_, fun _ => rfl⟩
  · intro u hu
    obtain rfl : user = some u := hu
    rfl
  · intro hfinite
    cases user with
    | none => cases hfinite
    | some u =>
      refine ⟨?_, rfl⟩
      show (duplexKind speedLimit (some u)).metered = true
      rw [duplexKind]
      split
      · rfl
      · exact hfinite

theorem Duplex.step_returned {e : DuplexEvent} (hstep : s.step e = some s') : s.returned = false := by
  cases hreturned : s.returned with
  | false => rfl
  | true =>
    cases e with
    | half d e taken => cases d <;> simp [Duplex.step, hreturned] at hstep
    | drained taken => simp [Duplex.step, hreturned] at hstep
    | others rx tx remaining => simp [Duplex.step, hreturned] at hstep

/-- **The accounts of a relay.** In a run on any of the three paths, with any limit and any steps of other
connections in between, the accounts are exact when the function returns if and only if both directions are settled
before the event that makes it return. -/
theorem accounts_exact_iff (speedLimit : Option ℕ) (user : Option UserStats)
    (inboundRead outboundRead : List (Arrival UInt8)) (now : ℚ) (events : List DuplexEvent) :
    Run.Always Duplex.step (fun s => s.returned = true → s.Exact)
        (Duplex.start speedLimit user inboundRead outboundRead now) events ↔
      Run.Meets Duplex.step Duplex.EndsSettled (Duplex.start speedLimit user inboundRead outboundRead now) events := by
  refine Run.always_iff_meets (I := fun s => s.returned = false → s.Running) ?_ ?_ ?_ nofun events
  · intro s e s' hs _ _ hstep hreturned
    obtain ⟨-, hs', -⟩ | ⟨hs', -⟩ := (hs (Duplex.step_returned hstep)).step hstep
    · exact hs'
    · exact absurd (hs'.symm.trans hreturned) nofun
  · intro s e s' hs _ hstep
    have hreturned := Duplex.step_returned hstep
    obtain ⟨hs', -, hsettled⟩ | ⟨hs', hexact⟩ := (hs hreturned).step hstep
    · exact ⟨fun _ => hsettled, fun _ h => absurd (h.symm.trans (hs'.trans hreturned)) nofun⟩
    · exact ⟨fun h => hexact.mp (h hs'), fun h _ => hexact.mpr h⟩
  · exact fun _ => Duplex.start_running speedLimit user inboundRead outboundRead now

/-- An account with 100 bytes left sends three and the target ends: the bytes are reserved and passed on, and neither
the connection nor the account counts them. -/
theorem accounts_lost : ¬ ∀ (speedLimit : Option ℕ) (user : Option UserStats)
    (inboundRead outboundRead : List (Arrival UInt8)) (now : ℚ) (events : List DuplexEvent),
    Run.Always Duplex.step (fun s => s.returned = true → s.Exact)
      (Duplex.start speedLimit user inboundRead outboundRead now) events := by
  intro h
  have hrun := h none (some ⟨"1", none, 0, 0, 0, 0, 100, 0, 0, none, none, none⟩) [.data [71, 69, 84], .fault] [] 0
    [.half .tx .check 0, .half .tx .read 0, .half .tx (.write 0 none false) 0, .half .rx .check 0, .half .rx .read 0,
      .half .rx (.shutdown true) 0]
  have hexact := (hrun.last rfl rfl).tx
  exact absurd hexact (by decide)

end

end RXCore
