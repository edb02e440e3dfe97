import RXCore.Outbound.Accounting

/-!
# A copy loop with a quota to itself

`copy_one_way_fast` and `copy_one_way_rate_limited` step by step, while other tasks add to the counters of the user and
leave its quota alone. The counters are committed now and then, and the quota is reserved read by read.

* `MeteredCopy`, `MeteredCopy.step`: the loop beside the other tasks;
* `allowance`: how much of an input the quota allows;
* `MeteredCopy.Accounted`: as much of the input is written, returned as the total, and counted;
* `Copy.Ledger`: what is written, held, committed and left adds up, with `Ledger.move` for every operation of the loop;
* `MeteredCopy.Kept`: what holds along a run;
* **`metered_accounted`**: a loop that returns `Ok` leaves exact accounts, whenever it has committed.
-/

set_option autoImplicit false

namespace RXCore

open Arrivals

/-! ## The loop and its surroundings -/

/-- A copy loop, and the counters `rx` and `tx` of its user without what the loop has added. -/
structure MeteredCopy where
  half : Half
  base : ℕ × ℕ

inductive MeteredEvent where
  | half (e : HalfEvent)
  /-- Other tasks add to the counters of the user. -/
  | others (rx tx : ℕ)

/-- The call, with what the counter of the connection holds. -/
def MeteredCopy.start (reader : List (Arrival UInt8)) (user : Option UserStats) (connectionCounter : ℕ) (dirty : Bool)
    (now : ℚ) : MeteredCopy :=
  ⟨⟨.start reader user connectionCounter dirty now, .checking⟩, (user.map UserStats.traffic).getD (0, 0)⟩

def MeteredCopy.step (k : Kind) (d : Direction) (s : MeteredCopy) : MeteredEvent → Option MeteredCopy
  | .half e => (s.half.step k d e).map fun (half, _) => { s with half := half }
  | .others rx tx => some
    { half := s.half.withUser (s.half.copy.user.map fun u => { u with rx := u.rx + rx, tx := u.tx + tx })
      base := (s.base.1 + rx, s.base.2 + tx) }

/-- How many of `n` bytes the quota of the user allows. -/
def allowance (user : Option UserStats) (n : ℕ) : ℕ :=
  match user with
  | none => n
  | some u => min n u.remainingBytes.toNat

/-- The counters `rx` and `tx` when `n` bytes more have gone in a direction. -/
def Direction.add (d : Direction) (traffic : ℕ × ℕ) (n : ℕ) : ℕ × ℕ :=
  match d with
  | .rx => (traffic.1 + n, traffic.2)
  | .tx => (traffic.1, traffic.2 + n)

/-- As much of the input as the quota allows is written and returned as the total, and the counters of the connection
and of the user have grown by that. -/
structure MeteredCopy.Accounted (d : Direction) (input : List UInt8) (user : Option UserStats) (connectionCounter : ℕ)
    (s : MeteredCopy) : Prop where
  written : s.half.copy.written = input.take (allowance user input.length)
  total : s.half.copy.totalBytes = allowance user input.length
  connection : s.half.copy.connectionCounter = connectionCounter + allowance user input.length
  user : s.half.copy.user.map UserStats.traffic = user.map fun _ => d.add s.base (allowance user input.length)

/-! ## The ledger -/

/-- The quota of an account before `n` bytes of it were reserved. -/
def UserStats.before (u : UserStats) (n : ℕ) : ℤ := u.remainingBytes + n

/-- What holds of the state of a loop that has reserved `held` bytes and not written them: the total and the counters
are what is written, but for what is accumulated, and what is written, held and left is the quota. -/
structure Copy.Ledger (d : Direction) (user : Option UserStats) (connectionCounter : ℕ) (base : ℕ × ℕ) (held : ℕ)
    (c : Copy) : Prop where
  total : c.totalBytes = c.written.length
  connection : c.connectionCounter + c.accumulatedBytes = connectionCounter + c.written.length
  accumulated : c.accumulatedBytes ≤ c.written.length
  traffic : ∀ u ∈ c.user, u.traffic = d.add base (c.written.length - c.accumulatedBytes)
  quota : c.user.map (·.before (c.written.length + held)) = user.map (·.remainingBytes)
  solvent : ∀ u ∈ c.user, 0 ≤ u.remainingBytes

section

variable {k : Kind} {d : Direction} {user : Option UserStats} {conn m n held held' : ℕ} {base : ℕ × ℕ} {c c' : Copy}

/-- **An operation of the loop**, in terms of what it writes, commits and reserves. -/
theorem Copy.Ledger.move (h : c.Ledger d user conn base held) (hcounts : c.Counts d c' m n)
    (htotal : c'.totalBytes = c.totalBytes + m)
    (hquota : c'.user.map (·.before (m + held')) = c.user.map (·.before held))
    (hsolvent : ∀ u ∈ c'.user, 0 ≤ u.remainingBytes) : c'.Ledger d user conn base held' := by
  have hwritten := hcounts.written
  have hconn := hcounts.conn
  have hacc := hcounts.acc
  have hle := h.accumulated
  refine ⟨by rw [htotal, hwritten, h.total], ?_, by omega, fun u hu => ?_, ?_, hsolvent⟩
  · have := h.connection
    omega
  · have hadd := hcounts.traffic h.traffic u hu
    have hsub : c'.written.length - c'.accumulatedBytes = c.written.length - c.accumulatedBytes + n := by omega
    rw [hadd, hsub]
    cases d <;> simp only [Direction.add, Nat.add_assoc]
  · have hshift : ∀ (o : Option UserStats) (i : ℕ), o.map (·.before (c.written.length + i)) =
        (o.map (·.before i)).map (· + (c.written.length : ℤ)) := by
      intro o i
      rw [Option.map_map]
      refine congrArg (Option.map · o) (funext fun u => ?_)
      simp only [Function.comp_apply, UserStats.before]
      push_cast
      ring
    rw [hwritten, Nat.add_assoc, hshift, hquota, ← hshift, h.quota]

theorem solvent_of_map {o o' : Option UserStats} (h : o'.map (·.remainingBytes) = o.map (·.remainingBytes))
    (hsolvent : ∀ u ∈ o, 0 ≤ u.remainingBytes) : ∀ u ∈ o', 0 ≤ u.remainingBytes := by
  intro u hu
  rw [Option.mem_def.mp hu, Option.map_some] at h
  obtain ⟨u', hu', hsame⟩ := Option.map_eq_some_iff.mp h.symm
  rw [← hsame]
  exact hsolvent u' hu'

/-- An operation that does not touch the quota. -/
theorem Copy.Ledger.same (h : c.Ledger d user conn base held) (hcounts : c.Counts d c' m n)
    (htotal : c'.totalBytes = c.totalBytes + m)
    (hremaining : c'.user.map (·.remainingBytes) = c.user.map (·.remainingBytes)) (hheld : m + held' = held) :
    c'.Ledger d user conn base held' := by
  refine h.move hcounts htotal ?_ (solvent_of_map hremaining h.solvent)
  have hbefore : ∀ o : Option UserStats, o.map (·.before held) = (o.map (·.remainingBytes)).map (· + (held : ℤ)) := by
    intro o
    rw [Option.map_map]
    rfl
  rw [hheld, hbefore, hbefore, hremaining]

/-- The last commit moves counters only. -/
theorem Half.finish_fields (d : Direction) (c : Copy) : (Half.finish d c).copy.written = c.written ∧
    (Half.finish d c).copy.totalBytes = c.totalBytes ∧
      (Half.finish d c).copy.user.map (·.remainingBytes) = c.user.map (·.remainingBytes) := by
  rw [Half.finish]
  split_ifs
  · refine ⟨rfl, rfl, ?_⟩
    rw [Copy.commit, Option.map_map]
    exact congrArg (Option.map · c.user) (funext fun u => u.count_remainingBytes d _)
  · exact ⟨rfl, rfl, rfl⟩

theorem Copy.Ledger.finish (h : c.Ledger d user conn base 0) : (Half.finish d c).copy.Ledger d user conn base 0 := by
  obtain ⟨-, n, hcounts⟩ := Half.finish_counts d c
  obtain ⟨-, htotal, hremaining⟩ := Half.finish_fields d c
  exact h.same hcounts htotal hremaining rfl

/-- A write that succeeds takes nothing from the quota. -/
theorem Copy.forward_remaining (k : Kind) (d : Direction) (c : Copy) (now : ℚ) (commitDue : Bool) {allowed : ℕ}
    {bs : List UInt8} (hallowed : allowed ≤ bs.length) :
    (c.forward k d (writeTurn now none commitDue) allowed bs).1.user.map (·.remainingBytes) =
      c.user.map (·.remainingBytes) := by
  cases hc : c.user with
  | none =>
    obtain ⟨-, n, hcounts⟩ := c.forward_counts k d now commitDue hallowed
    have hsome := hcounts.isSome
    rw [hc, Option.isSome_none, Option.isSome_eq_false_iff, Option.isNone_iff_eq_none] at hsome
    rw [hsome]
  | some u =>
    obtain ⟨u', hu', hsame⟩ := Copy.forward_user k d now none commitDue hc allowed bs
    rw [hu', Option.map_some, Option.map_some, hsame]

/-- **A write** of what was reserved. -/
theorem Copy.Ledger.forward {allowed : ℕ} {bs : List UInt8} (h : c.Ledger d user conn base allowed) (k : Kind) (now : ℚ)
    (commitDue : Bool) (hallowed : allowed ≤ bs.length) :
    (c.forward k d (writeTurn now none commitDue) allowed bs).1.Ledger d user conn base 0 := by
  obtain ⟨-, n, hcounts⟩ := c.forward_counts k d now commitDue hallowed
  obtain ⟨-, -, htotal⟩ := Copy.forward_ok k d (t := writeTurn now none commitDue) c allowed bs rfl
  exact h.same hcounts htotal (c.forward_remaining k d now commitDue hallowed) (Nat.add_zero _)

theorem Copy.reserve_written (k : Kind) (c : Copy) (n : ℕ) : (c.reserve k n).2.written = c.written := by
  unfold Copy.reserve
  split
  · split <;> rfl
  · rfl

/-- **A reservation**: what is allowed is held; if it is not all that was asked for, nothing of the quota is left. -/
theorem Copy.Ledger.reserve (h : c.Ledger d user conn base 0) (hk : k.metered = true) (n : ℕ) :
    (c.reserve k n).2.Ledger d user conn base (c.reserve k n).1 ∧
      ((c.reserve k n).1 < n → ∃ u ∈ (c.reserve k n).2.user, u.remainingBytes = 0) := by
  obtain ⟨hcounts, -⟩ := c.reserve_counts k d n
  rw [Copy.reserve, if_pos hk] at hcounts ⊢
  cases hc : c.user with
  | none =>
    rw [hc] at hcounts
    refine ⟨h.move hcounts rfl ?_ h.solvent, fun hlt => absurd hlt (lt_irrefl n)⟩
    dsimp only
    rw [hc]
    rfl
  | some u =>
    have hu := h.solvent u hc
    rw [hc] at hcounts
    dsimp only at hcounts ⊢
    rw [reserveQuota_alone hu] at hcounts ⊢
    dsimp only at hcounts ⊢
    refine ⟨h.move hcounts rfl ?_ ?_, fun hlt => ⟨_, rfl, ?_⟩⟩
    · rw [hc]
      simp [UserStats.before]
    · intro u' hu'
      obtain rfl := Option.some.inj hu'
      dsimp only
      omega
    · dsimp only
      omega

end

/-! ## The input -/

section

variable {k : Kind} {d : Direction} {user : Option UserStats} {conn held : ℕ} {base : ℕ × ℕ} {c c' : Copy}
  {input : List UInt8} {h h' : Half}

/-- All of the input is written, or as much of it as the quota allowed. -/
def Copy.Done (input : List UInt8) (c : Copy) : Prop :=
  c.written = input ∨ (c.written <+: input ∧ ∃ u ∈ c.user, u.remainingBytes = 0)

/-- What a loop has written, has read and has yet to read is the input, until it is done; what it has read is reserved,
but for what the quota did not allow. -/
def Half.Carries (input : List UInt8) (h : Half) : Prop :=
  match h.phase with
  | .checking => h.copy.written ++ content h.copy.reader = input
  | .reading => h.copy.written ++ content h.copy.reader = input
  | .writing allowed bs => 0 < allowed ∧ allowed ≤ bs.length ∧
      h.copy.written ++ (bs ++ content h.copy.reader) = input ∧
        (allowed < bs.length → ∃ u ∈ h.copy.user, u.remainingBytes = 0)
  | .closing => h.copy.accumulatedBytes = 0 ∧ h.copy.Done input
  | .ended _ => h.copy.accumulatedBytes = 0 ∧ h.copy.Done input

theorem exists_zero_of_map {o o' : Option UserStats} (h : o'.map (·.remainingBytes) = o.map (·.remainingBytes))
    (hzero : ∃ u ∈ o, u.remainingBytes = 0) : ∃ u ∈ o', u.remainingBytes = 0 := by
  obtain ⟨u, hu, hrem⟩ := hzero
  rw [Option.mem_def.mp hu, Option.map_some] at h
  obtain ⟨u', hu', hsame⟩ := Option.map_eq_some_iff.mp h
  exact ⟨u', hu', hsame.trans hrem⟩

theorem Copy.Done.of_same (hdone : c.Done input) (hwritten : c'.written = c.written)
    (hremaining : c'.user.map (·.remainingBytes) = c.user.map (·.remainingBytes)) : c'.Done input := by
  rw [Copy.Done, hwritten]
  exact hdone.imp_right fun h => ⟨h.1, exists_zero_of_map hremaining h.2⟩

/-- A loop that is done comes to its last commit. -/
theorem Half.finish_carries (hdone : c.Done input) : (Half.finish d c).Carries input := by
  obtain ⟨hacc, -⟩ := Half.finish_counts d c
  obtain ⟨hwritten, -, hremaining⟩ := Half.finish_fields d c
  have hphase : (Half.finish d c).phase = .closing := rfl
  rw [Half.Carries, hphase]
  exact ⟨hacc, hdone.of_same hwritten hremaining⟩

/-- What holds along a run of the loop, as long as it has not failed. -/
def Half.Kept (d : Direction) (input : List UInt8) (user : Option UserStats) (conn : ℕ) (base : ℕ × ℕ) (h : Half) :
    Prop :=
  h.phase ≠ .ended false → h.copy.Ledger d user conn base h.outstanding ∧ h.Carries input

/-- The check before a read. -/
theorem Half.Kept.check (hkept : h.Kept d input user conn base) {bytes : List UInt8}
    (hs : h.step k d .check = some (h', bytes)) : h'.Kept d input user conn base := by
  obtain ⟨hphase, -, hcheck⟩ := Half.check_cases hs
  obtain ⟨hledger, hcarries⟩ := hkept (by simp [hphase])
  rw [Half.outstanding, hphase] at hledger
  rw [Half.Carries, hphase] at hcarries
  intro _
  obtain ⟨hcheck, rfl⟩ | ⟨-, rfl⟩ := hcheck
  · refine ⟨hledger.finish, Half.finish_carries (.inr ⟨⟨_, hcarries⟩, ?_⟩)⟩
    -- the quota is used up
    cases hu : h.copy.user with
    | none => simp [preReadCheck, hu] at hcheck
    | some u =>
      have hsolvent := hledger.solvent u hu
      have hle : u.remainingBytes ≤ 0 := by
        simp only [preReadCheck, hu, Bool.and_eq_true, decide_eq_true_eq] at hcheck
        exact hcheck.2
      exact ⟨u, rfl, le_antisymm hle hsolvent⟩
  · exact ⟨hledger, hcarries⟩

/-- A read, and its reservation. -/
theorem Half.Kept.read (hk : k.metered = true) (hchunk : 0 < k.chunk) (hkept : h.Kept d input user conn base)
    {bytes : List UInt8} (hs : h.step k d .read = some (h', bytes)) : h'.Kept d input user conn base := by
  obtain ⟨hphase, -, hread⟩ := Half.read_cases hs
  obtain ⟨hledger, hcarries⟩ := hkept (by simp [hphase])
  rw [Half.outstanding, hphase] at hledger
  rw [Half.Carries, hphase] at hcarries
  have hafter : ∀ r, Copy.Ledger d user conn base 0 { h.copy with reader := r } := fun r =>
    ⟨hledger.total, hledger.connection, hledger.accumulated, hledger.traffic, hledger.quota, hledger.solvent⟩
  obtain ⟨r, -, rfl⟩ | ⟨r, hrecv, rfl⟩ | ⟨b, bs, r, hrecv, rfl⟩ := hread
  · exact fun hne => absurd rfl hne
  · rw [content_of_recv_nil hchunk (.inr rfl) hrecv, List.append_nil] at hcarries
    exact fun _ => ⟨(hafter r).finish, Half.finish_carries (.inl hcarries)⟩
  · obtain ⟨hreserved, hcut⟩ := (hafter r).reserve hk (b :: bs).length
    obtain ⟨hcounts, hle⟩ := Copy.reserve_counts k d { h.copy with reader := r } (b :: bs).length
    have hreader := Copy.reserve_reader k { h.copy with reader := r } (b :: bs).length
    have hwritten := Copy.reserve_written k { h.copy with reader := r } (b :: bs).length
    rw [recv_content hrecv] at hcarries
    intro _
    rw [Half.reserve]
    dsimp only
    split_ifs with hzero
    · rw [hzero] at hreserved hcut
      refine ⟨hreserved.finish, Half.finish_carries (.inr ⟨⟨b :: bs ++ content r, ?_⟩, hcut (Nat.succ_pos _)⟩)⟩
      rw [hwritten]
      exact hcarries
    · refine ⟨hreserved, Nat.pos_of_ne_zero hzero, hle, ?_, hcut⟩
      dsimp only
      rw [hwritten, hreader]
      exact hcarries

/-- A write, and the commit that may follow it. -/
theorem Half.Kept.write (hkept : h.Kept d input user conn base) {now : ℚ} {fault : Option ℕ} {commitDue : Bool}
    {bytes : List UInt8} (hs : h.step k d (.write now fault commitDue) = some (h', bytes)) :
    h'.Kept d input user conn base := by
  obtain ⟨allowed, bs, c, hphase, rfl, hwrite⟩ := Half.write_cases hs
  obtain ⟨hledger, hcarries⟩ := hkept (by simp [hphase])
  rw [Half.outstanding, hphase] at hledger
  rw [Half.Carries, hphase] at hcarries
  obtain ⟨-, hle, hcarries, hcut⟩ := hcarries
  obtain ⟨n, -, -, rfl⟩ | ⟨rfl, -, hend⟩ := hwrite
  · exact fun hne => absurd rfl hne
  · have hforward := hledger.forward k now commitDue hle
    have hremaining := h.copy.forward_remaining k d now commitDue hle
    have hreader := Copy.forward_reader k d (writeTurn now none commitDue) h.copy allowed bs
    obtain ⟨-, hwritten, -⟩ := Copy.forward_ok k d (t := writeTurn now none commitDue) h.copy allowed bs rfl
    intro _
    obtain ⟨hlt, rfl⟩ | ⟨hall, rfl⟩ := hend
    · refine ⟨hforward.finish, Half.finish_carries (.inr ⟨⟨bs.drop allowed ++ content h.copy.reader, ?_⟩,
        exists_zero_of_map hremaining (hcut hlt)⟩)⟩
      rw [hwritten, List.append_assoc, ← List.append_assoc (bs.take allowed), List.take_append_drop]
      exact hcarries
    · refine ⟨hforward, ?_⟩
      rw [Half.Carries]
      dsimp only
      rw [hwritten, hreader, List.take_of_length_le hall, List.append_assoc]
      exact hcarries

/-- **A step of the loop** keeps all this. -/
theorem Half.Kept.step (hk : k.metered = true) (hchunk : 0 < k.chunk) (hkept : h.Kept d input user conn base)
    {e : HalfEvent} {bytes : List UInt8} (hs : h.step k d e = some (h', bytes)) : h'.Kept d input user conn base := by
  cases e with
  | check => exact hkept.check hs
  | read => exact hkept.read hk hchunk hs
  | write now fault commitDue => exact hkept.write hs
  | shutdown ok =>
    obtain ⟨hphase, -, rfl⟩ := Half.shutdown_cases hs
    obtain ⟨hledger, hcarries⟩ := hkept (by simp [hphase])
    rw [Half.outstanding, hphase] at hledger
    rw [Half.Carries, hphase] at hcarries
    exact fun _ => ⟨hledger, hcarries⟩

/-- A change of the counters of the user changes nothing of what the loop carries. -/
theorem Half.Carries.withUser (hcarries : h.Carries input) {o : Option UserStats}
    (hremaining : o.map (·.remainingBytes) = h.copy.user.map (·.remainingBytes)) : (h.withUser o).Carries input := by
  have hphase : (h.withUser o).phase = h.phase := rfl
  have hdone : h.copy.Done input → (h.withUser o).copy.Done input := fun hdone => hdone.of_same rfl hremaining
  rw [Half.Carries] at hcarries ⊢
  rw [hphase]
  cases hp : h.phase with
  | checking =>
    rw [hp] at hcarries
    exact hcarries
  | reading =>
    rw [hp] at hcarries
    exact hcarries
  | writing allowed bs =>
    rw [hp] at hcarries
    obtain ⟨hpos, hle, hcarries, hcut⟩ := hcarries
    exact ⟨hpos, hle, hcarries, fun hlt => exists_zero_of_map hremaining (hcut hlt)⟩
  | closing =>
    rw [hp] at hcarries
    exact ⟨hcarries.1, hdone hcarries.2⟩
  | ended ok =>
    rw [hp] at hcarries
    exact ⟨hcarries.1, hdone hcarries.2⟩

/-- Bytes that other tasks count are none of the loop's. -/
theorem Copy.Ledger.others (hledger : c.Ledger d user conn base held) (rx tx : ℕ) :
    Copy.Ledger d user conn (base.1 + rx, base.2 + tx) held
      { c with user := c.user.map fun u => { u with rx := u.rx + rx, tx := u.tx + tx } } := by
  have hremaining : (c.user.map fun u => { u with rx := u.rx + rx, tx := u.tx + tx }).map (·.remainingBytes) =
      c.user.map (·.remainingBytes) := by
    rw [Option.map_map]
    rfl
  refine ⟨hledger.total, hledger.connection, hledger.accumulated, fun u hu => ?_, ?_,
    solvent_of_map hremaining hledger.solvent⟩
  · obtain ⟨u', hu', rfl⟩ := Option.map_eq_some_iff.mp hu
    have htraffic := hledger.traffic u' hu'
    have hrx := congrArg Prod.fst htraffic
    have htx := congrArg Prod.snd htraffic
    cases d with
    | rx =>
      refine Prod.ext ?_ (congrArg (· + tx) htx)
      exact (congrArg (· + rx) hrx).trans (Nat.add_right_comm _ _ _)
    | tx =>
      refine Prod.ext (congrArg (· + rx) hrx) ?_
      exact (congrArg (· + tx) htx).trans (Nat.add_right_comm _ _ _)
  · rw [← hledger.quota]
    exact Option.map_map ..

theorem Half.Kept.others (hkept : h.Kept d input user conn base) (rx tx : ℕ) :
    (h.withUser (h.copy.user.map fun u => { u with rx := u.rx + rx, tx := u.tx + tx })).Kept d input user conn
      (base.1 + rx, base.2 + tx) := by
  intro hne
  obtain ⟨hledger, hcarries⟩ := hkept hne
  refine ⟨hledger.others rx tx, hcarries.withUser ?_⟩
  rw [Option.map_map]
  rfl

/-- **A loop that is done** has written what the quota grants. -/
theorem Copy.Done.allowance (hdone : c.Done input) (hledger : c.Ledger d user conn base 0) :
    allowance user input.length = c.written.length ∧ c.written = input.take c.written.length := by
  have hquota := hledger.quota
  have hsolvent := hledger.solvent
  have hbegins : c.written <+: input := by
    rcases hdone with hall | ⟨hbegins, -⟩
    · rw [hall]
    · exact hbegins
  have hle := hbegins.length_le
  refine ⟨?_, List.prefix_iff_eq_take.mp hbegins⟩
  cases user with
  | none =>
    rw [Option.map_none, Option.map_eq_none_iff] at hquota
    rcases hdone with hall | ⟨-, u, hu, -⟩
    · rw [hall]
      rfl
    · rw [hquota] at hu
      cases hu
  | some u =>
    obtain ⟨u', hu', hbefore⟩ := Option.map_eq_some_iff.mp hquota
    have hbefore : u'.remainingBytes + (c.written.length + 0 : ℕ) = u.remainingBytes := hbefore
    have hpos := hsolvent u' hu'
    show min input.length u.remainingBytes.toNat = c.written.length
    rcases hdone with hall | ⟨-, u'', hu'', hzero⟩
    · rw [← hall]
      omega
    · obtain rfl : u' = u'' := Option.some.inj (hu'.symm.trans hu'')
      omega

end

/-! ## Runs -/

theorem MeteredCopy.step_kept {k : Kind} {d : Direction} {user : Option UserStats} {conn : ℕ} {input : List UInt8}
    (hk : k.metered = true) (hchunk : 0 < k.chunk) {s s' : MeteredCopy} {e : MeteredEvent}
    (hkept : s.half.Kept d input user conn s.base) (hs : s.step k d e = some s') :
    s'.half.Kept d input user conn s'.base := by
  cases e with
  | half e =>
    obtain ⟨⟨half, bytes⟩, hstep, rfl⟩ := Option.map_eq_some_iff.mp hs
    exact hkept.step hk hchunk hstep
  | others rx tx =>
    obtain rfl := Option.some.inj hs
    exact hkept.others rx tx

/-- The settings of `copy_one_way_fast` and of `copy_one_way_rate_limited`. -/
def MeteredKind (k : Kind) : Prop := k = ⟨true, 32768, none⟩ ∨ ∃ limit, k = ⟨true, maxChunk limit, some limit⟩

theorem MeteredKind.reads {k : Kind} (hk : MeteredKind k) : k.metered = true ∧ 0 < k.chunk := by
  obtain rfl | ⟨limit, rfl⟩ := hk
  · exact ⟨rfl, by decide⟩
  · exact ⟨rfl, lt_of_lt_of_le (by decide) (le_max_left _ _)⟩

theorem MeteredCopy.start_kept (d : Direction) (reader : List (Arrival UInt8)) {user : Option UserStats}
    (hquota : ∀ u ∈ user, 0 ≤ u.remainingBytes) (conn : ℕ) (dirty : Bool) (now : ℚ) :
    (MeteredCopy.start reader user conn dirty now).half.Kept d (content reader) user conn
      (MeteredCopy.start reader user conn dirty now).base := by
  refine fun _ => ⟨⟨rfl, rfl, le_rfl, fun u hu => ?_, ?_, hquota⟩, rfl⟩
  · obtain rfl : user = some u := hu
    cases d <;> rfl
  · refine congrArg (Option.map · user) (funext fun u => ?_)
    exact add_zero u.remainingBytes

/-- **A loop that returns `Ok` leaves exact accounts**: of its input it has written what the quota grants, it returns
that many bytes, and the counters of the connection and of the user have grown by them, in whatever pieces the input
came and whenever the counters were committed. -/
theorem metered_accounted {k : Kind} (hk : MeteredKind k) (d : Direction) (reader : List (Arrival UInt8))
    {user : Option UserStats} (hquota : ∀ u ∈ user, 0 ≤ u.remainingBytes) (connectionCounter : ℕ) (dirty : Bool)
    (now : ℚ) (events : List MeteredEvent) {s : MeteredCopy}
    (hrun : Run.exec (MeteredCopy.step k d) (.start reader user connectionCounter dirty now) events = some s)
    (hok : s.half.phase = .ended true) : s.Accounted d (content reader) user connectionCounter := by
  obtain ⟨hmetered, hchunk⟩ := hk.reads
  have hkept := Run.exec_invariant
    (I := fun s : MeteredCopy => s.half.Kept d (content reader) user connectionCounter s.base)
    (fun _ _ _ hkept hs => MeteredCopy.step_kept hmetered hchunk hkept hs)
    (MeteredCopy.start_kept d reader hquota connectionCounter dirty now) hrun
  obtain ⟨hledger, hcarries⟩ := hkept (by rw [hok]; nofun)
  rw [Half.outstanding, hok] at hledger
  rw [Half.Carries, hok] at hcarries
  obtain ⟨hacc, hdone⟩ := hcarries
  obtain ⟨hallowance, hwritten⟩ := hdone.allowance hledger
  have hconnection := hledger.connection
  refine ⟨by rw [hallowance, ← hwritten], by rw [hallowance, hledger.total], by omega, ?_⟩
  have hquota := hledger.quota
  cases user with
  | none =>
    rw [Option.map_none, Option.map_eq_none_iff] at hquota
    rw [hquota]
    rfl
  | some u =>
    obtain ⟨u', hu', -⟩ := Option.map_eq_some_iff.mp hquota
    rw [hu', Option.map_some, Option.map_some, hledger.traffic u' hu', hacc, hallowance, Nat.sub_zero]

/-- An account with two bytes left. -/
def twoBytesLeft : UserStats := ⟨"1", none, 0, 0, 0, 0, 2, 0, 0, none, none, none⟩

/-- A run in which another connection counts a byte. -/
def cutRun : List MeteredEvent :=
  [.half .check, .half .read, .others 0 1, .half (.write 0 none true), .half (.shutdown true)]

/-- **Of three bytes two are sent.** -/
theorem metered_accounted_cut : ∃ s, Run.exec (MeteredCopy.step ⟨true, 32768, none⟩ .tx)
    (.start [.data [71, 69, 84]] (some twoBytesLeft) 0 false 0) cutRun = some s ∧
      s.Accounted .tx [71, 69, 84] (some twoBytesLeft) 0 := by
  refine ⟨_, rfl, metered_accounted (.inl rfl) .tx [.data [71, 69, 84]] ?_ 0 false 0 cutRun rfl rfl⟩
  intro u hu
  obtain rfl := Option.some.inj hu
  decide

end RXCore
