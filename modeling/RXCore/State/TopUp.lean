import RXCore.State.Reservations
import RXCore.State.Limited

/-!
# A top-up beside traffic

`add_quota` on the two counters of one account, one atomic operation at a time, in any order with the calls that
account for traffic on the same counter.

* `Meter`, `Meter.step`: a reservation, or a plain subtraction, under way;
* `TopUp`, `topUpStep`, and `topUp_alone`: the top-up run alone is `UserStats.addQuota`;
* `Balanced`: the counter has grown by the added bytes, less what traffic has taken, and the total by the same
  volume; `Balanced.used`;
* `newRemaining_eq_iff`, `newTotal_eq_iff`: the two stores;
* **`topUp_balanced_iff`**: the runs that stay balanced;
* **`topUp_unbalanced`**: half a gigabyte, and an overdraft.
-/

set_option autoImplicit false

namespace RXCore

open Cas

/-! ## Traffic -/

inductive RecordPhase where
  | fresh
  /-- The counter was seen to have a limit. -/
  | limited
  | done
deriving DecidableEq

/-- A call that accounts for traffic. -/
inductive Meter where
  | reserve (r : Reservation) (call : Call ℤ ℕ)
  /-- The user's part of `record_rx` and `record_tx`. -/
  | record (bytes : UInt64) (phase : RecordPhase)

/-- Its next atomic operation on the counter; `spurious` makes an exchange fail. -/
def Meter.step (spurious : Bool) (remaining : ℤ) : Meter → ℤ × Meter
  | .reserve r call =>
    let (remaining, call) := call.step r.turn spurious remaining
    (remaining, .reserve r call)
  | .record bytes .fresh => (remaining, .record bytes (if remaining = -1 then .done else .limited))
  | .record bytes .limited => (asI64 (remaining - asI64 bytes.toNat), .record bytes .done)
  | .record bytes .done => (remaining, .record bytes .done)

/-- The bytes that it has been granted, or has subtracted. -/
def Meter.bytes : Meter → ℤ
  | reserve _ call => call.gained Nat.cast
  | record bytes .done => bytes.toNat
  | record _ _ => 0

/-- Its size is one of an `i64`, and it holds a value of a limited counter. -/
def Meter.Sized : Meter → Prop
  | reserve r call => r.Sized ∧ ∀ v, call = .holding v → Limited v
  | record bytes _ => bytes.toNat < 2 ^ 63

/-! ## The top-up -/

/-- The bytes that a top-up adds. -/
def addedBytes (amountGb : ℚ) : ℤ := ratAsI64 (amountGb * gigabyte)

def newRemaining (prevRem addedBytes : ℤ) : ℤ :=
  if prevRem = -1 ∨ prevRem ≤ 0 then addedBytes else asI64 (prevRem + addedBytes)

def newTotal (prevTot : ℤ) (amountGb : ℚ) : ℤ :=
  if prevTot = -1 then ratAsI64 amountGb else asI64 (prevTot + ratAsI64 amountGb)

/-- The next atomic operation of `add_quota`, with what it has loaded. -/
inductive TopUpPhase where
  | loadRemaining
  | storeRemaining (prevRem : ℤ)
  | loadTotal
  | storeTotal (prevTot : ℤ)
  | done

structure TopUp where
  remaining : ℤ
  total : ℤ
  phase : TopUpPhase
  traffic : List Meter
  /-- What traffic has taken off the counter. -/
  charged : ℤ

inductive TopUpAct where
  | topUp
  | reserve (r : Reservation)
  | record (bytes : UInt64)
  /-- The next operation of a call. -/
  | traffic (i : ℕ) (spurious : Bool)

def topUpStep (amountGb : ℚ) (s : TopUp) : TopUpAct → Option TopUp
  | .topUp => match s.phase with
    | .loadRemaining => some { s with phase := .storeRemaining s.remaining }
    | .storeRemaining prevRem =>
      some { s with remaining := newRemaining prevRem (addedBytes amountGb), phase := .loadTotal }
    | .loadTotal => some { s with phase := .storeTotal s.total }
    | .storeTotal prevTot => some { s with total := newTotal prevTot amountGb, phase := .done }
    | .done => none
  | .reserve r => some { s with traffic := s.traffic ++ [.reserve r .fresh] }
  | .record bytes => some { s with traffic := s.traffic ++ [.record bytes .fresh] }
  | .traffic i spurious => match s.traffic[i]? with
    | none => none
    | some m =>
      let (remaining, m) := m.step spurious s.remaining
      some { s with
        remaining := remaining
        traffic := s.traffic.set i m
        charged := s.charged + (s.remaining - remaining) }

/-- An account with a finite quota and a finite total. -/
structure FiniteAccount where
  stats : UserStats
  remaining_range : InI64 stats.remainingBytes
  remaining_finite : stats.remainingBytes ≠ -1
  total_range : InI64 stats.totalGb
  total_finite : stats.totalGb ≠ -1

/-- A top-up of an account is about to begin. -/
def FiniteAccount.start (A : FiniteAccount) : TopUp := ⟨A.stats.remainingBytes, A.stats.totalGb, .loadRemaining, [], 0⟩

/-- The bytes that the top-up has added to the counter, and to the total. -/
def TopUpPhase.added (amountGb : ℚ) : TopUpPhase → ℤ × ℤ
  | loadRemaining => (0, 0)
  | storeRemaining _ => (0, 0)
  | loadTotal => (addedBytes amountGb, 0)
  | storeTotal _ => (addedBytes amountGb, 0)
  | done => (addedBytes amountGb, addedBytes amountGb)

/-- Nothing is forgiven and nothing is charged twice. -/
structure TopUp.Balanced (A : FiniteAccount) (amountGb : ℚ) (s : TopUp) : Prop where
  remaining : s.remaining + s.charged = A.stats.remainingBytes + (s.phase.added amountGb).1
  total : s.total * gigabyte = A.stats.totalGb * gigabyte + (s.phase.added amountGb).2

instance (A : FiniteAccount) (amountGb : ℚ) (s : TopUp) : Decidable (s.Balanced A amountGb) :=
  decidable_of_iff (s.remaining + s.charged = A.stats.remainingBytes + (s.phase.added amountGb).1 ∧
    s.total * gigabyte = A.stats.totalGb * gigabyte + (s.phase.added amountGb).2) ⟨fun h => ⟨h.1, h.2⟩, fun h => ⟨h.1, h.2⟩⟩

/-- The volume is one of whole gigabytes, but for less than a byte, and fits the counter. -/
def WholeGigabytes (amountGb : ℚ) : Prop :=
  ⌊amountGb * gigabyte⌋ = gigabyte * ⌊amountGb⌋ ∧ ⌊amountGb * gigabyte⌋ ≤ i64Max

instance (amountGb : ℚ) : Decidable (WholeGigabytes amountGb) := inferInstanceAs (Decidable (_ ∧ _))

/-- The counter is stored while it has the value that was loaded, and that is no overdraft; the total is stored for whole
gigabytes; neither overflows. -/
def TopUpPhase.Admits (amountGb : ℚ) (remaining : ℤ) : TopUpPhase → Prop
  | storeRemaining prevRem =>
    remaining = max prevRem 0 ∧ (prevRem ≤ 0 ∨ prevRem + ⌊amountGb * gigabyte⌋ ≤ i64Max)
  | storeTotal prevTot => WholeGigabytes amountGb ∧ prevTot + ⌊amountGb⌋ ≤ i64Max
  | _ => True

instance (amountGb : ℚ) (remaining : ℤ) : (phase : TopUpPhase) → Decidable (phase.Admits amountGb remaining)
  | .storeRemaining _ => inferInstanceAs (Decidable (_ ∧ _))
  | .storeTotal _ => inferInstanceAs (Decidable (_ ∧ _))
  | .loadRemaining => .isTrue trivial
  | .loadTotal => .isTrue trivial
  | .done => .isTrue trivial

/-- Traffic may do what it does at any time. -/
def TopUp.Admits (amountGb : ℚ) (s : TopUp) : TopUpAct → Prop
  | .topUp => s.phase.Admits amountGb s.remaining
  | _ => True

instance (amountGb : ℚ) (s : TopUp) : (a : TopUpAct) → Decidable (s.Admits amountGb a)
  | .topUp => inferInstanceAs (Decidable (s.phase.Admits amountGb s.remaining))
  | .reserve _ => .isTrue trivial
  | .record _ => .isTrue trivial
  | .traffic _ _ => .isTrue trivial

section

variable {A : FiniteAccount} {amountGb : ℚ} {s s' : TopUp} {a : TopUpAct}

/-- **Run alone**, the top-up is `UserStats.addQuota`. -/
theorem topUp_alone (A : FiniteAccount) (amountGb : ℚ) :
    Run.exec (topUpStep amountGb) A.start [.topUp, .topUp, .topUp, .topUp] =
      some ⟨(A.stats.addQuota amountGb).remainingBytes, (A.stats.addQuota amountGb).totalGb, .done, [], 0⟩ := rfl

/-! ## The two stores -/

theorem addedBytes_eq (hpos : 0 < amountGb) : addedBytes amountGb = min i64Max ⌊amountGb * gigabyte⌋ := by
  have hle : (0 : ℚ) ≤ amountGb * gigabyte := mul_nonneg hpos.le (Nat.cast_nonneg _)
  have hfloor : 0 ≤ ⌊amountGb * gigabyte⌋ := Int.floor_nonneg.mpr hle
  rw [addedBytes, ratAsI64, if_pos hle, i64Min, i64Max]
  omega

theorem ratAsI64_eq (hpos : 0 < amountGb) : ratAsI64 amountGb = min i64Max ⌊amountGb⌋ := by
  have hfloor : 0 ≤ ⌊amountGb⌋ := Int.floor_nonneg.mpr hpos.le
  rw [ratAsI64, if_pos hpos.le, i64Min, i64Max]
  omega

/-- **The store of the counter** adds the bytes to the counter as it is then. -/
theorem newRemaining_eq_iff (hpos : 0 < amountGb) {prevRem remaining : ℤ} (hprev : InI64 prevRem)
    (hremaining : InI64 remaining) : newRemaining prevRem (addedBytes amountGb) = remaining + addedBytes amountGb ↔
      remaining = max prevRem 0 ∧ (prevRem ≤ 0 ∨ prevRem + ⌊amountGb * gigabyte⌋ ≤ i64Max) := by
  have hfloor : 0 ≤ ⌊amountGb * gigabyte⌋ :=
    Int.floor_nonneg.mpr (mul_nonneg hpos.le (Nat.cast_nonneg _))
  rw [newRemaining, addedBytes_eq hpos, asI64, Int.bmod_def]
  rw [InI64, i64Min, i64Max] at hprev hremaining
  rw [i64Max]
  split_ifs <;> omega

/-- **The store of the total** adds the same volume. -/
theorem newTotal_eq_iff (hpos : 0 < amountGb) {prevTot : ℤ} (hprev : InI64 prevTot) (hfinite : prevTot ≠ -1) :
    newTotal prevTot amountGb * gigabyte = prevTot * gigabyte + addedBytes amountGb ↔
      WholeGigabytes amountGb ∧ prevTot + ⌊amountGb⌋ ≤ i64Max := by
  have hfloor : 0 ≤ ⌊amountGb⌋ := Int.floor_nonneg.mpr hpos.le
  have hbytes : ⌊amountGb⌋ * 1073741824 ≤ ⌊amountGb * gigabyte⌋ := by
    refine Int.le_floor.mpr ?_
    push_cast
    exact mul_le_mul_of_nonneg_right (Int.floor_le amountGb) (Nat.cast_nonneg _)
  have hgigabyte : (gigabyte : ℤ) = 1073741824 := rfl
  rw [newTotal, if_neg hfinite, WholeGigabytes, addedBytes_eq hpos, ratAsI64_eq hpos, asI64, Int.bmod_def, hgigabyte]
  rw [InI64, i64Min, i64Max] at hprev
  rw [i64Max]
  omega

/-! ## Runs -/

/-- No operation of traffic leaves the range of the counter. -/
theorem Meter.step_range {remaining : ℤ} (spurious : Bool) (m : Meter) (h : InI64 remaining) :
    InI64 (m.step spurious remaining).1 := by
  cases m with
  | reserve r call =>
    change InI64 (call.step r.turn spurious remaining).1
    rcases call.step_cases r.turn spurious remaining with hstep | ⟨v, n, -, -, hstep⟩ | ⟨next, n, -, hturn, hstep⟩ |
      ⟨n, -, hstep⟩ <;> rw [hstep]
    · exact h
    · exact h
    · cases r with
      | quota requested =>
        obtain ⟨-, hnext, hsub, -⟩ := reserveQuotaTurn_swap hturn
        have hmin : i64Min ≤ 0 := by decide
        have hmax := h.2
        exact ⟨by omega, by omega⟩
      | udpDatagram datagramLen =>
        simp only [Reservation.turn, reserveUdpDatagramTurn] at hturn
        split_ifs at hturn
        · cases hturn
        · cases hturn
        · obtain ⟨rfl, -⟩ := Turn.swap.inj hturn
          exact asI64_range _
    · exact h
  | record bytes phase =>
    cases phase with
    | fresh => exact h
    | limited => exact asI64_range _
    | done => exact h

/-- What has been loaded: a counter of its range, and the total. -/
def TopUpPhase.Loaded (total : ℤ) : TopUpPhase → Prop
  | storeRemaining prevRem => InI64 prevRem
  | storeTotal prevTot => prevTot = total
  | _ => True

/-- What holds along a run: nobody else stores the total. -/
structure TopUp.Kept (A : FiniteAccount) (s : TopUp) : Prop where
  remaining : InI64 s.remaining
  loaded : s.phase.Loaded A.stats.totalGb
  total : s.phase ≠ .done → s.total = A.stats.totalGb

theorem FiniteAccount.start_kept (A : FiniteAccount) : A.start.Kept A := ⟨A.remaining_range, trivial, fun _ => rfl⟩

theorem FiniteAccount.start_balanced (A : FiniteAccount) (amountGb : ℚ) : A.start.Balanced A amountGb :=
  ⟨by rw [start, TopUpPhase.added], by rw [start, TopUpPhase.added, add_zero]⟩

theorem newRemaining_range (prevRem : ℤ) (amountGb : ℚ) : InI64 (newRemaining prevRem (addedBytes amountGb)) := by
  rw [newRemaining]
  split_ifs
  · exact ratAsI64_range _
  · exact asI64_range _

/-- A step of the whole system. -/
theorem topUpStep_kept (h : s.Kept A) (hs : topUpStep amountGb s a = some s') : s'.Kept A := by
  obtain ⟨remaining, total, phase, traffic, charged⟩ := s
  cases a with
  | topUp =>
    cases phase with
    | loadRemaining =>
      obtain rfl := Option.some.inj hs
      exact ⟨h.remaining, h.remaining, fun _ => h.total nofun⟩
    | storeRemaining prevRem =>
      obtain rfl := Option.some.inj hs
      exact ⟨newRemaining_range _ _, trivial, fun _ => h.total nofun⟩
    | loadTotal =>
      obtain rfl := Option.some.inj hs
      exact ⟨h.remaining, h.total nofun, fun _ => h.total nofun⟩
    | storeTotal prevTot =>
      obtain rfl := Option.some.inj hs
      exact ⟨h.remaining, trivial, fun hne => absurd rfl hne⟩
    | done => cases hs
  | reserve r =>
    obtain rfl := Option.some.inj hs
    exact ⟨h.remaining, h.loaded, h.total⟩
  | record bytes =>
    obtain rfl := Option.some.inj hs
    exact ⟨h.remaining, h.loaded, h.total⟩
  | traffic i spurious =>
    simp only [topUpStep] at hs
    split at hs
    · cases hs
    · next m hm =>
      obtain rfl := Option.some.inj hs
      exact ⟨m.step_range spurious h.remaining, h.loaded, h.total⟩

/-- **A step keeps the balance** exactly if it is one that may be made then. -/
theorem topUpStep_balanced_iff (hpos : 0 < amountGb) (hkept : s.Kept A) (h : s.Balanced A amountGb)
    (hs : topUpStep amountGb s a = some s') : s'.Balanced A amountGb ↔ s.Admits amountGb a := by
  obtain ⟨remaining, total, phase, traffic, charged⟩ := s
  cases a with
  | topUp =>
    cases phase with
    | loadRemaining =>
      obtain rfl := Option.some.inj hs
      exact iff_of_true ⟨h.remaining, h.total⟩ trivial
    | storeRemaining prevRem =>
      obtain rfl := Option.some.inj hs
      have hbefore : remaining + charged = A.stats.remainingBytes + 0 := h.remaining
      have hstore := newRemaining_eq_iff hpos hkept.loaded hkept.remaining
      rw [TopUp.Admits, TopUpPhase.Admits, ← hstore]
      constructor
      · intro hafter
        have hremaining : newRemaining prevRem (addedBytes amountGb) + charged =
          A.stats.remainingBytes + addedBytes amountGb := hafter.remaining
        dsimp only
        omega
      · intro heq
        refine ⟨?_, h.total⟩
        change newRemaining prevRem (addedBytes amountGb) + charged = A.stats.remainingBytes + addedBytes amountGb
        dsimp only at heq
        omega
    | loadTotal =>
      obtain rfl := Option.some.inj hs
      exact iff_of_true ⟨h.remaining, h.total⟩ trivial
    | storeTotal prevTot =>
      obtain rfl := Option.some.inj hs
      obtain rfl : prevTot = A.stats.totalGb := hkept.loaded
      rw [TopUp.Admits, TopUpPhase.Admits, ← newTotal_eq_iff hpos A.total_range A.total_finite]
      exact ⟨fun hafter => hafter.total, fun heq => ⟨h.remaining, heq⟩⟩
    | done => cases hs
  | reserve r =>
    obtain rfl := Option.some.inj hs
    exact iff_of_true ⟨h.remaining, h.total⟩ trivial
  | record bytes =>
    obtain rfl := Option.some.inj hs
    exact iff_of_true ⟨h.remaining, h.total⟩ trivial
  | traffic i spurious =>
    simp only [topUpStep] at hs
    split at hs
    · cases hs
    · next m hm =>
      obtain rfl := Option.some.inj hs
      refine iff_of_true ⟨?_, h.total⟩ trivial
      have hbefore := h.remaining
      dsimp only at hbefore ⊢
      omega

/-- **A top-up neither forgives nor charges twice, and changes nothing of what was used, if and only if it stores the
counter while it still has the value that was loaded, which is no overdraft, and adds whole gigabytes.** -/
theorem topUp_balanced_iff (A : FiniteAccount) (hpos : 0 < amountGb) (as : List TopUpAct) :
    Run.Always (topUpStep amountGb) (TopUp.Balanced A amountGb) A.start as ↔
      Run.Meets (topUpStep amountGb) (TopUp.Admits amountGb) A.start as :=
  Run.always_iff_meets (I := TopUp.Kept A) (fun _ _ _ hkept _ _ hs => topUpStep_kept hkept hs)
    (fun _ _ _ hkept h hs => topUpStep_balanced_iff hpos hkept h hs) A.start_kept (A.start_balanced amountGb) as

/-- When a balanced top-up is done, only traffic has changed what was used. -/
theorem TopUp.Balanced.used (h : s.Balanced A amountGb) (hdone : s.phase = .done) :
    s.total * gigabyte - s.remaining = A.stats.totalGb * gigabyte - A.stats.remainingBytes + s.charged := by
  have hremaining := h.remaining
  have htotal := h.total
  rw [hdone] at hremaining htotal
  rw [htotal]
  dsimp only [TopUpPhase.added] at hremaining ⊢
  omega

/-- **What traffic takes off a limited counter** is what it is granted or subtracts. -/
theorem Meter.step_pays {remaining : ℤ} (spurious : Bool) {m : Meter} (hlimited : Limited remaining) (hm : m.Sized) :
    remaining - (m.step spurious remaining).1 = (m.step spurious remaining).2.bytes - m.bytes := by
  cases m with
  | reserve r call =>
    obtain ⟨hsized, hheld⟩ := hm
    have hcons := Reservation.conserving hsized
    change remaining - (call.step r.turn spurious remaining).1 =
      (call.step r.turn spurious remaining).2.gained Nat.cast - call.gained Nat.cast
    rcases call.step_cases r.turn spurious remaining with hstep | ⟨v, n, rfl, hturn, hstep⟩ |
      ⟨next, n, rfl, hturn, hstep⟩ | ⟨n, rfl, hstep⟩ <;> rw [hstep]
    · cases call with
      | returned n => cases hstep
      | _ => simp [Call.gained]
    · have hgain := hcons.stop (hheld v rfl) hturn
      simp [Call.gained, hgain]
    · have hgain := (hcons.swap hlimited hturn).2
      simp only [Call.gained]
      omega
    · simp
  | record bytes phase =>
    have hmax : i64Max = 2 ^ 63 - 1 := rfl
    obtain ⟨h0, h1⟩ := hlimited
    cases phase with
    | fresh =>
      have hfinite : remaining ≠ -1 := by omega
      simp [Meter.step, hfinite, Meter.bytes]
    | limited =>
      have hsized : bytes.toNat < 2 ^ 63 := hm
      have hsub : asI64 (remaining - asI64 bytes.toNat) = remaining - bytes.toNat := by
        rw [asI64_natCast hsized, asI64_of_range (by omega) (by omega)]
      simp only [Meter.step, Meter.bytes, hsub]
      omega
    | done => simp [Meter.step]

end

/-- An account of one gigabyte of which a hundred bytes are left. -/
def hundredBytes : FiniteAccount where
  stats := ⟨"1", none, 0, 1, 0, 0, 100, 0, 0, none, none, none⟩
  remaining_range := ⟨by decide, by decide⟩
  remaining_finite := by decide
  total_range := ⟨by decide, by decide⟩
  total_finite := by decide

/-- Two gigabytes, with traffic before the counter is loaded and after it is stored. -/
theorem topUp_balanced_two : Run.Always (topUpStep 2) (TopUp.Balanced hundredBytes 2) hundredBytes.start
    [.record 7, .traffic 0 false, .traffic 0 false, .topUp, .topUp, .reserve (.quota 5), .traffic 1 false,
      .traffic 1 true, .topUp, .traffic 1 false, .topUp] :=
  (topUp_balanced_iff hundredBytes (by decide +kernel) _).mpr (by decide +kernel)

/-- An account of one gigabyte that has used five bytes more. -/
def fiveOverdrawn : FiniteAccount where
  stats := ⟨"1", none, 0, 1, 0, 0, -5, 0, 0, none, none, none⟩
  remaining_range := ⟨by decide, by decide⟩
  remaining_finite := by decide
  total_range := ⟨by decide, by decide⟩
  total_finite := by decide

/-- **Half a gigabyte** is added to the counter and not to the total; **an overdraft** is forgiven. -/
theorem topUp_unbalanced :
    ¬ Run.Always (topUpStep (1 / 2)) (TopUp.Balanced hundredBytes (1 / 2)) hundredBytes.start
      [.topUp, .topUp, .topUp, .topUp] ∧
    ¬ Run.Always (topUpStep 1) (TopUp.Balanced fiveOverdrawn 1) fiveOverdrawn.start [.topUp, .topUp, .topUp, .topUp] := by
  constructor
  · intro h
    exact absurd (h.last (topUp_alone hundredBytes (1 / 2))).total (by decide +kernel)
  · intro h
    exact absurd (h.last (topUp_alone fiveOverdrawn 1)).remaining (by decide +kernel)

end RXCore
