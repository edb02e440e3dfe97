import RXCore.Std
import RXCore.Config
import RXCore.Lib.Cas

/-!
# Account statistics

`UserStats` and the functions that change its counters. `remainingBytes` is `-1` for an account
without a limit. A counter that is an `AtomicU64` is a natural number, one that is an `AtomicI64` an
integer, and the operations on the latter wrap.

* `UserStats.ofClient`, `UserStats.refresh`: made from a client, refreshed from a client;
* `gbToBytes`, `bytesToGb`: the quota in the configuration and in memory;
* `reserveQuota`, `reserveUdpDatagram`: the two compare-exchange loops, by their decisions;
* `UserStats.record`, `UserStats.addQuota`: plain updates;
* **`reserveQuota_alone`**: what the loop does to a limited account.
-/

set_option autoImplicit false

namespace RXCore

structure UserStats where
  id : String
  email : Option String
  limitIp : ℕ
  totalGb : ℤ
  expiryTime : ℤ
  speedLimit : ℕ
  /-- `-1` without a limit, or the bytes that remain. -/
  remainingBytes : ℤ
  rx : ℕ
  tx : ℕ
  realityProfileId : Option Uuid
  inboundTag : Option String
  sni : Option String
deriving DecidableEq

/-- Bytes in a gigabyte. -/
def gigabyte : ℕ := 1073741824

/-- `remaining_gb` of the configuration as `remaining_bytes`. -/
def gbToBytes : Option ℚ → ℤ
  | none => -1
  | some q => if 0 ≤ q then ratAsI64 (q * gigabyte) else -1

/-- `remaining_bytes` as `remaining_gb` of the configuration. -/
def bytesToGb (n : ℤ) : Option ℚ := if n = -1 then none else some (n / gigabyte)

/-- `total_gb` of the configuration as a counter. -/
def totalToStats : Option ℕ → ℤ
  | none => -1
  | some t => asI64 t

/-- The counter `total_gb` as a field of the configuration. -/
def totalToConfig (n : ℤ) : Option ℕ := if n = -1 then none else some (asU64 n)

/-- A new `UserStats` for a client. -/
def UserStats.ofClient (c : Client) : UserStats where
  id := c.id
  email := c.email
  limitIp := c.limitIp.getD 0
  totalGb := totalToStats c.totalGb
  expiryTime := c.expiryTime.getD 0
  speedLimit := c.speedLimit.getD 0
  remainingBytes := gbToBytes c.remainingGb
  rx := c.rx.getD 0
  tx := c.tx.getD 0
  realityProfileId := c.realityProfileId
  inboundTag := c.inboundTag
  sni := c.sni

/-- The fields that `update_config` takes from the client when the `UserStats` exists already. -/
def UserStats.refresh (u : UserStats) (c : Client) : UserStats :=
  { u with
    email := c.email
    limitIp := c.limitIp.getD 0
    expiryTime := c.expiryTime.getD 0
    speedLimit := c.speedLimit.getD 0
    realityProfileId := c.realityProfileId
    inboundTag := c.inboundTag
    sni := c.sni }

/-- What a request for persistence keeps of a `UserStats`. -/
structure UserSnapshot where
  remainingBytes : ℤ
  totalGb : ℤ
  rx : ℕ
  tx : ℕ
deriving DecidableEq

def UserStats.snapshot (u : UserStats) : UserSnapshot := ⟨u.remainingBytes, u.totalGb, u.rx, u.tx⟩

/-! ## Reservations -/

open Cas

/-- The decision of `reserve_quota` on the current value: how many bytes are allowed. -/
def reserveQuotaTurn (requested : ℕ) (current : ℤ) : Turn ℤ ℕ :=
  if current = -1 then .stop requested
  else if current ≤ 0 then .stop 0
  else
    let allowed := min requested current.toNat
    .swap (current - allowed) allowed

/-- The decision of `reserve_udp_datagram` on the current value: all or nothing. -/
def reserveUdpDatagramTurn (datagramLen : ℕ) (current : ℤ) : Turn ℤ Bool :=
  if current = -1 then .stop true
  else if current < asI64 datagramLen then .stop false
  else .swap (asI64 (current - asI64 datagramLen)) true

/-- `reserve_quota`, run without interference: the allowed bytes and the new value. -/
def reserveQuota (current : ℤ) (requested : ℕ) : ℕ × ℤ := alone (reserveQuotaTurn requested) current

/-- `reserve_udp_datagram`, run without interference. -/
def reserveUdpDatagram (current : ℤ) (datagramLen : ℕ) : Bool × ℤ :=
  alone (reserveUdpDatagramTurn datagramLen) current

theorem reserveQuotaTurn_swap {requested allowed : ℕ} {current next : ℤ}
    (h : reserveQuotaTurn requested current = .swap next allowed) :
    0 < current ∧ 0 ≤ next ∧ next = current - allowed ∧ allowed ≤ requested := by
  unfold reserveQuotaTurn at h
  split_ifs at h with h1 h2
  obtain ⟨rfl, rfl⟩ := Turn.swap.inj h
  refine ⟨by omega, ?_, rfl, min_le_left _ _⟩
  have := min_le_right requested current.toNat
  omega

theorem reserveQuotaTurn_stop {requested allowed : ℕ} {current : ℤ}
    (h : reserveQuotaTurn requested current = .stop allowed) :
    (current = -1 ∧ allowed = requested) ∨ (current ≤ 0 ∧ current ≠ -1 ∧ allowed = 0) := by
  unfold reserveQuotaTurn at h
  split_ifs at h with h1 h2
  · exact .inl ⟨h1, (Turn.stop.inj h).symm⟩
  · exact .inr ⟨h2, h1, (Turn.stop.inj h).symm⟩

/-- **A reservation on a limited account** takes what it allows and leaves no less than nothing. -/
theorem reserveQuota_alone {current : ℤ} (h : 0 ≤ current) (requested : ℕ) :
    reserveQuota current requested =
      (min requested current.toNat, current - min requested current.toNat) := by
  have h1 : current ≠ -1 := by omega
  rcases lt_or_eq_of_le h with hpos | rfl
  · have h2 : ¬ current ≤ 0 := by omega
    rw [reserveQuota, alone, reserveQuotaTurn, if_neg h1, if_neg h2]
  · simp [reserveQuota, alone, reserveQuotaTurn]

/-- A reservation never makes a limited account unlimited. -/
theorem reserveQuota_ne {current : ℤ} (h : current ≠ -1) (requested : ℕ) :
    (reserveQuota current requested).2 ≠ -1 := by
  rw [reserveQuota, alone]
  cases ht : reserveQuotaTurn requested current with
  | stop r => exact h
  | swap next r =>
    obtain ⟨-, h0, -, -⟩ := reserveQuotaTurn_swap ht
    change next ≠ -1
    omega

/-- No more is allowed than was requested. -/
theorem reserveQuota_le (current : ℤ) (requested : ℕ) : (reserveQuota current requested).1 ≤ requested := by
  rw [reserveQuota, alone]
  cases ht : reserveQuotaTurn requested current with
  | stop allowed =>
    obtain ⟨-, h⟩ | ⟨-, -, h⟩ := reserveQuotaTurn_stop ht
    · exact h.le
    · exact h.le.trans (Nat.zero_le _)
  | swap next allowed => exact (reserveQuotaTurn_swap ht).2.2.2

/-! ## Plain updates -/

/-- The direction of a byte count. -/
inductive Direction where
  | rx
  | tx
deriving DecidableEq

/-- Bytes added to the counter of one direction. -/
def UserStats.count (u : UserStats) (d : Direction) (bytes : ℕ) : UserStats :=
  match d with
  | .rx => { u with rx := u.rx + bytes }
  | .tx => { u with tx := u.tx + bytes }

@[simp] theorem UserStats.count_remainingBytes (u : UserStats) (d : Direction) (bytes : ℕ) :
    (u.count d bytes).remainingBytes = u.remainingBytes := by cases d <;> rfl

@[simp] theorem UserStats.count_id (u : UserStats) (d : Direction) (bytes : ℕ) :
    (u.count d bytes).id = u.id := by cases d <;> rfl

/-- The user's part of `record_rx` and `record_tx`: the bytes are counted, and subtracted from a
quota that is limited, whatever is left of it. -/
def UserStats.record (u : UserStats) (d : Direction) (bytes : ℕ) : UserStats :=
  let u := u.count d bytes
  if u.remainingBytes = -1 then u
  else { u with remainingBytes := asI64 (u.remainingBytes - asI64 bytes) }

/-- The user's part of `add_quota`. -/
def UserStats.addQuota (u : UserStats) (amountGb : ℚ) : UserStats :=
  let addedBytes := ratAsI64 (amountGb * gigabyte)
  { u with
    remainingBytes :=
      if u.remainingBytes = -1 ∨ u.remainingBytes ≤ 0 then addedBytes
      else asI64 (u.remainingBytes + addedBytes)
    totalGb :=
      if u.totalGb = -1 then ratAsI64 amountGb else asI64 (u.totalGb + ratAsI64 amountGb) }

@[simp] theorem UserStats.record_id (u : UserStats) (d : Direction) (bytes : ℕ) :
    (u.record d bytes).id = u.id := by
  rw [UserStats.record]
  split_ifs
  · exact u.count_id d bytes
  · exact u.count_id d bytes

theorem UserStats.record_remainingBytes (u : UserStats) (d : Direction) (bytes : ℕ) :
    (u.record d bytes).remainingBytes = if u.remainingBytes = -1 then -1
      else asI64 (u.remainingBytes - asI64 bytes) := by
  rw [UserStats.record]
  simp only [UserStats.count_remainingBytes]
  split_ifs with h
  · exact (u.count_remainingBytes d bytes).trans h
  · rfl

end RXCore
