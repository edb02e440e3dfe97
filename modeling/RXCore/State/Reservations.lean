import RXCore.State.Stats
import RXCore.Lib.Run

/-!
# Reservations side by side

Calls of `reserve_quota` and `reserve_udp_datagram` on the counter of one account, one atomic operation
at a time in any order.

* `Reservation`, `Reservation.turn`: a call, and what it gets as a number of bytes;
* `Conserved`: the bytes granted so far and the counter add up to the quota;
* **`conserved_iff`**: this holds at every moment of every run if and only if every datagram has fewer
  than `2 ^ 63` bytes;
* **`huge_datagram_adds_quota`**: a longer one is granted and makes the counter larger.
-/

set_option autoImplicit false

namespace RXCore

open Cas

/-- A call, with the size that it asks for. -/
inductive Reservation where
  | quota (requested : UInt64)
  | udpDatagram (datagramLen : UInt64)

/-- The decision of a call, with its result as a number of bytes. -/
def Reservation.turn : Reservation → ℤ → Turn ℤ ℕ
  | quota requested, current => reserveQuotaTurn requested.toNat current
  | udpDatagram datagramLen, current =>
    (reserveUdpDatagramTurn datagramLen.toNat current).map fun ok => if ok then datagramLen.toNat else 0

/-- The length of a datagram is positive as an `i64`. -/
def Reservation.Sized : Reservation → Prop
  | quota _ => True
  | udpDatagram datagramLen => datagramLen.toNat < 2 ^ 63

instance : DecidablePred Reservation.Sized := fun r => by
  cases r
  · exact instDecidableTrue
  · exact Nat.decLt _ _

/-- The step of the counter with the calls `rs` on it. -/
def reserveStep (rs : List Reservation) : Pool ℤ ℕ → ℕ × Bool → Option (Pool ℤ ℕ) :=
  Pool.step (rs.map Reservation.turn)

/-- The counter of an account with the calls `rs` about to be made. -/
def reserveStart (quota : ℤ) (rs : List Reservation) : Pool ℤ ℕ := .start quota rs.length

/-- The bytes that have been granted. -/
def granted (p : Pool ℤ ℕ) : ℤ := (p.calls.map (Call.gained Nat.cast)).sum

/-- What is granted and the counter make up the quota, and the counter is not negative. -/
def Conserved (quota : ℤ) (p : Pool ℤ ℕ) : Prop := granted p + p.shared = quota ∧ 0 ≤ p.shared

instance (quota : ℤ) (p : Pool ℤ ℕ) : Decidable (Conserved quota p) := instDecidableAnd

/-- The values of a counter with a limit. -/
def Limited (n : ℤ) : Prop := 0 ≤ n ∧ n ≤ i64Max

instance (n : ℤ) : Decidable (Limited n) := instDecidableAnd

section

variable {quota : ℤ} {rs : List Reservation}

/-- A call of a proper size keeps the balance. -/
theorem Reservation.conserving {r : Reservation} (hr : r.Sized) :
    Conserving Limited (Nat.cast : ℕ → ℤ) r.turn := by
  have hmax : i64Max = 2 ^ 63 - 1 := rfl
  cases r with
  | quota requested =>
    constructor
    · rintro v n ⟨h0, -⟩ ht
      rcases reserveQuotaTurn_stop ht with ⟨h1, -⟩ | ⟨-, -, rfl⟩
      · omega
      · rfl
    · rintro v next n ⟨h0, h1⟩ ht
      obtain ⟨hpos, hnext, hsub, -⟩ := reserveQuotaTurn_swap ht
      exact ⟨⟨hnext, by omega⟩, by omega⟩
  | udpDatagram len =>
    have hlen : len.toNat < 2 ^ 63 := hr
    have hcast : asI64 (len.toNat : ℤ) = len.toNat := asI64_natCast hlen
    constructor
    · rintro v n ⟨h0, -⟩ ht
      simp only [turn, reserveUdpDatagramTurn] at ht
      split_ifs at ht with h1 h2
      · omega
      · obtain rfl := Turn.stop.inj ht
        rfl
      · cases ht
    · rintro v next n ⟨h0, h1⟩ ht
      simp only [turn, reserveUdpDatagramTurn] at ht
      split_ifs at ht with h2 h3
      · cases ht
      · cases ht
      · obtain ⟨rfl, rfl⟩ := Turn.swap.inj ht
        rw [hcast] at h3 ⊢
        rw [asI64_of_range (by omega) (by omega)]
        exact ⟨⟨by omega, by omega⟩, by simp⟩

theorem conserved_of_balanced {p : Pool ℤ ℕ} (h : p.Balanced Limited Nat.cast quota) : Conserved quota p :=
  ⟨h.total, h.shared.1⟩

/-- A call of a datagram that is too long, made alone. -/
theorem not_conserved_of_huge {i : ℕ} {len : UInt64} (hq : Limited quota)
    (hi : rs[i]? = some (.udpDatagram len)) (hlen : 2 ^ 63 ≤ len.toNat) :
    ∃ p, Run.exec (reserveStep rs) (reserveStart quota rs) [(i, false), (i, false)] = some p ∧
      ¬ Conserved quota p := by
  obtain ⟨h0, h1⟩ := hq
  have hmax : i64Max = 2 ^ 63 - 1 := rfl
  have hlt : i < rs.length := (List.getElem?_eq_some_iff.mp hi).1
  have hlen' : len.toNat < 2 ^ 64 := len.toNat_lt
  have hcast : asI64 (len.toNat : ℤ) = len.toNat - 2 ^ 64 := by
    rw [asI64, Int.bmod_def]
    omega
  have hturn : Reservation.turn (.udpDatagram len) quota =
      .swap (asI64 (quota - (len.toNat - 2 ^ 64))) len.toNat := by
    simp only [Reservation.turn, reserveUdpDatagramTurn, hcast]
    rw [if_neg (by omega), if_neg (by omega)]
    rfl
  have hget : (rs.map Reservation.turn)[i]? = some (Reservation.turn (.udpDatagram len)) := by simp [hi]
  refine ⟨_, Pool.exec_alone hget hlt hturn, ?_⟩
  rintro ⟨hsum, hnonneg⟩
  rw [granted, sum_gained_alone Nat.cast hlt] at hsum
  simp only [Call.gained] at hsum hnonneg
  have hwrap : asI64 (quota - (len.toNat - 2 ^ 64)) = quota - (len.toNat - 2 ^ 64) ∨
      asI64 (quota - (len.toNat - 2 ^ 64)) = quota - len.toNat := by
    rw [asI64, Int.bmod_def]
    omega
  omega

/-- **Conservation**, for every list of calls. -/
theorem conserved_iff (hq : Limited quota) :
    (∀ as, Run.Always (reserveStep rs) (Conserved quota) (reserveStart quota rs) as) ↔ ∀ r ∈ rs, r.Sized := by
  constructor
  · intro h r hr
    cases r with
    | quota requested => trivial
    | udpDatagram len =>
      by_contra hlen
      obtain ⟨i, hi⟩ := List.mem_iff_getElem?.mp hr
      obtain ⟨p, hp, hnot⟩ := not_conserved_of_huge hq hi (not_lt.mp hlen)
      exact hnot ((h _).last hp)
  · intro h as
    have hturns : ∀ turn ∈ rs.map Reservation.turn, Conserving Limited (Nat.cast : ℕ → ℤ) turn := by
      intro turn hturn
      obtain ⟨r, hr, rfl⟩ := List.mem_map.mp hturn
      exact Reservation.conserving (h r hr)
    exact Run.always_of_meets (C := fun _ _ => True)
      (fun p a p' hI _ hs => Pool.step_balanced hturns hI hs) (fun p => conserved_of_balanced)
      (Pool.start_balanced hq _) (Run.meets_of_forall (fun _ _ _ _ => trivial) _ _)

/-- The theorem on two calls that compete for ten bytes. -/
theorem conserved_iff_two :
    (∀ as, Run.Always (reserveStep [.quota 7, .udpDatagram 8]) (Conserved 10)
      (reserveStart 10 [.quota 7, .udpDatagram 8]) as) ↔
    ∀ r ∈ [Reservation.quota 7, .udpDatagram 8], r.Sized :=
  conserved_iff (by decide)

/-- **A datagram of `2 ^ 64 - 1` bytes adds to the quota**: it is granted, and the counter grows by one. -/
theorem huge_datagram_adds_quota :
    Run.exec (reserveStep [.udpDatagram 0xffffffffffffffff]) (reserveStart 5 [.udpDatagram 0xffffffffffffffff])
      [(0, false), (0, false)] = some ⟨6, [.returned 0xffffffffffffffff]⟩ ∧
    ¬ Conserved 5 ⟨6, [.returned 0xffffffffffffffff]⟩ := by
  constructor
  · rfl
  · decide

end

end RXCore
