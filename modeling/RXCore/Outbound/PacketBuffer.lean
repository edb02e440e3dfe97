import RXCore.Lib.Run
import RXCore.Outbound.PacketAddr

/-!
# How large the packet buffer grows

The buffer of `handle_packetaddr` is cut only after a packet that was sent.

* `PacketLoop`, `packetLoopStep`: the loop, turn after turn;
* `PacketAddrStream.Exact`, `packet_grows`: between turns the buffer holds what is read and nothing else;
* `PacketLoop.Within`: the bound; `PacketLoop.Cuts`: no packet is skipped that ends past the threshold;
* **`within_iff_cuts`**: the bound is kept exactly by the runs that skip no such packet;
* **`buffer_unbounded`**: packets that are all skipped fill the buffer without end.
-/

set_option autoImplicit false

namespace RXCore

open Arrivals

/-- The largest packet: a name of 255 bytes and a payload of 65535. -/
def largestPacket : ℕ := 1 + 1 + 255 + 2 + 2 + 65535

/-- The loop, while it runs, and after its end. -/
structure PacketLoop where
  state : PacketAddrStream
  live : Bool

def PacketLoop.start (stream : List (Arrival UInt8)) : PacketLoop := ⟨.start stream, true⟩

/-- A turn, in which the packet is skipped or sent; the loop ends where nothing can be read. -/
def packetLoopStep (l : PacketLoop) (sent : Bool) : Option PacketLoop :=
  if l.live then
    match l.state.turn sent with
    | .error s => some ⟨s, false⟩
    | .ok (s, _) => some ⟨s, true⟩
  else none

namespace PacketAddrStream

variable {s s' : PacketAddrStream} {needed n : ℕ}

/-- The buffer ends where the next packet starts. -/
def Exact (s : PacketAddrStream) : Prop := s.buf.length = s.bufOffset

/-- A state after reads: the packet starts where it did, and the buffer reached to `n` at most. -/
structure Grown (s : PacketAddrStream) (n : ℕ) (s' : PacketAddrStream) : Prop where
  offset : s'.bufOffset = s.bufOffset
  length : s'.buf.length = n
  peak : s'.peak ≤ max s.peak n

theorem Exact.grown (h : s.Exact) : s.Grown s.bufOffset s := ⟨rfl, h, le_max_left _ _⟩

/-- What a reading step ends in: a state that satisfies `P`, or the end of the loop with a buffer that reached to `N`
at most. -/
def Ends {α : Type} (s : PacketAddrStream) (N : ℕ) (P : α → Prop) : Except PacketAddrStream α → Prop
  | .ok a => P a
  | .error t => t.peak ≤ max s.peak N

theorem Ends.bind {α β : Type} {N : ℕ} {P : α → Prop} {Q : β → Prop} {x : Except PacketAddrStream α}
    {f : α → Except PacketAddrStream β} (h : Ends s N P x) (hf : ∀ a, P a → Ends s N Q (f a)) :
    Ends s N Q (x >>= f) := by
  cases x with
  | error t => exact h
  | ok a => exact hf a h

/-- **A read takes the buffer to what it needs**, and no further. -/
theorem Grown.read {m N : ℕ} (h : s.Grown m s') (hm : m ≤ n) (hN : n ≤ N) :
    Ends s N (s.Grown n) (s'.readExactToBuf n) := by
  have hlen := h.length
  have hpeak := h.peak
  unfold readExactToBuf
  split_ifs with hlt
  · cases hr : recvExact (n - s'.buf.length) s'.stream with
    | mk bs? stream =>
      cases bs? with
      | none =>
        show max s'.peak n ≤ max s.peak N
        omega
      | some bs =>
        have hbs := recvExact_length hr
        refine ⟨h.offset, ?_, ?_⟩
        · rw [List.length_append]
          omega
        · show max s'.peak n ≤ max s.peak n
          omega
  · exact ⟨h.offset, by omega, by omega⟩

theorem readDest_grows (h : s.Exact) : Ends s (s.bufOffset + 259)
    (fun r => s.Grown r.2.2.2 r.1 ∧ s.bufOffset ≤ r.2.2.2 ∧ r.2.2.2 ≤ s.bufOffset + 259) s.readDest := by
  unfold readDest
  refine (h.grown.read (n := s.bufOffset + 1) (by omega) (by omega)).bind fun s1 h1 => ?_
  have ho := h1.offset
  dsimp only
  split_ifs
  · refine (h1.read (n := s1.bufOffset + 1 + 4 + 2) (by omega) (by omega)).bind fun s2 h2 => ?_
    exact ⟨h2, by dsimp only; omega, by dsimp only; omega⟩
  · refine (h1.read (n := s1.bufOffset + 2) (by omega) (by omega)).bind fun s2 h2 => ?_
    have ho2 := h2.offset
    have hbyte := (s2.buf.getD (s2.bufOffset + 1) 0).toNat_lt
    refine (h2.read (n := s2.bufOffset + 2 + (s2.buf.getD (s2.bufOffset + 1) 0).toNat + 2)
      (by omega) (by omega)).bind fun s3 h3 => ?_
    exact ⟨h3, by dsimp only; omega, by dsimp only; omega⟩
  · refine (h1.read (n := s1.bufOffset + 1 + 16 + 2) (by omega) (by omega)).bind fun s2 h2 => ?_
    exact ⟨h2, by dsimp only; omega, by dsimp only; omega⟩
  · have hpeak := h1.peak
    show s1.peak ≤ _
    omega

/-- **What a packet does to the buffer**: it ends where the packet does, which is one packet further at most. -/
theorem packet_grows (h : s.Exact) : Ends s (s.bufOffset + largestPacket)
    (fun r => r.1.Exact ∧ r.1.peak ≤ max s.peak (s.bufOffset + largestPacket)) s.packet := by
  have hlargest : largestPacket = 65796 := rfl
  have hdest := readDest_grows h
  unfold packet
  cases hr : s.readDest with
  | error t =>
    rw [hr] at hdest
    have hdest : t.peak ≤ max s.peak (s.bufOffset + 259) := hdest
    show t.peak ≤ _
    omega
  | ok r =>
    obtain ⟨s1, dest, port, nextOffset⟩ := r
    rw [hr] at hdest
    obtain ⟨h1, hle, hge⟩ := hdest
    dsimp only at h1 hle hge
    refine Ends.bind (P := s.Grown (nextOffset + 2)) (h1.read (by omega) (by omega)) fun s2 h2 => ?_
    have hlen := u16_lt (s2.buf.getD nextOffset 0) (s2.buf.getD (nextOffset + 1) 0)
    have hlen : u16At s2.buf nextOffset < 65536 := hlen
    dsimp only
    rw [if_neg (by omega)]
    refine Ends.bind (h2.read (n := nextOffset + 2 + u16At s2.buf nextOffset) (by omega) (by omega)) fun s3 h3 => ?_
    have hpeak := h3.peak
    refine ⟨h3.length, ?_⟩
    show s3.peak ≤ _
    omega

end PacketAddrStream

namespace PacketLoop

variable {l l' : PacketLoop} {sent : Bool}

/-- The buffer has never held more than the threshold and one packet, and what is kept of the packets that were read
is within the threshold. -/
structure Within (l : PacketLoop) : Prop where
  peak : l.state.peak ≤ 32768 + largestPacket
  consumed : l.live = true → l.state.bufOffset ≤ 32768

/-- No packet is skipped that ends past the threshold. -/
def Cuts (l : PacketLoop) (sent : Bool) : Prop :=
  ∀ s p, l.state.packet = .ok (s, p) → sent = true ∨ s.bufOffset ≤ 32768

/-- Between turns the buffer holds what is read and nothing else. -/
def Kept (l : PacketLoop) : Prop := l.live = true → l.state.Exact

/-- A turn, in terms of the packet that it reads. -/
theorem packetLoopStep_cases (h : packetLoopStep l sent = some l') : l.live = true ∧
    ((∃ s, l.state.packet = .error s ∧ l' = ⟨s, false⟩) ∨
      ∃ s p, l.state.packet = .ok (s, p) ∧ l' = ⟨if sent then s.compact else s, true⟩) := by
  simp only [packetLoopStep] at h
  split_ifs at h with hlive
  refine ⟨hlive, ?_⟩
  cases hp : l.state.packet with
  | error s =>
    have ht : l.state.turn sent = .error s := by rw [PacketAddrStream.turn, hp]; rfl
    rw [ht] at h
    exact .inl ⟨s, rfl, (Option.some.inj h).symm⟩
  | ok r =>
    have ht : l.state.turn sent = .ok (if sent then r.1.compact else r.1, r.2) := by
      rw [PacketAddrStream.turn, hp]
      rfl
    rw [ht] at h
    exact .inr ⟨r.1, r.2, rfl, (Option.some.inj h).symm⟩

theorem exact_compact {s : PacketAddrStream} (h : s.Exact) : s.compact.Exact ∧ s.compact.bufOffset ≤ 32768 ∧
    s.compact.peak = s.peak := by
  have h : s.buf.length = s.bufOffset := h
  rw [PacketAddrStream.compact]
  split_ifs with hgt
  · refine ⟨?_, Nat.zero_le _, rfl⟩
    simp [PacketAddrStream.Exact, h]
  · exact ⟨h, not_lt.mp hgt, rfl⟩

theorem kept_start (stream : List (Arrival UInt8)) : (start stream).Kept := fun _ => rfl

theorem Kept.step (h : l.Kept) (hs : packetLoopStep l sent = some l') : l'.Kept := by
  obtain ⟨hlive, ⟨s, -, rfl⟩ | ⟨s, p, hp, rfl⟩⟩ := packetLoopStep_cases hs
  · exact fun h => by cases h
  · have hgrows := PacketAddrStream.packet_grows (h hlive)
    rw [hp] at hgrows
    intro _
    cases sent with
    | true => exact (exact_compact hgrows.1).1
    | false => exact hgrows.1

/-- A turn stays within the bound unless it skips a packet that ends past the threshold. -/
theorem within_step (hk : l.Kept) (hw : l.Within) (hs : packetLoopStep l sent = some l') :
    l'.Within ↔ l.Cuts sent := by
  obtain ⟨hlive, ⟨s, hp, rfl⟩ | ⟨s, p, hp, rfl⟩⟩ := packetLoopStep_cases hs
  all_goals
    have hgrows := PacketAddrStream.packet_grows (hk hlive)
    have hconsumed := hw.consumed hlive
    have hpeak := hw.peak
    rw [hp] at hgrows
  · have hgrows : s.peak ≤ max l.state.peak (l.state.bufOffset + largestPacket) := hgrows
    refine iff_of_true ⟨?_, fun h => by cases h⟩ fun t p h => ?_
    · show s.peak ≤ _
      omega
    · rw [hp] at h
      cases h
  · obtain ⟨hexact, hgrows⟩ := hgrows
    dsimp only at hgrows
    have hcuts : l.Cuts sent ↔ sent = true ∨ s.bufOffset ≤ 32768 := by
      constructor
      · exact fun h => h s p hp
      · intro h t q ht
        rw [hp] at ht
        obtain ⟨rfl, -⟩ := Prod.mk.inj (Except.ok.inj ht)
        exact h
    rw [hcuts]
    cases sent with
    | true =>
      obtain ⟨-, hle, hsame⟩ := exact_compact (s := s) hexact
      refine iff_of_true ⟨?_, fun _ => hle⟩ (.inl rfl)
      show s.compact.peak ≤ _
      omega
    | false =>
      constructor
      · exact fun h => .inr (h.consumed rfl)
      · rintro (h | h)
        · cases h
        · exact ⟨by show s.peak ≤ _; omega, fun _ => h⟩

end PacketLoop

open PacketLoop

/-- **The bound is kept exactly by the runs that skip no packet past the threshold.** -/
theorem within_iff_cuts (stream : List (Arrival UInt8)) (ds : List Bool) :
    Run.Always packetLoopStep Within (.start stream) ds ↔ Run.Meets packetLoopStep Cuts (.start stream) ds :=
  Run.always_iff_meets (I := Kept) (fun _ _ _ hk _ _ hs => hk.step hs) (fun _ _ _ hk hw hs => within_step hk hw hs)
    (kept_start stream) ⟨Nat.zero_le _, fun _ => Nat.zero_le _⟩ ds

/-- Packets that are skipped stay in the buffer. -/
theorem exec_skipped (p : AddrPacket) (n : ℕ) {s : PacketAddrStream} (ha : s.Aligned)
    (hu : s.unread = (List.replicate n p).flatMap AddrPacket.encode) :
    ∃ l, Run.exec packetLoopStep ⟨s, true⟩ (List.replicate n false) = some l ∧ l.state.Aligned ∧
      l.state.bufOffset = s.bufOffset + n * p.encode.length := by
  induction n generalizing s with
  | zero => exact ⟨_, rfl, ha, by simp⟩
  | succ n ih =>
    rw [List.replicate_succ, List.flatMap_cons] at hu
    obtain ⟨t, hp, hat, hut, hoffset⟩ := PacketAddrStream.packet_encode ha p hu
    have hstep : packetLoopStep ⟨s, true⟩ false = some ⟨t, true⟩ := by
      rw [packetLoopStep, PacketAddrStream.turn, hp]
      rfl
    obtain ⟨l, hl, hal, hbuf⟩ := ih hat hut
    refine ⟨l, ?_, hal, ?_⟩
    · rw [List.replicate_succ, Run.exec_cons_of_step hstep, hl]
    · rw [hbuf, hoffset]
      ring

/-- **The buffer grows without end** on packets whose name is no text, all of which are skipped. -/
theorem buffer_unbounded : noText.dest.host = none ∧ ∀ N, ∃ stream ds l,
    Run.exec packetLoopStep (.start stream) ds = some l ∧ N ≤ l.state.buf.length := by
  refine ⟨by decide, fun N => ?_⟩
  let stream : List (Arrival UInt8) := [.data ((List.replicate N noText).flatMap AddrPacket.encode)]
  have hu : (PacketAddrStream.start stream).unread = (List.replicate N noText).flatMap AddrPacket.encode := by
    simp [PacketAddrStream.unread, PacketAddrStream.start, stream, content]
  obtain ⟨l, hl, ha, hoffset⟩ := exec_skipped noText N (Nat.zero_le _) hu
  refine ⟨stream, List.replicate N false, l, hl, ?_⟩
  have ha : l.state.bufOffset ≤ l.state.buf.length := ha
  have hlen : noText.encode.length = 8 := rfl
  have hzero : (PacketAddrStream.start stream).bufOffset = 0 := rfl
  rw [hoffset, hlen, hzero] at ha
  omega

end RXCore
