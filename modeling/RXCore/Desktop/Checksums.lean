import RXCore.Desktop.Packets

/-!
# Packets with new checksums

What `fix_ipv4_checksums` makes of the packets that it does not refuse: which of them verify then, and which
bytes have changed.

* `covered_header`: the two checksums do not depend on each other;
* `Field.Puts`, **`Field.fill_verifies`**: a field that is filled verifies;
* `WholePacket`, `Repaired`, **`repaired_iff`**: the packets whose checksums come out right;
* **`udp_checksum_zero`**: a datagram that leaves without a checksum;
* `MayChange`, `Framed`, **`framed_iff`**: the packets of which no other byte is changed;
* **`fragment_altered`**: a fragment whose payload is changed.
-/

set_option autoImplicit false

namespace RXCore

open Cursor Walk OnesComplement

section

variable {p q : List UInt8} {f : Field} {i w : ℕ}

/-! ## The fields of a packet -/

theorem Field.fill_eq_self_iff (h : f.offset + 2 ≤ p.length) : f.fill p = p ↔ f.Holds p :=
  putWord_eq_self_iff h (checksum_lt _)

theorem Field.u16At_fill (h : f.offset + 2 ≤ p.length) :
    u16At (f.fill p) f.offset = checksum (f.bytes (putWord p f.offset 0)) :=
  u16At_putWord h (checksum_lt _)

/-- Wherever the transport has its checksum. -/
theorem transportField_spec (h : transportField p = some f) : f.bytes = covered ∧ f.offset + 2 ≤ packetLen p ∧
    ((protocol p = 6 ∧ f.offset = headerLen p + 16) ∨ (protocol p = 17 ∧ f.offset = headerLen p + 6)) := by
  have hseg : segmentLen p = packetLen p - headerLen p := rfl
  rw [transportField] at h
  split_ifs at h with htcp hudp
  · obtain rfl := Option.some.inj h
    exact ⟨rfl, by dsimp only; omega, .inl ⟨htcp.1, rfl⟩⟩
  · obtain rfl := Option.some.inj h
    exact ⟨rfl, by dsimp only; omega, .inr ⟨hudp.1, rfl⟩⟩

theorem sameLayout_fill (h : transportField p = some f) (q : List UInt8) : SameLayout q (f.fill q) := by
  have hmod := headerLen_mod p
  obtain ⟨-, -, ⟨-, hplace⟩ | ⟨-, hplace⟩⟩ := transportField_spec h
  · exact sameLayout_putWord q _ (by omega) (by omega) (by omega)
  · exact sameLayout_putWord q _ (by omega) (by omega) (by omega)

theorem sameLayout_fixed (p : List UInt8) : SameLayout p (fixed p) := by
  by_cases hrefused : Refused p
  · rw [fixed_of_refused hrefused]
    exact .refl p
  rw [fixed_eq hrefused]
  cases hf : transportField p with
  | none => exact sameLayout_header p
  | some f => exact (sameLayout_header p).trans (sameLayout_fill hf _)

/-- Nothing before the addresses is covered but what says where everything is. -/
theorem covered_congr (h : SameLayout p q) (hdrop : q.drop 12 = p.drop 12) (hheader : 12 ≤ headerLen p) :
    covered q = covered p := by
  have hbody : q.drop (headerLen p) = p.drop (headerLen p) := by
    rw [← Nat.add_sub_cancel' hheader, ← List.drop_drop, hdrop, List.drop_drop]
  rw [covered, pseudoHeader, slice, slice, h.protocol_eq, h.segmentLen_eq, h.headerLen_eq, hdrop, hbody]
  rfl

/-- The checksum of the transport does not depend on that of the header. -/
theorem covered_header (h20 : 20 ≤ headerLen p) (hf : transportField p = some f) :
    covered (putWord (headerField.fill p) f.offset 0) = covered (putWord p f.offset 0) := by
  obtain ⟨-, -, hplace⟩ := transportField_spec hf
  have hmod := headerLen_mod p
  have hp : SameLayout p (putWord p f.offset 0) := sameLayout_putWord p 0 (by omega) (by omega) (by omega)
  have hq : SameLayout (headerField.fill p) (putWord (headerField.fill p) f.offset 0) :=
    sameLayout_putWord _ 0 (by omega) (by omega) (by omega)
  have hheader := sameLayout_header p
  have hsame : SameLayout (putWord p f.offset 0) (putWord (headerField.fill p) f.offset 0) :=
    ⟨by rw [hq.length, hheader.length, hp.length], by rw [hq.first, hheader.first, hp.first],
      by rw [hq.total, hheader.total, hp.total], by rw [hq.protocol, hheader.protocol, hp.protocol]⟩
  refine covered_congr hsame ?_ (by rw [hp.headerLen_eq]; omega)
  have hdrop : (headerField.fill p).drop 12 = p.drop 12 := drop_putWord_of_le (by decide)
  rw [drop_putWord (by omega), drop_putWord (by omega), hdrop]

/-- What is in the place of the checksum of the transport. -/
theorem fixed_word (hrefused : ¬ Refused p) (h20 : 20 ≤ headerLen p) (hf : transportField p = some f) :
    u16At (fixed p) f.offset = checksum (covered (putWord p f.offset 0)) := by
  have hle := packetLen_le p
  have hlength := (sameLayout_header p).length
  obtain ⟨hbytes, hroom, -⟩ := transportField_spec hf
  have hfill := Field.u16At_fill (f := f) (p := headerField.fill p) (by omega)
  rw [fixed_eq hrefused, hf, ← covered_header h20 hf, ← hbytes]
  exact hfill

/-! ## Checksums that verify -/

/-- The word of a field is at an even place of the bytes that it is the checksum of. -/
def Field.Puts (f : Field) (p : List UInt8) : Prop := ∃ pre post, 2 ∣ pre.length ∧
  ∀ w, f.bytes (putWord p f.offset w) = pre ++ UInt8.ofNat (w / 256) :: UInt8.ofNat w :: post

/-- **A field that is filled verifies.** -/
theorem Field.fill_verifies (h : f.Puts p) : Verifies (f.bytes (f.fill p)) := by
  obtain ⟨pre, post, hpre, hbytes⟩ := h
  have hzero : f.bytes (putWord p f.offset 0) = pre ++ 0 :: 0 :: post := hbytes 0
  rw [Field.fill, hbytes]
  refine verifies_checksum hpre ?_
  rw [← hzero]
  exact (u16_ofNat _).trans (Nat.mod_eq_of_lt (checksum_lt _))

theorem headerField_puts (h12 : 12 ≤ headerLen p) (h : headerLen p ≤ p.length) : headerField.Puts p := by
  have hroom : 10 + 2 ≤ p.length := by omega
  have hend : 10 + 2 ≤ 0 + headerLen p := by omega
  obtain ⟨pre, post, hpre, hbytes⟩ := slice_putWord (Nat.zero_le 10) hend hroom
  refine ⟨pre, post, by omega, fun w => ?_⟩
  rw [← hbytes]
  change (putWord p 10 w).take (headerLen (putWord p 10 w)) = _
  rw [(sameLayout_putWord p w (by decide) (by decide) (by decide)).headerLen_eq]
  rfl

theorem transportField_puts (h20 : 20 ≤ headerLen p) (hf : transportField p = some f) : f.Puts p := by
  obtain ⟨hbytes, hroom, hplace⟩ := transportField_spec hf
  have hle := packetLen_le p
  have hmod := headerLen_mod p
  have hseg : segmentLen p = packetLen p - headerLen p := rfl
  have hstart : headerLen p ≤ f.offset := by omega
  have hend : f.offset + 2 ≤ headerLen p + segmentLen p := by omega
  have hbuffer : f.offset + 2 ≤ p.length := by omega
  obtain ⟨pre, post, hpre, hslice⟩ := slice_putWord hstart hend hbuffer
  have hlen : (pseudoHeader p).length = 12 := by
    have h : (slice p 12 8).length = 8 := by
      rw [slice, List.length_take, List.length_drop]
      omega
    simp [pseudoHeader, h]
  refine ⟨pseudoHeader p ++ pre, post, by rw [List.length_append]; omega, fun w => ?_⟩
  have hsame : SameLayout p (putWord p f.offset w) := sameLayout_putWord p w (by omega) (by omega) (by omega)
  rw [hbytes, covered, pseudoHeader, hsame.protocol_eq, hsame.segmentLen_eq, hsame.headerLen_eq, hslice,
    slice_putWord_of_le (by omega), List.append_assoc (pseudoHeader p)]
  rfl

/-! ## The packets that verify -/

/-- A later fragment, or one with more to come. -/
def Fragment (p : List UInt8) : Prop := u16At p 6 % 2 ^ 14 ≠ 0

instance (p : List UInt8) : Decidable (Fragment p) := inferInstanceAs (Decidable (_ ≠ _))

/-- A whole packet with the header of TCP, or with that of UDP and its length. -/
structure WholePacket (p : List UInt8) : Prop where
  version : p.getD 0 0 >>> 4 = 4
  header : 20 ≤ headerLen p
  total : headerLen p ≤ u16At p 2
  buffer : u16At p 2 ≤ p.length
  unfragmented : ¬ Fragment p
  transport : (protocol p = 6 ∧ headerLen p + 20 ≤ u16At p 2) ∨
    (protocol p = 17 ∧ headerLen p + 8 ≤ u16At p 2 ∧ u16At p (headerLen p + 4) = u16At p 2 - headerLen p)

/-- A packet with the same layout whose checksums verify, that does not go without one for UDP, and that does not change
any more. -/
structure Repaired (p q : List UInt8) : Prop where
  layout : SameLayout p q
  header : Verifies (q.take (headerLen q))
  transport : Verifies (covered q)
  present : protocol q = 17 → u16At q (headerLen q + 6) ≠ 0
  stable : fixIpv4Checksums q = ok q

/-- The words that the checksum of UDP covers, without itself, add up to a multiple of 0xffff. -/
def UdpSumsToTop (p : List UInt8) : Prop :=
  protocol p = 17 ∧ 0xffff ∣ wordSum (covered (putWord p (headerLen p + 6) 0))

instance (p : List UInt8) : Decidable (UdpSumsToTop p) := inferInstanceAs (Decidable (_ ∧ _))

theorem WholePacket.not_refused (h : WholePacket p) : ¬ Refused p := by
  have hheader := h.header
  have htotal := h.total
  have hbuffer := h.buffer
  rw [Refused, not_or, not_or, not_not, packetLen]
  exact ⟨by omega, h.version, by omega⟩

theorem WholePacket.transportField (h : WholePacket p) : ∃ f, transportField p = some f := by
  have hbuffer := h.buffer
  have hseg : segmentLen p = u16At p 2 - headerLen p := by rw [segmentLen, packetLen, min_eq_right hbuffer]
  rcases h.transport with ⟨hproto, hroom⟩ | ⟨hproto, hroom, -⟩
  · exact ⟨_, (transportField_tcp hproto).trans (if_pos (by omega))⟩
  · exact ⟨_, (transportField_udp hproto).trans (if_pos (by omega))⟩

/-- The header is not covered by the checksum of the transport. -/
theorem take_fill (h : headerLen p ≤ f.offset) (q : List UInt8) : (f.fill q).take (headerLen p) = q.take (headerLen p) :=
  take_putWord_of_le h

theorem headerField_bytes (h : SameLayout p q) (w : ℕ) :
    headerField.bytes (putWord q 10 w) = putWord (q.take (headerLen p)) 10 w := by
  rw [← take_putWord]
  change (putWord q 10 w).take (headerLen (putWord q 10 w)) = _
  rw [(sameLayout_putWord q w (by decide) (by decide) (by decide)).headerLen_eq, h.headerLen_eq]

/-- The header is as it was left when the transport is filled. -/
theorem headerField_fill_transport (h20 : 20 ≤ headerLen p) (hlen : 20 ≤ p.length) (hf : transportField p = some f) :
    headerField.fill (f.fill (headerField.fill p)) = f.fill (headerField.fill p) := by
  obtain ⟨-, hroom, hplace⟩ := transportField_spec hf
  have hsame := (sameLayout_header p).trans (sameLayout_fill hf _)
  have hword : u16At (f.fill (headerField.fill p)) 10 = u16At (headerField.fill p) 10 :=
    u16At_putWord_of_ne (.inl (by omega))
  have hbytes : headerField.bytes (putWord (f.fill (headerField.fill p)) 10 0) = headerField.bytes (putWord p 10 0) := by
    rw [headerField_bytes hsame, headerField_bytes (.refl p), take_fill (by omega)]
    change putWord ((putWord p 10 _).take _) 10 0 = _
    rw [take_putWord, putWord_putWord]
  refine (Field.fill_eq_self_iff ?_).mpr ?_
  · rw [hsame.length]
    exact (by decide : 10 + 2 ≤ 20).trans hlen
  · change u16At _ 10 = checksum (headerField.bytes (putWord _ 10 0))
    rw [hword, hbytes]
    exact Field.u16At_fill ((by decide : 10 + 2 ≤ 20).trans hlen)

/-- **A second time changes nothing**, if the header has at least five words. -/
theorem fixed_fixed (h20 : 20 ≤ headerLen p) : fixed (fixed p) = fixed p := by
  by_cases hrefused : Refused p
  · rw [fixed_of_refused hrefused, fixed_of_refused hrefused]
  have hsame := sameLayout_fixed p
  have hagain := fixed_eq (fun h => hrefused (hsame.refused_iff.mp h))
  rw [hsame.transportField_eq] at hagain
  rw [hagain]
  have hfirst := fixed_eq hrefused
  cases hf : transportField p with
  | none =>
    rw [hf] at hfirst
    rw [hfirst]
    exact Field.fill_fill rfl p
  | some f =>
    rw [hf] at hfirst
    rw [hfirst]
    have hlen : 20 ≤ p.length := Nat.le_of_not_lt fun h => hrefused (.inl h)
    exact (congrArg f.fill (headerField_fill_transport h20 hlen hf)).trans (Field.fill_fill rfl _)

theorem udpSumsToTop_iff (hudp : protocol p = 17) :
    UdpSumsToTop p ↔ checksum (covered (putWord p (headerLen p + 6) 0)) = 0 := by
  have hmod := headerLen_mod p
  have hsame : SameLayout p (putWord p (headerLen p + 6) 0) :=
    sameLayout_putWord p 0 (by omega) (by omega) (by omega)
  have hpos : 0 < wordSum (covered (putWord p (headerLen p + 6) 0)) := by
    refine wordSum_pos (b := 17) (by decide) ?_
    rw [covered, pseudoHeader, hsame.protocol_eq, hudp]
    simp
  rw [checksum_eq_zero_iff, verifies_iff, UdpSumsToTop]
  exact ⟨fun h => ⟨hpos, h.2⟩, fun h => ⟨hudp, h.2⟩⟩

/-- What is in the place of the checksum of UDP. -/
theorem WholePacket.udp_word (h : WholePacket p) (hudp : protocol p = 17) :
    u16At (fixed p) (headerLen p + 6) = checksum (covered (putWord p (headerLen p + 6) 0)) := by
  obtain ⟨f, hf⟩ := h.transportField
  obtain ⟨-, -, ⟨htcp, -⟩ | ⟨-, hplace⟩⟩ := transportField_spec hf
  · rw [hudp] at htcp
    cases htcp
  · rw [← hplace]
    exact fixed_word h.not_refused h.header hf

/-- **The checksums of a packet come out right, and stay, unless the words that the checksum of UDP covers add up to a
multiple of 0xffff**: its checksum is then zero, which stands for none. -/
theorem repaired_iff (h : WholePacket p) :
    (∃ q, fixIpv4Checksums p = ok q ∧ Repaired p q) ↔ ¬ UdpSumsToTop p := by
  have h20 := h.header
  have hle := packetLen_le p
  have hrefused := h.not_refused
  have hheaderLen : headerLen p ≤ packetLen p := Nat.le_of_not_lt fun hlt => hrefused (.inr (.inr hlt))
  obtain ⟨f, hf⟩ := h.transportField
  obtain ⟨hbytes, hroom, hplace⟩ := transportField_spec hf
  have hfixed : fixed p = f.fill (headerField.fill p) := by
    rw [fixed_eq hrefused, hf]
    rfl
  have hsame := sameLayout_fixed p
  have hheader := sameLayout_header p
  -- the two sums
  have hverifies : Verifies ((fixed p).take (headerLen (fixed p))) := by
    rw [hsame.headerLen_eq, hfixed, take_fill (by omega)]
    have hfilled := Field.fill_verifies (headerField_puts (p := p) (by omega) (by omega))
    rw [← hheader.headerLen_eq]
    exact hfilled
  have hcovered : Verifies (covered (fixed p)) := by
    have hfilled := Field.fill_verifies (transportField_puts (p := headerField.fill p)
      (by rw [hheader.headerLen_eq]; exact h20) (hheader.transportField_eq.trans hf))
    rw [hbytes] at hfilled
    rw [hfixed]
    exact hfilled
  have hstable : fixIpv4Checksums (fixed p) = ok (fixed p) := by rw [fixIpv4Checksums_eq, fixed_fixed h20]
  rw [fixIpv4Checksums_eq]
  constructor
  · rintro ⟨q, hq, hrepaired⟩ hsum
    obtain rfl := Walk.ok.inj hq
    have hpresent := hrepaired.present (hsame.protocol_eq.trans hsum.1)
    rw [hsame.headerLen_eq, h.udp_word hsum.1] at hpresent
    exact hpresent ((udpSumsToTop_iff hsum.1).mp hsum)
  · intro hsum
    refine ⟨fixed p, rfl, hsame, hverifies, hcovered, fun hudp hzero => ?_, hstable⟩
    rw [hsame.protocol_eq] at hudp
    rw [hsame.headerLen_eq, h.udp_word hudp] at hzero
    exact hsum ((udpSumsToTop_iff hudp).mpr hzero)

end

/-- A datagram without a payload between two hosts of a network, from a port to port 53. -/
def portDatagram (high low : UInt8) : List UInt8 := [0x45, 0, 0, 28, 0, 0, 0, 0, 64, 17, 0, 0, 10, 0, 0, 1, 10, 0, 0, 2,
  high, low, 0, 53, 0, 8, 0, 0]

theorem portDatagram_sound (high low : UInt8) : WholePacket (portDatagram high low) := by
  have hfirst : (portDatagram high low).getD 0 0 = 0x45 := rfl
  have hheader : headerLen (portDatagram high low) = 20 := by
    rw [headerLen, hfirst]
    decide
  have htotal : u16At (portDatagram high low) 2 = 28 := (by decide : u16 0 28 = 28)
  have hfragment : u16At (portDatagram high low) 6 % 2 ^ 14 = 0 := (by decide : u16 0 0 % 2 ^ 14 = 0)
  have hlength : u16At (portDatagram high low) (20 + 4) = 28 - 20 := (by decide : u16 0 8 = 28 - 20)
  refine ⟨by rw [hfirst]; decide, by rw [hheader], by rw [hheader, htotal]; decide, by rw [htotal]; rfl,
    fun h => h hfragment, .inr ⟨rfl, by rw [hheader, htotal], ?_⟩⟩
  rw [hheader, htotal]
  exact hlength

theorem repaired_portDatagram : ∃ q, fixIpv4Checksums (portDatagram 200 0) = ok q ∧ Repaired (portDatagram 200 0) q :=
  (repaired_iff (portDatagram_sound 200 0)).mpr (by decide +kernel)

/-- **The checksum of a datagram from port 60326** is written as zero. -/
theorem udp_checksum_zero : WholePacket (portDatagram 0xeb 0xa6) ∧
    ∃ q, fixIpv4Checksums (portDatagram 0xeb 0xa6) = ok q ∧ protocol q = 17 ∧ u16At q (headerLen q + 6) = 0 := by
  have hsound := portDatagram_sound 0xeb 0xa6
  have hsame := sameLayout_fixed (portDatagram 0xeb 0xa6)
  have hudp : protocol (portDatagram 0xeb 0xa6) = 17 := rfl
  refine ⟨hsound, _, fixIpv4Checksums_eq _, hsame.protocol_eq.trans hudp, ?_⟩
  rw [hsame.headerLen_eq, hsound.udp_word hudp]
  exact (udpSumsToTop_iff hudp).mp (by decide +kernel)

/-! ## The bytes that change -/

/-- Where the header of TCP or UDP has its checksum. -/
def checksumOffset (p : List UInt8) : Option ℕ :=
  if protocol p = 6 then some (headerLen p + 16)
  else if protocol p = 17 then some (headerLen p + 6)
  else none

/-- The checksum of a valid header, and that of the transport of a packet that is not a fragment. -/
def MayChange (p : List UInt8) (i : ℕ) : Prop := 20 ≤ p.length ∧ p.getD 0 0 >>> 4 = 4 ∧ 20 ≤ headerLen p ∧
  (i = 10 ∨ i = 11 ∨ (¬ Fragment p ∧ ∃ offset ∈ checksumOffset p, i = offset ∨ i = offset + 1))

/-- No other byte is changed. -/
def Framed (p : List UInt8) : Prop := ∃ q, fixIpv4Checksums p = ok q ∧ q.length = p.length ∧
  ∀ i, ¬ MayChange p i → q[i]? = p[i]?

/-- The packet is refused, or its header is valid and its transport may be written or is right already, or all that is
written is there already. -/
def Spared (p : List UInt8) : Prop := Refused p ∨
  (20 ≤ headerLen p ∧ (Fragment p → ∀ f ∈ transportField p, f.Holds p)) ∨
    (headerLen p < 20 ∧ ∀ f ∈ checksumFields p, f.Holds p)

section

variable {p q : List UInt8} {f : Field} {i : ℕ}

theorem framed_iff_fixed : Framed p ↔ ∀ i, ¬ MayChange p i → (fixed p)[i]? = p[i]? := by
  rw [Framed, fixIpv4Checksums_eq]
  constructor
  · rintro ⟨q, hq, -, hbytes⟩
    obtain rfl := Walk.ok.inj hq
    exact hbytes
  · exact fun hbytes => ⟨fixed p, rfl, (sameLayout_fixed p).length, hbytes⟩

theorem Field.fill_getElem?_of_ne (h : i ≠ f.offset) (h' : i ≠ f.offset + 1) : (f.fill p)[i]? = p[i]? :=
  putWord_getElem?_of_ne h h'

/-- The checksum of the transport is at the place that it has in its header. -/
theorem checksumOffset_of_transportField (hf : transportField p = some f) : checksumOffset p = some f.offset := by
  obtain ⟨-, -, ⟨htcp, hplace⟩ | ⟨hudp, hplace⟩⟩ := transportField_spec hf
  · rw [checksumOffset, if_pos htcp, hplace]
  · rw [checksumOffset, if_neg (fun h => by rw [hudp] at h; cases h), if_pos hudp, hplace]

/-- A word is what its two bytes are. -/
theorem u16At_congr (h : q[i]? = p[i]?) (h' : q[i + 1]? = p[i + 1]?) : u16At q i = u16At p i := by
  rw [u16At, u16At, List.getD_eq_getElem?_getD, List.getD_eq_getElem?_getD, List.getD_eq_getElem?_getD,
    List.getD_eq_getElem?_getD, h, h']

/-- A packet with a valid header. -/
theorem framed_valid (hrefused : ¬ Refused p) (h20 : 20 ≤ headerLen p) :
    Framed p ↔ (Fragment p → ∀ f ∈ transportField p, f.Holds p) := by
  have hlen : 20 ≤ p.length := Nat.le_of_not_lt fun h => hrefused (.inl h)
  have hversion : p.getD 0 0 >>> 4 = 4 := not_not.mp fun h => hrefused (.inr (.inl h))
  have hallowed : ∀ i, ¬ MayChange p i → i ≠ 10 ∧ i ≠ 11 := fun i h =>
    ⟨fun h10 => h ⟨hlen, hversion, h20, .inl h10⟩, fun h11 => h ⟨hlen, hversion, h20, .inr (.inl h11)⟩⟩
  have hheader : ∀ i, ¬ MayChange p i → (headerField.fill p)[i]? = p[i]? := fun i h =>
    Field.fill_getElem?_of_ne (hallowed i h).1 (hallowed i h).2
  rw [framed_iff_fixed, fixed_eq hrefused]
  cases hf : transportField p with
  | none => exact ⟨fun _ _ f hf => (nomatch hf), fun _ => hheader⟩
  | some f =>
    obtain ⟨hbytes, hroom, hplace⟩ := transportField_spec hf
    have hle := packetLen_le p
    have hlength := (sameLayout_header p).length
    have hword := fixed_word hrefused h20 hf
    rw [fixed_eq hrefused, hf] at hword
    constructor
    · -- the checksum of a fragment is no byte that may change
      intro hframed hfragment g hg
      obtain rfl := Option.some.inj hg
      have hforbidden : ∀ i, i = f.offset ∨ i = f.offset + 1 → ¬ MayChange p i := by
        rintro i hi ⟨-, -, -, h10 | h11 | ⟨hwhole, -⟩⟩
        · omega
        · omega
        · exact hwhole hfragment
      rw [Field.Holds, hbytes, ← hword]
      exact (u16At_congr (hframed _ (hforbidden _ (.inl rfl))) (hframed _ (hforbidden _ (.inr rfl)))).symm
    · intro hholds i hi
      by_cases hfragment : Fragment p
      · -- it is there already
        have hsame : f.fill (headerField.fill p) = headerField.fill p := by
          refine (Field.fill_eq_self_iff (by omega)).mpr ?_
          have hbefore : u16At (headerField.fill p) f.offset = u16At p f.offset :=
            u16At_putWord_of_ne (.inr (by change 10 + 2 ≤ f.offset; omega))
          rw [Field.Holds, hbefore, hbytes, covered_header h20 hf, ← hbytes]
          exact hholds hfragment f rfl
        change (f.fill (headerField.fill p))[i]? = _
        rw [hsame]
        exact hheader i hi
      · have hoffset : i ≠ f.offset ∧ i ≠ f.offset + 1 := by
          rw [← not_or]
          exact fun h => hi ⟨hlen, hversion, h20, .inr (.inr ⟨hfragment, _, checksumOffset_of_transportField hf, h⟩)⟩
        exact (Field.fill_getElem?_of_ne hoffset.1 hoffset.2).trans (hheader i hi)

/-- A packet with a header that is too short may not change at all. -/
theorem framed_invalid (hrefused : ¬ Refused p) (hshort : headerLen p < 20) :
    Framed p ↔ ∀ f ∈ checksumFields p, f.Holds p := by
  have hlen : 20 ≤ p.length := Nat.le_of_not_lt fun h => hrefused (.inl h)
  have hwhole : Framed p ↔ fixed p = p := by
    rw [framed_iff_fixed]
    constructor
    · exact fun h => List.ext_getElem? fun i => h i fun hmay => absurd hmay.2.2.1 (Nat.not_le_of_lt hshort)
    · exact fun h i _ => by rw [h]
  have hheader : headerField.fill p = p ↔ headerField.Holds p :=
    Field.fill_eq_self_iff ((by decide : 10 + 2 ≤ 20).trans hlen)
  rw [hwhole, fixed, checksumFields, if_neg hrefused]
  cases hf : transportField p with
  | none => simpa using hheader
  | some f =>
    obtain ⟨-, hroom, hplace⟩ := transportField_spec hf
    have hle := packetLen_le p
    have hmod := headerLen_mod p
    have htransport : f.fill p = p ↔ f.Holds p := Field.fill_eq_self_iff (by omega)
    dsimp only
    split_ifs with h10
    · simpa using htransport
    · -- two words that do not overlap
      have hword : u16At (f.fill (headerField.fill p)) 10 = u16At (headerField.fill p) 10 :=
        u16At_putWord_of_ne (by omega)
      simp only [List.foldl_cons, List.foldl_nil, List.forall_mem_cons, List.not_mem_nil, false_implies, implies_true,
        and_true]
      rw [← hheader, ← htransport]
      constructor
      · intro h
        rw [h] at hword
        have hfirst : headerField.fill p = p := by
          refine hheader.mpr ?_
          rw [Field.Holds]
          exact hword.trans (Field.u16At_fill ((by decide : 10 + 2 ≤ 20).trans hlen))
        rw [hfirst] at h
        exact ⟨hfirst, h⟩
      · rintro ⟨hfirst, hsecond⟩
        rw [hfirst, hsecond]

/-- **No access is ever outside of the packet; no byte is changed but those that may be, if and only if the packet is
spared.** -/
theorem framed_iff (p : List UInt8) : (∃ q, fixIpv4Checksums p = ok q) ∧ (Framed p ↔ Spared p) := by
  refine ⟨⟨_, fixIpv4Checksums_eq p⟩, ?_⟩
  by_cases hrefused : Refused p
  · refine ⟨fun _ => .inl hrefused, fun _ => framed_iff_fixed.mpr fun i _ => ?_⟩
    rw [fixed_of_refused hrefused]
  by_cases h20 : 20 ≤ headerLen p
  · rw [framed_valid hrefused h20]
    refine ⟨fun h => .inr (.inl ⟨h20, h⟩), ?_⟩
    rintro (h | ⟨-, h⟩ | ⟨h, -⟩)
    · exact absurd h hrefused
    · exact h
    · exact absurd h20 (Nat.not_le_of_lt h)
  · rw [framed_invalid hrefused (Nat.lt_of_not_le h20)]
    refine ⟨fun h => .inr (.inr ⟨Nat.lt_of_not_le h20, h⟩), ?_⟩
    rintro (h | ⟨h, -⟩ | ⟨-, h⟩)
    · exact absurd h hrefused
    · exact absurd h h20
    · exact h

end

/-- A later fragment of a datagram, with a payload of eight bytes. -/
def laterFragment : List UInt8 := [0x45, 0, 0, 28, 0, 0, 0, 1, 64, 17, 0, 0, 10, 0, 0, 1, 10, 0, 0, 2, 1, 2, 3, 4, 5, 6, 0, 0]

/-- **The last two bytes of its payload are overwritten.** -/
theorem fragment_altered : 20 ≤ headerLen laterFragment ∧ Fragment laterFragment ∧
    ∃ q, fixIpv4Checksums laterFragment = ok q ∧ u16At q 26 ≠ u16At laterFragment 26 := by
  have hrefused : ¬ Refused laterFragment := by decide
  have hheader : headerLen laterFragment = 20 := by decide
  have hf : transportField laterFragment = some ⟨headerLen laterFragment + 6, covered⟩ :=
    (transportField_udp (by decide)).trans (if_pos (by decide))
  have hword := fixed_word hrefused (by decide) hf
  have hbefore : u16At laterFragment 26 = 0 := by decide
  rw [hheader] at hword
  refine ⟨by decide, by decide, _, fixIpv4Checksums_eq _, ?_⟩
  rw [hword, hbefore, ne_eq, checksum_eq_zero_iff, verifies_iff]
  decide +kernel

end RXCore
