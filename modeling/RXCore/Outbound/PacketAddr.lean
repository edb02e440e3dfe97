import RXCore.Lib.Arrivals
import RXCore.Outbound.Frames

/-!
# Packets in a growing buffer

The loop of `handle_packetaddr` over a stream that arrives in pieces. Every offset is relative to a start that moves
through the buffer, and the buffer is cut after a packet that was sent, once enough of it is read.

* `PacketAddrStream`, `readExactToBuf`, `readDest`, `packet`, `turn`: the loop, with the size of the buffer;
* `packetAddrFrame_eq`, `turn_packetAddr`: the loop of the handler takes these turns;
* `PacketAddrStream.unread`: what the loop has still to decode, `packet_encode`;
* **`decodeAll_encode`**: the packets that were written are decoded, in whatever pieces they come and wherever the
  buffer is cut.
-/

set_option autoImplicit false

namespace RXCore

open Arrivals Encoding

/-! ## Packets -/

/-- A destination as a packet names it. -/
inductive PacketDest where
  | ip (addr : IpAddr)
  | name (bytes : List UInt8)
deriving DecidableEq

/-- The destination as text, if it is. -/
def PacketDest.host : PacketDest → Option String
  | .ip addr => some addr.display
  | .name bytes => fromUtf8 bytes

/-- The address type and the address. -/
def PacketDest.tagged : PacketDest → List UInt8
  | .ip addr => addr.tagged
  | .name bytes => 3 :: UInt8.ofNat bytes.length :: bytes

/-- A packet as it is decoded, with the bytes of its destination and port. -/
structure RawPacket where
  dest : PacketDest
  port : UInt16
  header : List UInt8
  payload : List UInt8
deriving DecidableEq

/-- A packet whose lengths fit into their fields. -/
structure AddrPacket where
  dest : PacketDest
  port : UInt16
  payload : List UInt8
  name_le : ∀ bytes, dest = .name bytes → bytes.length ≤ 255
  payload_le : payload.length ≤ 65535

def AddrPacket.header (p : AddrPacket) : List UInt8 := p.dest.tagged ++ u16Bytes p.port.toNat

def AddrPacket.encode (p : AddrPacket) : List UInt8 := p.header ++ u16Bytes p.payload.length ++ p.payload

def AddrPacket.raw (p : AddrPacket) : RawPacket := ⟨p.dest, p.port, p.header, p.payload⟩

namespace AddrPacket

theorem length_encode (p : AddrPacket) : p.encode.length = p.header.length + 2 + p.payload.length := by
  simp only [encode, u16Bytes, List.length_append, List.length_cons, List.length_nil]

theorem header_encode (p : AddrPacket) (rest : List UInt8) :
    slice (p.encode ++ rest) 0 p.header.length = p.header := by
  simp [slice, encode]

theorem payloadLen_encode (p : AddrPacket) (rest : List UInt8) :
    u16At (p.encode ++ rest) p.header.length = p.payload.length := by
  have hsplit : p.encode ++ rest = p.header ++ u16Bytes p.payload.length ++ (p.payload ++ rest) := by simp [encode]
  rw [hsplit, u16At_append, Nat.mod_eq_of_lt (Nat.lt_succ_of_le p.payload_le)]

theorem payload_encode (p : AddrPacket) (rest : List UInt8) :
    slice (p.encode ++ rest) (p.header.length + 2) p.payload.length = p.payload := by
  have hslice := slice_append (p.header ++ u16Bytes p.payload.length) p.payload rest
  simpa [encode, u16Bytes] using hslice

end AddrPacket

/-! ## The loop -/

/-- The state of the loop. -/
structure PacketAddrStream where
  stream : List (Arrival UInt8)
  buf : List UInt8
  bufOffset : ℕ
  /-- The most bytes that the buffer has held. -/
  peak : ℕ

namespace PacketAddrStream

def start (stream : List (Arrival UInt8)) : PacketAddrStream := ⟨stream, [], 0, 0⟩

/-- `read_exact_to_buf`. The buffer has its new size before anything is read into it. -/
def readExactToBuf (s : PacketAddrStream) (needed : ℕ) : Except PacketAddrStream PacketAddrStream :=
  if s.buf.length < needed then
    match recvExact (needed - s.buf.length) s.stream with
    | (some bs, stream) => .ok { s with stream := stream, buf := s.buf ++ bs, peak := max s.peak needed }
    | (none, stream) =>
      .error { s with
        stream := stream
        buf := s.buf ++ List.replicate (needed - s.buf.length) 0
        peak := max s.peak needed }
  else .ok s

/-- The destination of the packet that starts at `bufOffset`, its port and the offset after it. -/
def readDest (s : PacketAddrStream) : Except PacketAddrStream (PacketAddrStream × PacketDest × UInt16 × ℕ) := do
  let s ← s.readExactToBuf (s.bufOffset + 1)
  let atyp := s.buf.getD s.bufOffset 0
  if atyp = 1 then
    let needed := s.bufOffset + 1 + 4 + 2
    let s ← s.readExactToBuf needed
    return (s, .ip (.v4 (.ofOctets (slice s.buf (s.bufOffset + 1) 4))), portAt s.buf (s.bufOffset + 5), needed)
  else if atyp = 3 then
    let s ← s.readExactToBuf (s.bufOffset + 2)
    let domainLen := (s.buf.getD (s.bufOffset + 1) 0).toNat
    let needed := s.bufOffset + 2 + domainLen + 2
    let s ← s.readExactToBuf needed
    return (s, .name (slice s.buf (s.bufOffset + 2) domainLen), portAt s.buf (s.bufOffset + 2 + domainLen), needed)
  else if atyp = 4 then
    let needed := s.bufOffset + 1 + 16 + 2
    let s ← s.readExactToBuf needed
    return (s, .ip (.v6 (.ofOctets (slice s.buf (s.bufOffset + 1) 16))), portAt s.buf (s.bufOffset + 17), needed)
  else throw s

/-- A packet is read and decoded. -/
def packet (s : PacketAddrStream) : Except PacketAddrStream (PacketAddrStream × RawPacket) := do
  let (s, dest, destPort, nextOffset) ← s.readDest
  let lenNeeded := nextOffset + 2
  let s ← s.readExactToBuf lenNeeded
  let payloadLen := u16At s.buf nextOffset
  if 65535 < payloadLen then throw s
  else
    let payloadNeeded := lenNeeded + payloadLen
    let s ← s.readExactToBuf payloadNeeded
    return ({ s with bufOffset := payloadNeeded }, ⟨dest, destPort, slice s.buf s.bufOffset (nextOffset - s.bufOffset),
      slice s.buf lenNeeded payloadLen⟩)

/-- The buffer is cut, if enough of it is read. -/
def compact (s : PacketAddrStream) : PacketAddrStream :=
  if 32768 < s.bufOffset then { s with buf := s.buf.drop s.bufOffset, bufOffset := 0 } else s

/-- A turn of the loop: a packet is decoded, and then skipped, or sent. -/
def turn (s : PacketAddrStream) (sent : Bool) : Except PacketAddrStream (PacketAddrStream × RawPacket) := do
  let (s, packet) ← s.packet
  return (if sent then s.compact else s, packet)

/-- The packets that so many turns decode, and the state after them. -/
def decodeAll : List Bool → PacketAddrStream → List RawPacket × PacketAddrStream
  | [], s => ([], s)
  | sent :: rest, s => match s.turn sent with
    | .error s => ([], s)
    | .ok (s, packet) => (packet :: (decodeAll rest s).1, (decodeAll rest s).2)

/-! ## The loop of the handler -/

/-- The state without the pieces that the stream comes in. -/
@[reducible] def flat (s : PacketAddrStream) : PacketAddr := ⟨content s.stream, s.buf, s.bufOffset⟩

end PacketAddrStream

/-- What is sent for a packet, if its name is text and leads to an address. -/
def RawPacket.frame (p : RawPacket) (u : UdpOutbound) (A : Answers) (ipv4Only : Bool) : Option Frame :=
  p.dest.host.bind fun host => (u.destSocketAddr A ipv4Only host p.port).map fun addr =>
    ⟨.dest addr, host, p.port, some addr, p.header, p.payload⟩

namespace PacketAddrStream

variable {s s' : PacketAddrStream} {needed : ℕ}

theorem readExact_eq (n : ℕ) (stream : List (Arrival UInt8)) : readExact n (content stream) =
    match recvExact n stream with
    | (some bs, stream) => some (bs, content stream)
    | (none, _) => none := by
  cases hr : recvExact n stream with
  | mk bs? stream' =>
    cases bs? with
    | some bs =>
      have hlen := recvExact_length hr
      subst hlen
      rw [recvExact_content hr]
      simp [readExact]
    | none =>
      rw [readExact, if_neg]
      intro hle
      obtain ⟨r', hr', -⟩ := recvExact_eq (List.take_append_drop n (content stream)).symm
      rw [List.length_take, min_eq_left hle, hr] at hr'
      cases hr'

theorem readExactToBuf_flat (s : PacketAddrStream) (needed : ℕ) :
    s.flat.readExactToBuf needed = (s.readExactToBuf needed).toOption.map flat := by
  unfold PacketAddr.readExactToBuf readExactToBuf
  by_cases h : s.buf.length < needed
  · have hflat : s.flat.buf.length < needed := h
    rw [if_pos h, if_pos hflat]
    show (readExact (needed - s.buf.length) (content s.stream)).map _ = _
    rw [readExact_eq]
    cases hr : recvExact (needed - s.buf.length) s.stream with
    | mk bs? stream' => cases bs? <;> rfl
  · have hflat : ¬ s.flat.buf.length < needed := h
    rw [if_neg h, if_neg hflat]
    rfl

theorem readDest_flat (s : PacketAddrStream) : s.flat.readDest =
    s.readDest.toOption.map fun (s', dest, destPort, nextOffset) => (s'.flat, dest.host, destPort, nextOffset) := by
  unfold PacketAddr.readDest readDest
  rw [readExactToBuf_flat]
  cases s.readExactToBuf (s.bufOffset + 1) with
  | error e => rfl
  | ok s =>
    simp only [Except.toOption, Option.map_some, Option.bind_some, bind, Except.bind]
    by_cases h1 : s.buf.getD s.bufOffset 0 = 1
    · simp only [if_pos h1]
      rw [readExactToBuf_flat]
      cases s.readExactToBuf (s.bufOffset + 1 + 4 + 2) <;> rfl
    by_cases h3 : s.buf.getD s.bufOffset 0 = 3
    · simp only [if_neg h1, if_pos h3]
      rw [readExactToBuf_flat]
      cases s.readExactToBuf (s.bufOffset + 2) with
      | error e => rfl
      | ok s =>
        simp only [Except.toOption, Option.map_some, Option.bind_some]
        rw [readExactToBuf_flat]
        cases s.readExactToBuf (s.bufOffset + 2 + (s.buf.getD (s.bufOffset + 1) 0).toNat + 2) <;> rfl
    by_cases h4 : s.buf.getD s.bufOffset 0 = 4
    · simp only [if_neg h1, if_neg h3, if_pos h4]
      rw [readExactToBuf_flat]
      cases s.readExactToBuf (s.bufOffset + 1 + 16 + 2) <;> rfl
    · simp only [if_neg h1, if_neg h3, if_neg h4]
      rfl

/-- **The handler reads the same packets.** -/
theorem packetAddrFrame_eq (u : UdpOutbound) (A : Answers) (ipv4Only : Bool) (s : PacketAddrStream) :
    packetAddrFrame u A ipv4Only s.flat = s.packet.toOption.map fun (s', p) => (s'.flat, p.frame u A ipv4Only) := by
  unfold packetAddrFrame packet
  rw [readDest_flat]
  cases s.readDest with
  | error e => rfl
  | ok r =>
    obtain ⟨s, dest, destPort, nextOffset⟩ := r
    simp only [Except.toOption, Option.map_some, Option.bind_some, bind, Except.bind]
    rw [readExactToBuf_flat]
    cases s.readExactToBuf (nextOffset + 2) with
    | error e => rfl
    | ok s =>
      have hlen : ¬ 65535 < u16At s.buf nextOffset := by
        have := u16_lt (s.buf.getD nextOffset 0) (s.buf.getD (nextOffset + 1) 0)
        rw [u16At]
        omega
      simp only [Except.toOption, Option.map_some, Option.bind_some, if_neg hlen]
      rw [readExactToBuf_flat]
      cases s.readExactToBuf (nextOffset + 2 + u16At s.buf nextOffset) <;> rfl

/-- **The loop of the handler takes these turns**: a packet counts as sent when there is a session for it. -/
theorem turn_packetAddr {ipv4Only : Bool} {t : UdpTurn} {r r' : UdpRelay} {d : Option Datagram}
    (hr : r.reader = some (.packetAddr s.flat)) (h : r.turn ipv4Only t = some (r', d)) :
    match s.packet with
    | .error _ => r'.reader = none
    | .ok (s', p) => ∃ sent, r'.reader = some (.packetAddr (if sent then s'.compact else s').flat) ∧
        (sent = true ↔ ∃ f, p.frame r.outbound t.answers ipv4Only = some f ∧
          (r.session t.answers ipv4Only f).isSome) := by
  simp only [UdpRelay.turn, hr, UdpReader.next, packetAddrFrame_eq] at h
  cases hp : s.packet with
  | error e =>
    simp only [hp, Except.toOption, Option.map_none] at h
    obtain ⟨rfl, rfl⟩ := Prod.mk.inj (Option.some.inj h)
    rfl
  | ok next =>
    obtain ⟨s', p⟩ := next
    simp only [hp, Except.toOption, Option.map_some] at h ⊢
    cases hf : p.frame r.outbound t.answers ipv4Only with
    | none =>
      simp only [hf] at h
      obtain ⟨rfl, rfl⟩ := Prod.mk.inj (Option.some.inj h)
      exact ⟨false, rfl, by simp⟩
    | some f =>
      simp only [hf] at h
      cases hs : r.session t.answers ipv4Only f with
      | none =>
        simp only [hs] at h
        obtain ⟨rfl, rfl⟩ := Prod.mk.inj (Option.some.inj h)
        exact ⟨false, rfl, by simp [hs]⟩
      | some made =>
        simp only [hs] at h
        obtain ⟨rfl, -⟩ := Prod.mk.inj (Option.some.inj h)
        refine ⟨true, ?_, by simp [hs]⟩
        simp only [UdpRelay.cleanup, UdpReader.sent, if_true, PacketAddr.compact, compact]
        split_ifs <;> rfl

/-! ## What is still to be decoded -/

/-- The bytes from the start of the next packet on. -/
def unread (s : PacketAddrStream) : List UInt8 := s.buf.drop s.bufOffset ++ content s.stream

/-- The start of the next packet is in the buffer or at its end. -/
def Aligned (s : PacketAddrStream) : Prop := s.bufOffset ≤ s.buf.length

/-- A state after reads: the packet starts where it did, with at least `n` of its bytes in the buffer. -/
structure Has (s : PacketAddrStream) (n : ℕ) (s' : PacketAddrStream) : Prop where
  offset : s'.bufOffset = s.bufOffset
  unread : s'.unread = s.unread
  here : s.bufOffset + n ≤ s'.buf.length

variable {n i k : ℕ}

theorem Has.aligned (h : s.Has n s') : s'.Aligned := by
  rw [Aligned, h.offset]
  exact (Nat.le_add_right _ n).trans h.here

theorem Has.refl (ha : s.Aligned) : s.Has 0 s := ⟨rfl, rfl, ha⟩

/-- **A read makes what it needs of the unread bytes available.** -/
theorem Has.read {m : ℕ} (h : s.Has m s') (hn : n ≤ s.unread.length) :
    ∃ t, s'.readExactToBuf (s.bufOffset + n) = .ok t ∧ s.Has n t := by
  rw [← h.offset]
  have ha : s'.bufOffset ≤ s'.buf.length := h.aligned
  rw [← h.unread] at hn
  unfold readExactToBuf
  split_ifs with hlt
  · have hlen : s'.unread.length = s'.buf.length - s'.bufOffset + (content s'.stream).length := by
      simp [PacketAddrStream.unread]
    obtain ⟨r', hr, hrest⟩ :=
      recvExact_eq (List.take_append_drop (s'.bufOffset + n - s'.buf.length) (content s'.stream)).symm
    rw [List.length_take, min_eq_left (by omega)] at hr
    rw [hr]
    refine ⟨_, rfl, h.offset, ?_, ?_⟩
    · rw [← h.unread]
      simp only [PacketAddrStream.unread, hrest]
      rw [List.drop_append_of_le_length ha, List.append_assoc, List.take_append_drop]
    · rw [← h.offset]
      simp only [List.length_append, List.length_take]
      omega
  · have := h.offset
    exact ⟨s', rfl, h.offset, h.unread, by omega⟩

theorem Has.getD (h : s.Has n s') (hi : i < n) : s'.buf.getD (s.bufOffset + i) 0 = s.unread.getD i 0 := by
  have hlt := h.here
  have := h.offset
  rw [← h.unread, PacketAddrStream.unread, getD_body (by rw [List.length_drop]; omega)]
  simp [List.getD_eq_getElem?_getD, h.offset]

theorem Has.slice (h : s.Has n s') (hi : i + k ≤ n) : slice s'.buf (s.bufOffset + i) k = slice s.unread i k := by
  have hlt := h.here
  have := h.offset
  rw [← h.unread, PacketAddrStream.unread, slice_body (by rw [List.length_drop]; omega)]
  simp [RXCore.slice, h.offset]

theorem Has.u16At (h : s.Has n s') (hi : i + 1 < n) : u16At s'.buf (s.bufOffset + i) = u16At s.unread i := by
  rw [RXCore.u16At, RXCore.u16At, h.getD (by omega), Nat.add_assoc, h.getD hi]

theorem Has.portAt (h : s.Has n s') (hi : i + 1 < n) : portAt s'.buf (s.bufOffset + i) = portAt s.unread i := by
  rw [RXCore.portAt, RXCore.portAt, h.u16At hi]

/-- The start moves on past what is in the buffer. -/
theorem Has.advance (h : s.Has n s') :
    Aligned { s' with bufOffset := s.bufOffset + n } ∧
      PacketAddrStream.unread { s' with bufOffset := s.bufOffset + n } = s.unread.drop n := by
  have hlt := h.here
  refine ⟨hlt, ?_⟩
  rw [← h.unread, PacketAddrStream.unread, PacketAddrStream.unread, h.offset,
    List.drop_append_of_le_length (by rw [List.length_drop]; omega), List.drop_drop]

/-- The reads for an address of known size, and what they find. -/
theorem readFixed (ha : s.Aligned) {tag : UInt8} {octets : List UInt8} (port : UInt16) {rest : List UInt8}
    (hu : s.unread = tag :: octets ++ u16Bytes port.toNat ++ rest) :
    ∃ s1 s2, s.readExactToBuf (s.bufOffset + 1) = .ok s1 ∧ s1.bufOffset = s.bufOffset ∧
      s1.buf.getD s.bufOffset 0 = tag ∧ s1.readExactToBuf (s.bufOffset + (1 + octets.length + 2)) = .ok s2 ∧
      slice s2.buf (s.bufOffset + 1) octets.length = octets ∧
      portAt s2.buf (s.bufOffset + (1 + octets.length)) = port ∧ s.Has (1 + octets.length + 2) s2 := by
  have hport : portAt s.unread (1 + octets.length) = port := by
    rw [hu, Nat.add_comm 1, ← List.length_cons (a := tag), portAt_append]
  have hoctets : slice s.unread 1 octets.length = octets := by
    have := slice_append [tag] octets (u16Bytes port.toNat ++ rest)
    simpa [hu] using this
  have hle : 1 + octets.length + 2 ≤ s.unread.length := by simp [hu, u16Bytes]; omega
  obtain ⟨s1, h1, hs1⟩ := (Has.refl ha).read (n := 1) (by omega)
  obtain ⟨s2, h2, hs2⟩ := hs1.read hle
  refine ⟨s1, s2, h1, hs1.offset, ?_, h2, ?_, ?_, hs2⟩
  · have htype := hs1.getD (i := 0) (by omega)
    rwa [hu] at htype
  · rw [hs2.slice (by omega), hoctets]
  · rw [hs2.portAt (by omega), hport]

theorem readDest_v4 (ha : s.Aligned) (a : Ipv4Addr) (port : UInt16) {rest : List UInt8}
    (hu : s.unread = 1 :: a.octets.toList ++ u16Bytes port.toNat ++ rest) :
    ∃ s', s.readDest = .ok (s', .ip (.v4 a), port, s.bufOffset + 7) ∧ s.Has 7 s' := by
  have hlen : a.octets.toList.length = 4 := by simp
  obtain ⟨s1, s2, h1, hoffset, htype, h2, hoctets, hport, hs2⟩ := readFixed ha port hu
  rw [hlen] at h2 hoctets hport hs2
  refine ⟨s2, ?_, hs2⟩
  have h2 : s1.readExactToBuf (s.bufOffset + 1 + 4 + 2) = .ok s2 := h2
  have hport : portAt s2.buf (s.bufOffset + 5) = port := hport
  simp only [readDest, h1, bind, Except.bind, hoffset, htype, if_true, h2, hs2.offset, hoctets, hport,
    Ipv4Addr.ofOctets_octets]
  rfl

theorem readDest_v6 (ha : s.Aligned) (a : Ipv6Addr) (port : UInt16) {rest : List UInt8}
    (hu : s.unread = 4 :: a.octets ++ u16Bytes port.toNat ++ rest) :
    ∃ s', s.readDest = .ok (s', .ip (.v6 a), port, s.bufOffset + 19) ∧ s.Has 19 s' := by
  have hlen : a.octets.length = 16 := by simp
  obtain ⟨s1, s2, h1, hoffset, htype, h2, hoctets, hport, hs2⟩ := readFixed ha port hu
  rw [hlen] at h2 hoctets hport hs2
  refine ⟨s2, ?_, hs2⟩
  have h2 : s1.readExactToBuf (s.bufOffset + 1 + 16 + 2) = .ok s2 := h2
  have hport : portAt s2.buf (s.bufOffset + 17) = port := hport
  have h41 : (4 : UInt8) ≠ 1 := by decide
  have h43 : (4 : UInt8) ≠ 3 := by decide
  simp only [readDest, h1, bind, Except.bind, hoffset, htype, if_neg h41, if_neg h43, if_true, h2, hs2.offset,
    hoctets, hport, Ipv6Addr.ofOctets_octets]
  rfl

theorem readDest_name (ha : s.Aligned) {bytes : List UInt8} (hname : bytes.length ≤ 255) (port : UInt16)
    {rest : List UInt8} (hu : s.unread = 3 :: UInt8.ofNat bytes.length :: bytes ++ u16Bytes port.toNat ++ rest) :
    ∃ s', s.readDest = .ok (s', .name bytes, port, s.bufOffset + (bytes.length + 4)) ∧ s.Has (bytes.length + 4) s' := by
  have hlen : (3 :: UInt8.ofNat bytes.length :: bytes).length = 2 + bytes.length := by simp; omega
  have hport : portAt s.unread (2 + bytes.length) = port := by rw [hu, ← hlen, portAt_append]
  have htype : s.unread.getD 0 0 = 3 := by rw [hu]; rfl
  have hcount : (s.unread.getD 1 0).toNat = bytes.length := by
    have : s.unread.getD 1 0 = UInt8.ofNat bytes.length := by rw [hu]; rfl
    rw [this, UInt8.toNat_ofNat_of_lt' (Nat.lt_succ_of_le hname)]
  have hbytes : slice s.unread 2 bytes.length = bytes := by
    have := slice_append [3, UInt8.ofNat bytes.length] bytes (u16Bytes port.toNat ++ rest)
    simpa [hu] using this
  have hle : bytes.length + 4 ≤ s.unread.length := by simp [hu, u16Bytes]
  obtain ⟨s1, h1, hs1⟩ := (Has.refl ha).read (n := 1) (by omega)
  obtain ⟨s2, h2, hs2⟩ := hs1.read (n := 2) (by omega)
  obtain ⟨s3, h3, hs3⟩ := hs2.read hle
  have htype : s1.buf.getD s.bufOffset 0 = 3 := (hs1.getD (i := 0) (by omega)).trans htype
  have hcount : (s2.buf.getD (s.bufOffset + 1) 0).toNat = bytes.length := by
    rw [hs2.getD (i := 1) (by omega), hcount]
  have hneeded : s.bufOffset + 2 + bytes.length + 2 = s.bufOffset + (bytes.length + 4) := by omega
  have h31 : (3 : UInt8) ≠ 1 := by decide
  refine ⟨s3, ?_, hs3⟩
  have hportAt : portAt s3.buf (s.bufOffset + 2 + bytes.length) = port := by
    rw [Nat.add_assoc, hs3.portAt (by omega), hport]
  simp only [readDest, h1, bind, Except.bind, hs1.offset, hs2.offset, hs3.offset, htype, if_neg h31, if_true, h2,
    hcount, hneeded, h3, hs3.slice (i := 2) (k := bytes.length) (by omega), hportAt, hbytes]
  rfl

/-- **A destination is decoded as it was written.** -/
theorem readDest_encode (ha : s.Aligned) (dest : PacketDest) (hname : ∀ bytes, dest = .name bytes → bytes.length ≤ 255)
    (port : UInt16) {rest : List UInt8} (hu : s.unread = dest.tagged ++ u16Bytes port.toNat ++ rest) :
    ∃ s', s.readDest = .ok (s', dest, port, s.bufOffset + (dest.tagged.length + 2)) ∧
      s.Has (dest.tagged.length + 2) s' := by
  cases dest with
  | ip addr =>
    cases addr with
    | v4 a => simpa [PacketDest.tagged, IpAddr.tagged] using readDest_v4 ha a port hu
    | v6 a => simpa [PacketDest.tagged, IpAddr.tagged] using readDest_v6 ha a port hu
  | name bytes => simpa [PacketDest.tagged] using readDest_name ha (hname bytes rfl) port hu

/-- **A packet is decoded as it was written**, and what follows it stays unread. -/
theorem packet_encode (ha : s.Aligned) (p : AddrPacket) {rest : List UInt8} (hu : s.unread = p.encode ++ rest) :
    ∃ s', s.packet = .ok (s', p.raw) ∧ s'.Aligned ∧ s'.unread = rest ∧
      s'.bufOffset = s.bufOffset + p.encode.length := by
  have hheader : p.header.length = p.dest.tagged.length + 2 := by simp [AddrPacket.header, u16Bytes]
  have hlen : p.header.length + 2 + p.payload.length ≤ s.unread.length := by
    rw [hu, List.length_append, p.length_encode]
    exact Nat.le_add_right _ _
  have hdest : s.unread =
      p.dest.tagged ++ u16Bytes p.port.toNat ++ (u16Bytes p.payload.length ++ (p.payload ++ rest)) := by
    simp [hu, AddrPacket.encode, AddrPacket.header]
  obtain ⟨s1, h1, hs1⟩ := readDest_encode ha p.dest p.name_le p.port hdest
  rw [← hheader] at h1 hs1
  obtain ⟨s2, h2, hs2⟩ := hs1.read (n := p.header.length + 2) (by omega)
  obtain ⟨s3, h3, hs3⟩ := hs2.read hlen
  have hlenAt : RXCore.u16At s2.buf (s.bufOffset + p.header.length) = p.payload.length := by
    rw [hs2.u16At (by omega), hu, p.payloadLen_encode]
  have hsliceHeader : RXCore.slice s3.buf s.bufOffset (s.bufOffset + p.header.length - s.bufOffset) = p.header := by
    have hslice := hs3.slice (i := 0) (k := p.header.length) (by omega)
    rw [hu, p.header_encode] at hslice
    rwa [Nat.add_sub_cancel_left]
  have hslicePayload : RXCore.slice s3.buf (s.bufOffset + p.header.length + 2) p.payload.length = p.payload := by
    rw [Nat.add_assoc, hs3.slice le_rfl, hu, p.payload_encode]
  have hfits : ¬ 65535 < p.payload.length := not_lt.mpr p.payload_le
  have h2 : s1.readExactToBuf (s.bufOffset + p.header.length + 2) = .ok s2 := h2
  have hadd : s.bufOffset + (p.header.length + 2 + p.payload.length) =
      s.bufOffset + p.header.length + 2 + p.payload.length := by omega
  have hadvance := hs3.advance
  rw [hadd] at h3 hadvance
  refine ⟨{ s3 with bufOffset := s.bufOffset + p.header.length + 2 + p.payload.length }, ?_, hadvance.1, ?_, ?_⟩
  · simp only [packet, h1, bind, Except.bind, h2, hlenAt, if_neg hfits, h3, hs3.offset, hsliceHeader, hslicePayload]
    rfl
  · rw [hadvance.2, ← p.length_encode, hu, List.drop_left]
  · rw [p.length_encode, hadd]

/-- Cutting the buffer changes nothing of what is unread. -/
theorem compact_unread (ha : s.Aligned) : s.compact.Aligned ∧ s.compact.unread = s.unread := by
  rw [compact]
  split_ifs
  · exact ⟨Nat.zero_le _, rfl⟩
  · exact ⟨ha, rfl⟩

theorem turn_encode (ha : s.Aligned) (p : AddrPacket) {rest : List UInt8} (hu : s.unread = p.encode ++ rest)
    (sent : Bool) : ∃ s', s.turn sent = .ok (s', p.raw) ∧ s'.Aligned ∧ s'.unread = rest := by
  obtain ⟨t, hp, ht, hrest, -⟩ := packet_encode ha p hu
  refine ⟨if sent then t.compact else t, ?_, ?_, ?_⟩
  · rw [turn, hp]
    rfl
  · cases sent with
    | true => exact (compact_unread ht).1
    | false => exact ht
  · cases sent with
    | true => exact (compact_unread ht).2.trans hrest
    | false => exact hrest

/-- Nothing is decoded from nothing. -/
theorem turn_of_unread_nil (hu : s.unread = []) (sent : Bool) : ∃ s', s.turn sent = .error s' := by
  obtain ⟨hbuf, hcontent⟩ := List.append_eq_nil_iff.mp hu
  have hlen : s.buf.length < s.bufOffset + 1 := Nat.lt_succ_of_le (List.drop_eq_nil_iff.mp hbuf)
  have hread : ∃ s', s.readExactToBuf (s.bufOffset + 1) = .error s' := by
    rw [readExactToBuf, if_pos hlen]
    cases hr : recvExact (s.bufOffset + 1 - s.buf.length) s.stream with
    | mk bs? stream' =>
      cases bs? with
      | none => exact ⟨_, rfl⟩
      | some bs =>
        have hlength := recvExact_length hr
        have hprefix := recvExact_content hr
        rw [hcontent] at hprefix
        obtain ⟨rfl, -⟩ := List.append_eq_nil_iff.mp hprefix.symm
        simp at hlength
        omega
  obtain ⟨s', hs'⟩ := hread
  exact ⟨s', by simp only [turn, packet, readDest, hs', bind, Except.bind]⟩

theorem decodeAll_of_unread (ps : List AddrPacket) (ds : List Bool) (hlen : ds.length = ps.length) (ha : s.Aligned)
    {rest : List UInt8} (hu : s.unread = ps.flatMap AddrPacket.encode ++ rest) :
    ∃ s', decodeAll ds s = (ps.map AddrPacket.raw, s') ∧ s'.Aligned ∧ s'.unread = rest := by
  induction ps generalizing ds s with
  | nil =>
    obtain rfl := List.length_eq_zero_iff.mp hlen
    exact ⟨s, rfl, ha, by simpa using hu⟩
  | cons p ps ih =>
    obtain ⟨sent, ds, rfl⟩ := List.exists_cons_of_length_eq_add_one hlen
    rw [List.flatMap_cons, List.append_assoc] at hu
    obtain ⟨t, ht, hat, hut⟩ := turn_encode ha p hu sent
    obtain ⟨s', hs', has', hus'⟩ := ih ds (by simpa using hlen) hat hut
    exact ⟨s', by simp only [decodeAll, ht, hs', List.map_cons], has', hus'⟩

theorem decodeAll_append (ds es : List Bool) (s : PacketAddrStream) (hlen : (decodeAll ds s).1.length = ds.length) :
    decodeAll (ds ++ es) s = ((decodeAll ds s).1 ++ (decodeAll es (decodeAll ds s).2).1,
      (decodeAll es (decodeAll ds s).2).2) := by
  induction ds generalizing s with
  | nil => rfl
  | cons sent ds ih =>
    cases ht : s.turn sent with
    | error t => simp [decodeAll, ht] at hlen
    | ok next =>
      obtain ⟨t, p⟩ := next
      simp only [decodeAll, ht, List.length_cons, Nat.add_right_cancel_iff] at hlen
      simp only [List.cons_append, decodeAll, ht, ih t hlen]

end PacketAddrStream

open PacketAddrStream

/-- **The packets that were written are decoded**, in whatever pieces they arrive and whichever of them are skipped:
they are decoded in turn, what follows them stays unread, and where nothing follows the loop ends after them. -/
theorem decodeAll_encode (ps : List AddrPacket) (stream : List (Arrival UInt8)) (rest : List UInt8)
    (h : content stream = ps.flatMap AddrPacket.encode ++ rest) :
    (∀ ds, ds.length = ps.length → ∃ s', decodeAll ds (start stream) = (ps.map AddrPacket.raw, s') ∧
      s'.unread = rest) ∧
    (rest = [] → ∀ ds, ps.length ≤ ds.length → (decodeAll ds (start stream)).1 = ps.map AddrPacket.raw) := by
  have hu : (start stream).unread = ps.flatMap AddrPacket.encode ++ rest := h
  have hrun := fun ds hlen => decodeAll_of_unread ps ds hlen (Nat.zero_le _) hu
  constructor
  · intro ds hlen
    obtain ⟨s', hs', -, hrest⟩ := hrun ds hlen
    exact ⟨s', hs', hrest⟩
  · rintro rfl ds hlen
    obtain ⟨s', hs', -, hrest⟩ := hrun (ds.take ps.length) (by rw [List.length_take, min_eq_left hlen])
    have happend := decodeAll_append (ds.take ps.length) (ds.drop ps.length) (start stream)
      (by rw [hs', List.length_map, List.length_take, min_eq_left hlen])
    rw [List.take_append_drop, hs'] at happend
    have hend : (decodeAll (ds.drop ps.length) s').1 = [] := by
      cases ds.drop ps.length with
      | nil => rfl
      | cons sent more =>
        obtain ⟨t, ht⟩ := turn_of_unread_nil hrest sent
        simp only [decodeAll, ht]
    rw [happend, hend, List.append_nil]

/-- A packet to a name that is no text. -/
def noText : AddrPacket := ⟨.name [0xff], 53, [1], by simp, by simp⟩

def toLocalhost : AddrPacket := ⟨.ip (.v4 .localhost), 53, [2, 3], by simp, by simp⟩

/-- The first packet is skipped, and both arrive in three pieces. -/
theorem decodeAll_encode_noText : noText.dest.host = none ∧
    (decodeAll [false, true, true] (start [.data [3, 1], .data [0xff, 0, 53, 0, 1, 1, 1, 127, 0],
      .data [0, 1, 0, 53, 0, 2, 2, 3]])).1 = [noText.raw, toLocalhost.raw] := by
  refine ⟨by decide, ?_⟩
  exact (decodeAll_encode [noText, toLocalhost] _ [] rfl).2 rfl [false, true, true] (by decide)

end RXCore
