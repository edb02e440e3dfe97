import RXCore.Outbound.Frames

/-!
# UDP frames from end to end

What one end of the tunnel writes and the other reads. On the way up a client writes `upstreamFrame`s and
`handle_multiplexed` reads them; on the way down the handlers write `sessionReply`s and the client reads them.

* `udpRequest_header`: a datagram of a client is the header of its target and its payload;
* **`uplink_roundtrip`**: every sequence of accepted datagrams is read as it was written;
* `UdpOutbound.Fits`: the datagrams whose reply has a length that 16 bits hold;
* **`downlink_exact_iff`**: the frames on the way down are read as they were written if and only if they fit.
-/

set_option autoImplicit false

namespace RXCore

open Arrivals Encoding

/-! ## Bytes -/

section

variable {bs : List UInt8} {i : ℕ}

theorem slice_append_drop (bs : List UInt8) (i n : ℕ) : slice bs i n ++ bs.drop (i + n) = bs.drop i := by
  rw [slice, ← List.drop_drop, List.take_append_drop]

theorem getD_cons_drop (h : i < bs.length) : bs.getD i 0 :: bs.drop (i + 1) = bs.drop i := by
  rw [List.getD_eq_getElem _ _ h, List.drop_eq_getElem_cons h]

/-- A port is written as it was read. -/
theorem portAt_append_drop (h : i + 1 < bs.length) : u16Bytes (portAt bs i).toNat ++ bs.drop (i + 2) = bs.drop i := by
  have hport : (portAt bs i).toNat = u16At bs i := by
    rw [portAt, UInt16.toNat_ofNat']
    exact Nat.mod_eq_of_lt (u16_lt _ _)
  have hbytes : u16Bytes (u16At bs i) = [bs.getD i 0, bs.getD (i + 1) 0] := by
    have hlo := (bs.getD (i + 1) 0).toNat_lt
    have hhi := (bs.getD i 0).toNat_lt
    rw [u16Bytes, u16At, u16, ofNat_of_eq (a := bs.getD i 0) (by omega)]
    refine congrArg (fun b => [bs.getD i 0, b]) (UInt8.toNat_inj.mp ?_)
    rw [UInt8.toNat_ofNat']
    omega
  rw [hport, hbytes, ← getD_cons_drop (show i < bs.length by omega), ← getD_cons_drop h]
  rfl

theorem slice_length {n : ℕ} (h : i + n ≤ bs.length) : (slice bs i n).length = n := by
  rw [slice, List.length_take, List.length_drop]
  omega

end

/-! ## The way up -/

/-- The name of a target has a length that one byte holds. -/
def UdpTarget.Short : UdpTarget → Prop
  | .ip _ _ => True
  | .domain name _ => (utf8 name).length ≤ 255

/-- **A datagram of a client is the header of its target and its payload.** -/
theorem udpRequest_header {recvBuf payload : List UInt8} {target : UdpTarget}
    (h : udpRequest recvBuf = some (target, payload)) : target.header ++ payload = recvBuf.drop 3 ∧ target.Short := by
  simp only [udpRequest] at h
  split_ifs at h with h4 hfrag h1 h10 h6 h22 h3 h5 hlen
  · obtain ⟨rfl, rfl⟩ := Prod.mk.inj (Option.some.inj h)
    refine ⟨?_, trivial⟩
    rw [← getD_cons_drop (show 3 < recvBuf.length by omega), h1, ← slice_append_drop recvBuf 4 4,
      ← portAt_append_drop (show 8 + 1 < recvBuf.length by omega)]
    simp only [UdpTarget.header, IpAddr.tagged, Ipv4Addr.octets_ofOctets (slice_length (show 4 + 4 ≤ recvBuf.length by omega)),
      List.cons_append, List.append_assoc]
  · obtain ⟨rfl, rfl⟩ := Prod.mk.inj (Option.some.inj h)
    refine ⟨?_, trivial⟩
    rw [← getD_cons_drop (show 3 < recvBuf.length by omega), h6, ← slice_append_drop recvBuf 4 16,
      ← portAt_append_drop (show 20 + 1 < recvBuf.length by omega)]
    simp only [UdpTarget.header, IpAddr.tagged, Ipv6Addr.octets_ofOctets (slice_length (show 4 + 16 ≤ recvBuf.length by omega)),
      List.cons_append, List.append_assoc]
  · obtain ⟨name, hname, hsome⟩ := Option.map_eq_some_iff.mp h
    obtain ⟨rfl, rfl⟩ := Prod.mk.inj hsome
    have hutf8 := utf8_of_fromUtf8 hname
    have hcount : (utf8 name).length = (recvBuf.getD 4 0).toNat := by
      rw [hutf8, slice_length (by omega)]
    have hbyte := (recvBuf.getD 4 0).toNat_lt
    refine ⟨?_, by rw [UdpTarget.Short]; omega⟩
    rw [← getD_cons_drop (show 3 < recvBuf.length by omega), h3, ← getD_cons_drop (show 3 + 1 < recvBuf.length by omega),
      ← slice_append_drop recvBuf (3 + 1 + 1) (recvBuf.getD 4 0).toNat,
      ← portAt_append_drop (show 3 + 1 + 1 + (recvBuf.getD 4 0).toNat + 1 < recvBuf.length by omega)]
    rw [UdpTarget.header, hcount, hutf8, UInt8.ofNat_toNat, List.append_assoc]
    rfl

/-- The filter of `ipv4_only` on the way up. -/
def UdpTarget.refused (ipv4Only : Bool) : UdpTarget → Bool
  | .ip (.v6 _) _ => ipv4Only
  | _ => false

/-- **The target of a packet is found in its frame.** -/
theorem bodyTarget_header (ipv4Only : Bool) {target : UdpTarget} (h : target.Short) (payload : List UInt8) :
    bodyTarget ipv4Only (target.header ++ payload) =
      if target.refused ipv4Only then none else some (target, target.header.length) := by
  cases target with
  | ip addr port =>
    cases addr with
    | v4 a =>
      have hbody : UdpTarget.header (.ip (.v4 a) port) ++ payload =
          [1] ++ a.octets.toList ++ (u16Bytes port.toNat ++ payload) := by
        simp [UdpTarget.header, IpAddr.tagged]
      have hoctets : slice ([1] ++ a.octets.toList ++ (u16Bytes port.toNat ++ payload)) 1 4 = a.octets.toList := by
        have := slice_append [1] a.octets.toList (u16Bytes port.toNat ++ payload)
        rwa [Vector.length_toList] at this
      have hport : portAt ([1] ++ a.octets.toList ++ (u16Bytes port.toNat ++ payload)) 5 = port := by
        have := portAt_append ([1] ++ a.octets.toList) payload port
        rwa [List.append_assoc ([1] ++ a.octets.toList), List.length_append, Vector.length_toList] at this
      have hlen : 7 ≤ ([1] ++ a.octets.toList ++ (u16Bytes port.toNat ++ payload)).length := by simp; omega
      have hheader : (UdpTarget.header (.ip (.v4 a) port)).length = 7 := by simp [UdpTarget.header, IpAddr.tagged]
      rw [hbody, bodyTarget, hoctets, hport, hheader]
      simp only [hlen, and_true, Ipv4Addr.ofOctets_octets]
      rfl
    | v6 a =>
      have hbody : UdpTarget.header (.ip (.v6 a) port) ++ payload =
          [4] ++ a.octets ++ (u16Bytes port.toNat ++ payload) := by
        simp [UdpTarget.header, IpAddr.tagged]
      have hoctets : slice ([4] ++ a.octets ++ (u16Bytes port.toNat ++ payload)) 1 16 = a.octets := by
        have := slice_append [4] a.octets (u16Bytes port.toNat ++ payload)
        rwa [Ipv6Addr.octets_length] at this
      have hport : portAt ([4] ++ a.octets ++ (u16Bytes port.toNat ++ payload)) 17 = port := by
        have := portAt_append ([4] ++ a.octets) payload port
        rwa [List.append_assoc ([4] ++ a.octets), List.length_append, Ipv6Addr.octets_length] at this
      have hlen : 19 ≤ ([4] ++ a.octets ++ (u16Bytes port.toNat ++ payload)).length := by simp; omega
      have hheader : (UdpTarget.header (.ip (.v6 a) port)).length = 19 := by simp [UdpTarget.header, IpAddr.tagged]
      rw [hbody, bodyTarget, hoctets, hport, hheader]
      simp only [hlen, and_true, Ipv6Addr.ofOctets_octets]
      cases ipv4Only <;> rfl
  | domain name port =>
    rw [UdpTarget.Short] at h
    have hbody : UdpTarget.header (.domain name port) ++ payload =
        [3, UInt8.ofNat (utf8 name).length] ++ utf8 name ++ (u16Bytes port.toNat ++ payload) := by
      simp [UdpTarget.header]
    have hcount : (UInt8.ofNat (utf8 name).length).toNat = (utf8 name).length := by
      rw [UInt8.toNat_ofNat']
      omega
    have hname : slice ([3, UInt8.ofNat (utf8 name).length] ++ utf8 name ++ (u16Bytes port.toNat ++ payload)) 2
        (utf8 name).length = utf8 name := slice_append [3, UInt8.ofNat (utf8 name).length] (utf8 name) _
    have hport : portAt ([3, UInt8.ofNat (utf8 name).length] ++ utf8 name ++ (u16Bytes port.toNat ++ payload))
        (2 + (utf8 name).length) = port := by
      have := portAt_append ([3, UInt8.ofNat (utf8 name).length] ++ utf8 name) payload port
      rwa [List.append_assoc (_ ++ utf8 name), List.length_append] at this
    have hlen : 2 + (utf8 name).length + 2 ≤
        ([3, UInt8.ofNat (utf8 name).length] ++ utf8 name ++ (u16Bytes port.toNat ++ payload)).length := by
      simp
      omega
    have hheader : (UdpTarget.header (.domain name port)).length = 2 + (utf8 name).length + 2 := by
      simp [UdpTarget.header]
      omega
    have hlength : ([3, UInt8.ofNat (utf8 name).length] ++ utf8 name ++ (u16Bytes port.toNat ++ payload)).getD 1 0 =
      UInt8.ofNat (utf8 name).length := rfl
    rw [hbody, bodyTarget, hlength, hcount, hname, hport, hheader, fromUtf8_utf8]
    simp only [hlen, and_true]
    rfl

/-- A packet that was made of a datagram of a client; the socket reads at most 65535 bytes. -/
def UdpUpstreamPacket.Accepted (p : UdpUpstreamPacket) : Prop :=
  ∃ recvBuf : List UInt8, recvBuf.length ≤ 65535 ∧ udpRequest recvBuf = some (p.target, p.payload)

/-- What the other end is to find in the frame of a packet. -/
def UdpUpstreamPacket.sent (ipv4Only : Bool) (p : UdpUpstreamPacket) : Option (RawFrame UdpTarget) :=
  if p.target.refused ipv4Only then none else some ⟨p.assocId, p.target, p.target.header, p.payload⟩

/-- The packet on the wire. -/
theorem upstreamFrame_wire (p : UdpUpstreamPacket) :
    upstreamFrame p = wireFrame (p.assocId, p.target.header ++ p.payload) := by
  have hlen : (u16Bytes p.assocId.toNat ++ p.target.header).length + p.payload.length =
      2 + (p.target.header ++ p.payload).length := by
    rw [List.length_append, List.length_append, u16Bytes_length, Nat.add_assoc]
  rw [upstreamFrame, wireFrame, hlen]
  simp only [List.append_assoc]

theorem UdpUpstreamPacket.Accepted.fits {p : UdpUpstreamPacket} (h : p.Accepted) :
    2 + (p.target.header ++ p.payload).length ≤ 65535 ∧ p.target.Short := by
  obtain ⟨recvBuf, hlen, hrequest⟩ := h
  obtain ⟨hheader, hshort⟩ := udpRequest_header hrequest
  refine ⟨?_, hshort⟩
  rw [hheader, List.length_drop]
  omega

theorem isolated_sent (ipv4Only : Bool) {p : UdpUpstreamPacket} (h : p.target.Short) :
    isolated (bodyTarget ipv4Only) (p.assocId, p.target.header ++ p.payload) = p.sent ipv4Only := by
  rw [isolated, bodyTarget_header ipv4Only h, UdpUpstreamPacket.sent]
  split_ifs with hrefused
  · rfl
  · simp [cut]

/-- **The way up loses nothing.** A sequence of packets that were made of datagrams of clients is read as it was
written, in whatever pieces the stream arrives and whatever is in the buffer. -/
theorem uplink_roundtrip (ipv4Only : Bool) (packets : List UdpUpstreamPacket) (haccepted : ∀ p ∈ packets, p.Accepted)
    (payloadBuf : List UInt8) (hroom : payloadBuf.length = payloadRoom) (rest : List UInt8)
    (stream : List (Arrival UInt8)) (h : content stream = packets.flatMap upstreamFrame ++ rest) :
    ∃ stream' payloadBuf', content stream' = rest ∧ framesRead (frameTarget ipv4Only) packets.length stream payloadBuf =
      .ok (some (stream', payloadBuf', packets.map (·.sent ipv4Only))) := by
  let wire : UdpUpstreamPacket → UInt16 × List UInt8 := fun p => (p.assocId, p.target.header ++ p.payload)
  have hfits : ∀ f ∈ packets.map wire, 2 + f.2.length ≤ 65535 := by
    intro f hf
    obtain ⟨p, hp, rfl⟩ := List.mem_map.mp hf
    exact (haccepted p hp).fits.1
  have hcontent : content stream = (packets.map wire).flatMap wireFrame ++ rest := by
    rw [h, List.flatMap_map]
    exact congrArg (· ++ rest) (List.flatMap_congr fun p _ => upstreamFrame_wire p)
  obtain ⟨stream', payloadBuf', hrest, -, hread⟩ := framesRead_wire (frameTarget_finds ipv4Only) _ hfits hroom hcontent
  refine ⟨stream', payloadBuf', hrest, ?_⟩
  rw [List.length_map, List.map_map] at hread
  rw [hread]
  refine congrArg (fun l => Except.ok (some (stream', payloadBuf', l))) (List.map_congr_left fun p hp => ?_)
  exact isolated_sent ipv4Only (haccepted p hp).fits.2

/-- A datagram of a client is not longer than the buffer it is read into. -/
def Socks5UdpAct.Bounded : Socks5UdpAct → Prop
  | .datagram _ _ recvBuf _ => recvBuf.length ≤ 65535
  | _ => True

/-- The packets in the queue were accepted, and the tunnel carries the frames of packets that were. -/
def Socks5Udp.Carries (s : Socks5Udp) : Prop :=
  (∀ p ∈ s.queue, p.Accepted) ∧ ∃ packets : List UdpUpstreamPacket, (∀ p ∈ packets, p.Accepted) ∧
    s.written = packets.flatMap upstreamFrame

theorem Socks5Udp.touch_queue (s : Socks5Udp) (id : UInt16) (now : ℕ) :
    (s.touch id now).queue = s.queue ∧ (s.touch id now).written = s.written := by
  unfold Socks5Udp.touch
  split <;> exact ⟨rfl, rfl⟩

theorem Socks5Udp.Carries.datagram {s : Socks5Udp} (h : s.Carries) {socket now : ℕ} {clientAddr : SocketAddr}
    {recvBuf : List UInt8} (hlen : recvBuf.length ≤ 65535) : (s.datagram socket clientAddr recvBuf now).Carries := by
  unfold Socks5Udp.datagram
  split
  · exact h
  · next target payload hrequest =>
    have hsame : (s.getOrCreateAssociation clientAddr socket now).2.queue = s.queue ∧
        (s.getOrCreateAssociation clientAddr socket now).2.written = s.written := by
      unfold Socks5Udp.getOrCreateAssociation
      split
      · exact s.touch_queue _ now
      · exact ⟨rfl, rfl⟩
    refine ⟨fun p hp => ?_, by simpa only [hsame.2] using h.2⟩
    simp only [hsame.1] at hp
    split_ifs at hp
    · rcases List.mem_append.mp hp with hp | hp
      · exact h.1 p hp
      · obtain rfl := List.mem_singleton.mp hp
        exact ⟨recvBuf, hlen, hrequest⟩
    · exact h.1 p hp

/-- **Every step of the inbound puts only whole frames of accepted packets into the tunnel.** -/
theorem Socks5Udp.Carries.step {s s' : Socks5Udp} {act : Socks5UdpAct} (h : s.Carries) (hact : act.Bounded)
    (hs : socks5UdpStep s act = some s') : s'.Carries := by
  cases act with
  | associate =>
    obtain rfl := Option.some.inj hs
    exact h
  | hangUp socket =>
    simp only [socks5UdpStep] at hs
    split_ifs at hs
    obtain rfl := Option.some.inj hs
    exact h
  | datagram socket clientAddr recvBuf now =>
    simp only [socks5UdpStep] at hs
    split_ifs at hs
    obtain rfl := Option.some.inj hs
    exact h.datagram hact
  | collect now =>
    simp only [socks5UdpStep] at hs
    split_ifs at hs
    obtain rfl := Option.some.inj hs
    exact h
  | remove =>
    simp only [socks5UdpStep] at hs
    split_ifs at hs
    obtain rfl := Option.some.inj hs
    exact h
  | upstream writeOk =>
    simp only [socks5UdpStep] at hs
    split at hs
    · cases hs
    · next packet queue hqueue =>
      obtain rfl := Option.some.inj hs
      obtain ⟨hq, packets, hp, hw⟩ := h
      rw [hqueue] at hq
      refine ⟨fun p hmem => hq p (List.mem_cons_of_mem _ hmem), ?_⟩
      cases writeOk with
      | false => exact ⟨[], fun p hmem => absurd hmem List.not_mem_nil, rfl⟩
      | true =>
        refine ⟨packets ++ [packet], fun p hmem => ?_, by simp [hw]⟩
        rcases List.mem_append.mp hmem with hmem | hmem
        · exact hp p hmem
        · rw [List.mem_singleton.mp hmem]
          exact hq packet List.mem_cons_self
  | downstream frame now sendOk =>
    obtain rfl := Option.some.inj hs
    obtain ⟨hqueue, hwritten⟩ := s.touch_queue frame.assocId now
    refine ⟨fun p hmem => h.1 p ?_, by simpa only [hwritten] using h.2⟩
    simpa only [hqueue] using hmem

theorem Socks5Udp.start_carries : Socks5Udp.start.Carries :=
  ⟨fun _ hp => (List.not_mem_nil hp).elim, [], fun _ hp => (List.not_mem_nil hp).elim, rfl⟩

/-- **In every run of the inbound, the tunnel is read as the packets that were written to it.** -/
theorem written_roundtrip {as : List Socks5UdpAct} (has : ∀ a ∈ as, a.Bounded) {s : Socks5Udp}
    (hrun : Run.exec socks5UdpStep .start as = some s) : ∃ packets : List UdpUpstreamPacket,
      (∀ p ∈ packets, p.Accepted) ∧ ∀ (ipv4Only : Bool) (stream : List (Arrival UInt8)) (payloadBuf : List UInt8),
        payloadBuf.length = payloadRoom → content stream = s.written → ∃ stream' payloadBuf', content stream' = [] ∧
          framesRead (frameTarget ipv4Only) packets.length stream payloadBuf =
            .ok (some (stream', payloadBuf', packets.map (·.sent ipv4Only))) := by
  have hmeets : Run.Meets socks5UdpStep (fun _ a => a.Bounded) .start as :=
    Run.meets_of_forall_mem (fun a ha _ => has a ha) _
  have hcarries : s.Carries := Run.exec_invariant_of_meets (I := Socks5Udp.Carries)
    (fun _ _ _ hI ha hs => hI.step ha hs) Socks5Udp.start_carries hmeets hrun
  obtain ⟨-, packets, haccepted, hwritten⟩ := hcarries
  refine ⟨packets, haccepted, fun ipv4Only stream payloadBuf hroom h => ?_⟩
  exact uplink_roundtrip ipv4Only packets haccepted payloadBuf hroom [] stream (by rw [h, hwritten, List.append_nil])

/-- A packet to the name server at 8.8.8.8, and one to a name. -/
def tunnelPackets : List UdpUpstreamPacket :=
  [⟨1, .ip (.v4 (.new 8 8 8 8)) 53, [7]⟩, ⟨2, .domain "a" 443, []⟩]

theorem tunnelPackets_accepted : ∀ p ∈ tunnelPackets, p.Accepted := by
  intro p hp
  simp only [tunnelPackets, List.mem_cons, List.not_mem_nil, or_false] at hp
  rcases hp with rfl | rfl
  · exact ⟨[0, 0, 0, 1, 8, 8, 8, 8, 0, 53, 7], by decide, by decide⟩
  · exact ⟨[0, 0, 0, 3, 1, 97, 1, 187], by decide, by decide⟩

/-- **The two packets arrive in two pieces.** -/
theorem tunnelPackets_roundtrip : ∃ stream' payloadBuf', content stream' = [] ∧
    framesRead (frameTarget true) 2 [.data ((tunnelPackets.flatMap upstreamFrame).take 5),
      .data ((tunnelPackets.flatMap upstreamFrame).drop 5)] (.replicate payloadRoom 0) =
      .ok (some (stream', payloadBuf', [some ⟨1, .ip (.v4 (.new 8 8 8 8)) 53, [1, 8, 8, 8, 8, 0, 53], [7]⟩,
        some ⟨2, .domain "a" 443, [3, 1, 97, 1, 187], []⟩])) :=
  uplink_roundtrip true tunnelPackets tunnelPackets_accepted _ List.length_replicate [] _
    (by simp only [content, List.append_nil, List.take_append_drop])

/-! ## The way down -/

/-- A datagram that a receive task gets: its session, its bytes and where it comes from. -/
structure UdpArrival where
  key : SessionKey
  udpBuf : List UInt8
  remoteAddr : SocketAddr

/-- What a receive task passes on. -/
structure SessionDatagram where
  key : SessionKey
  src : SocketAddr
  payload : List UInt8

namespace SessionDatagram

variable {r : SessionDatagram}

def frame (r : SessionDatagram) : List UInt8 := sessionReply r.key r.src r.payload

/-- The address and the port that the client is told. -/
def header (r : SessionDatagram) : List UInt8 := r.src.ip.tagged ++ u16Bytes r.src.port.toNat

/-- What the client is to find in the frame. -/
def found (r : SessionDatagram) : Option (RawFrame Unit) := some ⟨r.key.assocId, (), r.header, r.payload⟩

/-- The length of the frame fits in 16 bits. -/
def Fits (r : SessionDatagram) : Prop := 2 + (r.header ++ r.payload).length ≤ 65535

theorem frame_wire (r : SessionDatagram) : r.frame = wireFrame (r.key.assocId, r.header ++ r.payload) := by
  have hlen : (u16Bytes r.key.assocId.toNat ++ r.src.ip.tagged ++ u16Bytes r.src.port.toNat).length + r.payload.length =
      2 + (r.header ++ r.payload).length := by
    simp [header]
    omega
  rw [frame, sessionReply, wireFrame, hlen, header]
  simp only [List.append_assoc]

theorem header_length (r : SessionDatagram) :
    r.header.length = match r.src.ip with | .v4 _ => 7 | .v6 _ => 19 := by
  obtain ⟨key, ⟨ip, port⟩, payload⟩ := r
  cases ip <;> simp [header, IpAddr.tagged]

theorem isolated_found (r : SessionDatagram) :
    isolated bodyOffset (r.key.assocId, r.header ++ r.payload) = r.found := by
  have hoffset : downstreamOffset (r.header ++ r.payload) = some r.header.length := by
    obtain ⟨key, ⟨ip, port⟩, payload⟩ := r
    cases ip <;> simp [header, IpAddr.tagged, downstreamOffset]
  simp [isolated, bodyOffset, hoffset, Option.filter, cut, found]

theorem frame_length (r : SessionDatagram) : r.frame.length - 2 = 2 + (r.header ++ r.payload).length := by
  rw [frame_wire, wireFrame]
  simp

theorem frame_announces (r : SessionDatagram) : u16At r.frame 0 = (2 + (r.header ++ r.payload).length) % 65536 := by
  rw [frame_wire, wireFrame, List.append_assoc]
  exact u16At_append [] _ _

/-- The length in front of a frame is the number of bytes that follow if and only if it fits. -/
theorem announced_iff (r : SessionDatagram) : u16At r.frame 0 = r.frame.length - 2 ↔ r.Fits := by
  rw [frame_length, frame_announces, Fits]
  omega

end SessionDatagram

theorem rangeAt_length {buf bs : List UInt8} {i j : ℕ} (h : rangeAt buf i j = .ok bs) : bs.length ≤ j - i := by
  unfold rangeAt at h
  split_ifs at h
  obtain rfl := Except.ok.inj h
  exact List.length_take_le _ _

theorem frameBody_length {τ : Type} {decode : Decode τ} {payloadBuf header payload : List UInt8} {frameLen : ℕ} {t : τ}
    (h : frameBody decode payloadBuf frameLen = .ok (some (t, header, payload))) :
    (header ++ payload).length ≤ frameLen := by
  unfold frameBody at h
  rcases hdecode : decode payloadBuf frameLen with e | _ | ⟨t', offset⟩
  · rw [hdecode] at h
    cases h
  · rw [hdecode] at h
    cases h
  · rw [hdecode] at h
    by_cases hlt : frameLen < offset
    · simp [hlt] at h
    simp only [if_neg hlt, bind_ok] at h
    obtain ⟨payload', hpayload, header', hheader, h⟩ := h
    obtain ⟨-, rfl, rfl⟩ := by simpa [pure, Except.pure] using h
    have h1 := rangeAt_length hpayload
    have h2 := rangeAt_length hheader
    rw [List.length_append]
    omega

/-- A frame that was found has a length that 16 bits hold. -/
theorem frameRead_length {τ : Type} {decode : Decode τ} {stream stream' : List (Arrival UInt8)}
    {payloadBuf payloadBuf' : List UInt8} {f : RawFrame τ}
    (h : frameRead decode stream payloadBuf = .ok (some (stream', payloadBuf', some f))) :
    2 + (f.header ++ f.payload).length ≤ 65535 := by
  unfold frameRead at h
  rcases hheader : recvExact 4 stream with ⟨_ | headerBuf, stream₁⟩
  · rw [hheader] at h
    cases h
  rw [hheader] at h
  simp only at h
  split_ifs at h with hlen hroom
  · cases h
  rcases hrecv : recvExact (u16At headerBuf 0 - 2) stream₁ with ⟨_ | frame, stream₂⟩
  · rw [hrecv] at h
    cases h
  have hframe := recvExact_length hrecv
  rw [hrecv] at h
  simp only at h
  rcases hbody : frameBody decode (frame ++ payloadBuf.drop frame.length) frame.length with e | _ | ⟨t, header, payload⟩
  · rw [hbody] at h
    cases h
  · rw [hbody] at h
    cases h
  · rw [hbody] at h
    obtain ⟨-, -, rfl⟩ := by simpa [Except.map] using h
    have hle := frameBody_length hbody
    simp only
    omega

/-- **A sequence of frames that is read as it was written fits**, every one of it. -/
theorem fits_of_framesRead {stream stream' : List (Arrival UInt8)} {payloadBuf payloadBuf' rest : List UInt8}
    (rs : List SessionDatagram) (hroom : payloadBuf.length = payloadRoom)
    (h : content stream = rs.flatMap SessionDatagram.frame ++ rest)
    (hread : framesRead downstreamTarget rs.length stream payloadBuf =
      .ok (some (stream', payloadBuf', rs.map SessionDatagram.found))) : ∀ r ∈ rs, r.Fits := by
  induction rs generalizing stream payloadBuf stream' payloadBuf' with
  | nil => exact fun r hr => nomatch hr
  | cons r rs ih =>
    rw [List.length_cons, framesRead] at hread
    rcases hfirst : frameRead downstreamTarget stream payloadBuf with e | _ | ⟨stream₁, payloadBuf₁, f⟩
    · rw [hfirst] at hread
      cases hread
    · rw [hfirst] at hread
      cases hread
    rw [hfirst] at hread
    simp only at hread
    rcases hrest : framesRead downstreamTarget rs.length stream₁ payloadBuf₁ with e | _ | ⟨stream₂, payloadBuf₂, fs⟩
    · rw [hrest] at hread
      cases hread
    · rw [hrest] at hread
      cases hread
    rw [hrest] at hread
    obtain ⟨-, -, rfl, rfl⟩ := by simpa using hread
    have hfits : r.Fits := frameRead_length hfirst
    -- so the first frame was read as a whole, and the others begin where it ends
    rw [List.flatMap_cons, List.append_assoc, SessionDatagram.frame_wire] at h
    obtain ⟨stream₃, hcontent, hread'⟩ := frameRead_wire downstreamTarget_finds
      (r.key.assocId, r.header ++ r.payload) hfits hroom h
    rw [hfirst] at hread'
    obtain ⟨rfl, rfl, -⟩ := by simpa using hread'
    rw [SessionDatagram.Fits] at hfits
    have hroom' := refill_length hroom (show (r.header ++ r.payload).length ≤ payloadRoom by rw [payloadRoom]; omega)
    intro r' hr'
    rcases List.mem_cons.mp hr' with rfl | hr'
    · exact hfits
    · refine ih (?_ : (r.header ++ (r.payload ++ payloadBuf.drop (r.header.length + r.payload.length))).length = payloadRoom)
        hcontent hrest r' hr'
      simpa using hroom'

/-- What a receive task passes on of a datagram; a packet of a proxy that cannot be read is skipped. -/
def UdpOutbound.delivered (u : UdpOutbound) (a : UdpArrival) : Option SessionDatagram :=
  (u.downlink a.udpBuf a.remoteAddr).map fun (src, payload) => ⟨a.key, src, payload⟩

/-- The datagrams whose frame has a length that 16 bits hold: all that come through a proxy, and else those that
leave room for the address of their sender. -/
def UdpOutbound.Fits (u : UdpOutbound) (a : UdpArrival) : Prop :=
  u.outboundProxy.isSome ∨ match a.remoteAddr.ip with
    | .v4 _ => a.udpBuf.length ≤ 65526
    | .v6 _ => a.udpBuf.length ≤ 65514

/-- The payload in a packet of a proxy starts after a header that is longer than the one that replaces it. -/
theorem parseSocks5Udp_offset {buf : List UInt8} {ip : IpAddr} {port : UInt16} {offset : ℕ}
    (h : parseSocks5Udp buf = .ok (ip, port, offset)) :
    offset ≤ buf.length ∧ offset = match ip with | .v4 _ => 10 | .v6 _ => 22 := by
  simp only [parseSocks5Udp] at h
  split_ifs at h
  · obtain ⟨rfl, rfl, rfl⟩ := by simpa using h
    exact ⟨by omega, rfl⟩
  · obtain ⟨rfl, rfl, rfl⟩ := by simpa using h
    exact ⟨by omega, rfl⟩

theorem SessionDatagram.fits_iff (r : SessionDatagram) : r.Fits ↔ match r.src.ip with
    | .v4 _ => r.payload.length ≤ 65526
    | .v6 _ => r.payload.length ≤ 65514 := by
  rw [SessionDatagram.Fits, List.length_append, r.header_length]
  cases r.src.ip <;> simp only <;> omega

/-- What is passed on fits if and only if the datagram does. -/
theorem UdpOutbound.delivered_fits {u : UdpOutbound} {a : UdpArrival} {r : SessionDatagram}
    (hroom : a.udpBuf.length ≤ 65535) (h : u.delivered a = some r) : r.Fits ↔ u.Fits a := by
  obtain ⟨⟨src, payload⟩, hdown, rfl⟩ := Option.map_eq_some_iff.mp h
  rw [SessionDatagram.fits_iff, UdpOutbound.Fits]
  unfold UdpOutbound.downlink at hdown
  split_ifs at hdown with hproxy
  · obtain ⟨⟨ip, port, offset⟩, hparse, hsome⟩ := Option.map_eq_some_iff.mp hdown
    obtain ⟨rfl, rfl⟩ := Prod.mk.inj hsome
    have hok : parseSocks5Udp a.udpBuf = .ok (ip, port, offset) := by
      cases hp : parseSocks5Udp a.udpBuf with
      | error e => rw [hp] at hparse; cases hparse
      | ok v => rw [hp] at hparse; exact congrArg Except.ok (Option.some.inj hparse)
    obtain ⟨hle, hoffset⟩ := parseSocks5Udp_offset hok
    refine iff_of_true ?_ (.inl hproxy)
    cases ip <;> simp only [List.length_drop] at hoffset ⊢ <;> omega
  · obtain ⟨rfl, rfl⟩ := Prod.mk.inj (Option.some.inj hdown)
    exact (or_iff_right hproxy).symm

/-- What receive tasks pass on in turn is what the client reads, in whatever pieces the stream arrives and whatever
is in the buffer. -/
def Recovered (rs : List SessionDatagram) : Prop :=
  ∀ (stream : List (Arrival UInt8)) (payloadBuf rest : List UInt8), payloadBuf.length = payloadRoom →
    content stream = rs.flatMap SessionDatagram.frame ++ rest →
      ∃ stream' payloadBuf', content stream' = rest ∧ framesRead downstreamTarget rs.length stream payloadBuf =
        .ok (some (stream', payloadBuf', rs.map SessionDatagram.found))

theorem recovered_iff (rs : List SessionDatagram) : Recovered rs ↔ ∀ r ∈ rs, r.Fits := by
  constructor
  · intro h
    obtain ⟨stream', payloadBuf', -, hread⟩ := h [.data (rs.flatMap SessionDatagram.frame)] (.replicate payloadRoom 0) []
      List.length_replicate rfl
    exact fits_of_framesRead rs List.length_replicate rfl hread
  · intro hfits stream payloadBuf rest hroom h
    let wire : SessionDatagram → UInt16 × List UInt8 := fun r => (r.key.assocId, r.header ++ r.payload)
    have hfits' : ∀ f ∈ rs.map wire, 2 + f.2.length ≤ 65535 := by
      intro f hf
      obtain ⟨r, hr, rfl⟩ := List.mem_map.mp hf
      exact hfits r hr
    have hcontent : content stream = (rs.map wire).flatMap wireFrame ++ rest := by
      rw [h, List.flatMap_map]
      exact congrArg (· ++ rest) (List.flatMap_congr fun r _ => r.frame_wire)
    obtain ⟨stream', payloadBuf', hrest, -, hread⟩ := framesRead_wire downstreamTarget_finds _ hfits' hroom hcontent
    refine ⟨stream', payloadBuf', hrest, ?_⟩
    rw [List.length_map, List.map_map] at hread
    rw [hread]
    exact congrArg (fun l => Except.ok (some (stream', payloadBuf', l))) (List.map_congr_left fun r _ => r.isolated_found)

/-- The reply of `handle_standard` says its length. -/
theorem standardReply_announced {payload : List UInt8} (h : payload.length ≤ 65535) :
    u16At (standardReply payload) 0 = (standardReply payload).length - 2 := by
  have hread : u16At (standardReply payload) 0 = payload.length % 65536 := u16At_append [] payload payload.length
  rw [hread, standardReply, List.length_append, u16Bytes_length]
  omega

theorem UdpOutbound.delivered_length {u : UdpOutbound} {a : UdpArrival} {r : SessionDatagram}
    (h : u.delivered a = some r) : r.payload.length ≤ a.udpBuf.length := by
  obtain ⟨⟨src, payload⟩, hdown, rfl⟩ := Option.map_eq_some_iff.mp h
  unfold UdpOutbound.downlink at hdown
  split_ifs at hdown
  · obtain ⟨⟨ip, port, offset⟩, -, hsome⟩ := Option.map_eq_some_iff.mp hdown
    obtain ⟨rfl, rfl⟩ := Prod.mk.inj hsome
    rw [List.length_drop]
    omega
  · obtain ⟨rfl, rfl⟩ := Prod.mk.inj (Option.some.inj hdown)
    exact le_rfl

/-- **The way down is exact if and only if the datagrams fit.** The replies of `handle_standard` always say their
length; the frames of the other two handlers say it, and their sequence is read as it was written, if and only if
every datagram leaves room for the header of its frame. -/
theorem downlink_exact_iff (u : UdpOutbound) (arrivals : List UdpArrival)
    (hroom : ∀ a ∈ arrivals, a.udpBuf.length ≤ 65535) :
    (∀ r ∈ arrivals.filterMap u.delivered,
      u16At (standardReply r.payload) 0 = (standardReply r.payload).length - 2) ∧
    ((∀ r ∈ arrivals.filterMap u.delivered, u16At r.frame 0 = r.frame.length - 2) ↔ ∀ a ∈ arrivals, u.Fits a) ∧
    (Recovered (arrivals.filterMap u.delivered) ↔ ∀ a ∈ arrivals, u.Fits a) := by
  have hfits : (∀ r ∈ arrivals.filterMap u.delivered, r.Fits) ↔ ∀ a ∈ arrivals, u.Fits a := by
    constructor
    · intro h a ha
      cases hr : u.delivered a with
      | none =>
        -- only packets of a proxy are skipped
        left
        by_contra hproxy
        simp [UdpOutbound.delivered, UdpOutbound.downlink, hproxy] at hr
      | some r => exact (UdpOutbound.delivered_fits (hroom a ha) hr).mp (h r (List.mem_filterMap.mpr ⟨a, ha, hr⟩))
    · intro h r hr
      obtain ⟨a, ha, hr⟩ := List.mem_filterMap.mp hr
      exact (UdpOutbound.delivered_fits (hroom a ha) hr).mpr (h a ha)
  refine ⟨fun r hr => ?_, ?_, ?_⟩
  · obtain ⟨a, ha, hr⟩ := List.mem_filterMap.mp hr
    exact standardReply_announced ((UdpOutbound.delivered_length hr).trans (hroom a ha))
  · rw [← hfits]
    exact forall₂_congr fun r _ => r.announced_iff
  · rw [← hfits]
    exact recovered_iff _

/-- A datagram of 65515 bytes from an IPv6 address, in a session of its own. -/
def longArrival : UdpArrival :=
  ⟨.assoc 1, .replicate 65515 0, ⟨.v6 ⟨#v[0x2001, 0xdb8, 0, 0, 0, 0, 0, 1]⟩, 443⟩⟩

/-- An outbound without a proxy. -/
def directUdp : UdpOutbound := ⟨none, none⟩

/-- What the client gets of a datagram from a name server. -/
theorem nameServer_recovered :
    Recovered ([⟨.assoc 1, [9], ⟨.v4 (.new 8 8 8 8), 53⟩⟩].filterMap directUdp.delivered) :=
  (downlink_exact_iff directUdp [⟨.assoc 1, [9], ⟨.v4 (.new 8 8 8 8), 53⟩⟩] (by decide)).2.2.mpr
    (fun a ha => by
      obtain rfl := List.mem_singleton.mp ha
      exact .inr (by decide))

/-- **A long datagram over IPv6 makes a frame of length zero**, at which the client stops reading. -/
theorem longArrival_lost : ∃ r, directUdp.delivered longArrival = some r ∧ u16At r.frame 0 = 0 ∧
    r.frame.length - 2 = 65536 ∧ ¬ Recovered [r] := by
  obtain ⟨r, hr, hsrc, hpayload⟩ : ∃ r, directUdp.delivered longArrival = some r ∧ r.src = longArrival.remoteAddr ∧
      r.payload = .replicate 65515 0 := ⟨_, rfl, rfl, rfl⟩
  have hlength : (r.header ++ r.payload).length = 65534 := by
    rw [List.length_append, r.header_length, hsrc, hpayload, List.length_replicate]
    rfl
  refine ⟨r, hr, ?_, ?_, fun h => ?_⟩
  · rw [r.frame_announces, hlength]
  · rw [r.frame_length, hlength]
  · rw [recovered_iff, List.forall_mem_singleton, SessionDatagram.Fits, hlength] at h
    exact absurd h (by decide)

end RXCore
