import RXCore.Outbound.Dial
import RXCore.Lib.Encoding
import RXCore.Lib.Tables

/-!
# UDP over a stream

`UdpOutbound` with its three framings. Each loop reads a frame off the client's stream, skips it or
sends it from the session it belongs to, which it makes when there is none. The three differ in how a
frame is read and what keeps sessions apart. Receive tasks and, in two of them, a queue with a writer
task bring datagrams back to the client.

* `standardFrame`, `multiplexedFrame`, `packetAddrFrame`: a frame is read;
* `UdpRelay.turn`: one turn of the upload loop; `UdpRelay.receive`, `UdpRelay.write`: the way back;
* **`UdpRelay.turn_through`**: a datagram leaves through the proxy of the outbound, or directly if
  it has none.
-/

set_option autoImplicit false

namespace RXCore

open Encoding Tables

structure UdpOutbound where
  outboundProxy : Option String
  bindAddress : Option String
deriving DecidableEq

/-- What a handler keeps its sessions apart by. -/
inductive SessionKey where
  /-- The one session of `handle_standard`. -/
  | only
  | assoc (id : UInt16)
  | dest (addr : SocketAddr)
deriving DecidableEq

structure OutboundSession where
  peer : UdpPeer
  /-- Its receive task runs. -/
  receiving : Bool

/-- A frame of the client, read and resolved. -/
structure Frame where
  key : SessionKey
  host : String
  port : UInt16
  /-- Where its payload goes without a proxy; `none` for the address that the socket is connected to. -/
  target : Option SocketAddr
  /-- The address and the port in the header of a SOCKS5 packet. -/
  header : List UInt8
  payload : List UInt8

/-! ## Reading a frame -/

/-- `read_exact` from what the client still sends. -/
def readExact (n : ℕ) (reader : List UInt8) : Option (List UInt8 × List UInt8) :=
  if n ≤ reader.length then some (reader.take n, reader.drop n) else none

/-- The address type and the octets of an address. -/
def IpAddr.tagged : IpAddr → List UInt8
  | .v4 a => 1 :: a.octets.toList
  | .v6 a => 4 :: a.octets

/-- A destination as `handle_standard` writes it into the header of a SOCKS5 packet. -/
def socks5Address (destAddr : String) (destPort : UInt16) : List UInt8 :=
  (match parseIpAddr destAddr with
    | some ip => ip.tagged
    | none => 3 :: UInt8.ofNat (utf8 destAddr).length :: utf8 destAddr) ++ u16Bytes destPort.toNat

/-- The reading part of the loop of `handle_standard`. -/
def standardFrame (destAddr : String) (destPort : UInt16) (reader : List UInt8) :
    Option (List UInt8 × Frame) := do
  let (headerBuf, reader) ← readExact 2 reader
  let (payload, reader) ← readExact (u16At headerBuf 0) reader
  if payload = [] then none
  else return (reader, ⟨.only, destAddr, destPort, none, socks5Address destAddr destPort, payload⟩)

/-- The target of a multiplexed frame: host and port, address, and the offset of the payload. -/
def multiplexedTarget (A : Answers) (ipv4Only : Bool) (payloadBuf : List UInt8) (frameLen : ℕ) :
    Option (String × UInt16 × SocketAddr × ℕ) :=
  let atyp := payloadBuf.getD 0 0
  if atyp = 1 then
    if frameLen < 1 + 4 + 2 then none
    else
      let ip := IpAddr.v4 (.ofOctets (slice payloadBuf 1 4))
      let port := portAt payloadBuf 5
      some (ip.display, port, ⟨ip, port⟩, 7)
  else if atyp = 4 then
    if ipv4Only ∨ frameLen < 1 + 16 + 2 then none
    else
      let ip := IpAddr.v6 (.ofOctets (slice payloadBuf 1 16))
      let port := portAt payloadBuf 17
      some (ip.display, port, ⟨ip, port⟩, 19)
  else if atyp = 3 then
    let len := (payloadBuf.getD 1 0).toNat
    if frameLen < 1 + 1 ∨ frameLen < 2 + len + 2 then none
    else
      let port := portAt payloadBuf (2 + len)
      match fromUtf8 (slice payloadBuf 2 len) with
      | none => none
      | some domain => match A.resolve domain port .direct with
        | .ok ((ip, port') :: _) => some (domain, port, ⟨.v4 ip, port'⟩, 2 + len + 2)
        | _ => none
  else none

/-- The reading part of the loop of `handle_multiplexed`. The buffer keeps what longer frames have left
in it; a frame without a target is skipped. -/
def multiplexedFrame (A : Answers) (ipv4Only : Bool) (reader payloadBuf : List UInt8) :
    Option (List UInt8 × List UInt8 × Option Frame) := do
  let (headerBuf, reader) ← readExact 4 reader
  let totalLen := u16At headerBuf 0
  if totalLen < 2 then none
  else
    let (frame, reader) ← readExact (totalLen - 2) reader
    let payloadBuf := frame ++ payloadBuf.drop frame.length
    return (reader, payloadBuf,
      (multiplexedTarget A ipv4Only payloadBuf frame.length).map fun (host, port, addr, offset) =>
        ⟨.assoc (portAt headerBuf 2), host, port, some addr, payloadBuf.take offset,
          slice payloadBuf offset (frame.length - offset)⟩)

/-- The state of the loop of `handle_packetaddr`. -/
structure PacketAddr where
  reader : List UInt8
  buf : List UInt8
  bufOffset : ℕ

/-- `read_exact_to_buf`. -/
def PacketAddr.readExactToBuf (s : PacketAddr) (needed : ℕ) : Option PacketAddr :=
  if s.buf.length < needed then
    (readExact (needed - s.buf.length) s.reader).map fun (bs, reader) =>
      { s with reader := reader, buf := s.buf ++ bs }
  else some s

/-- The destination of the packet that starts at `bufOffset`: its host if it is text, its port, and the
offset after it. -/
def PacketAddr.readDest (s : PacketAddr) : Option (PacketAddr × Option String × UInt16 × ℕ) := do
  let s ← s.readExactToBuf (s.bufOffset + 1)
  let atyp := s.buf.getD s.bufOffset 0
  if atyp = 1 then
    let needed := s.bufOffset + 1 + 4 + 2
    let s ← s.readExactToBuf needed
    let ip := IpAddr.v4 (.ofOctets (slice s.buf (s.bufOffset + 1) 4))
    return (s, some ip.display, portAt s.buf (s.bufOffset + 5), needed)
  else if atyp = 3 then
    let s ← s.readExactToBuf (s.bufOffset + 2)
    let domainLen := (s.buf.getD (s.bufOffset + 1) 0).toNat
    let needed := s.bufOffset + 2 + domainLen + 2
    let s ← s.readExactToBuf needed
    return (s, fromUtf8 (slice s.buf (s.bufOffset + 2) domainLen),
      portAt s.buf (s.bufOffset + 2 + domainLen), needed)
  else if atyp = 4 then
    let needed := s.bufOffset + 1 + 16 + 2
    let s ← s.readExactToBuf needed
    let ip := IpAddr.v6 (.ofOctets (slice s.buf (s.bufOffset + 1) 16))
    return (s, some ip.display, portAt s.buf (s.bufOffset + 17), needed)
  else none

/-- The address that keeps the session of a destination apart; behind a proxy all names share one. -/
def UdpOutbound.destSocketAddr (u : UdpOutbound) (A : Answers) (ipv4Only : Bool) (host : String)
    (port : UInt16) : Option SocketAddr :=
  match parseIpAddr host with
  | some ip =>
    if ipv4Only then (rejectIpv6Ip ip true).toOption.map fun ipv4 => ⟨.v4 ipv4, port⟩
    else some ⟨ip, port⟩
  | none =>
    if u.outboundProxy.isSome then some ⟨.v4 .localhost, 0⟩
    else match A.resolve host port .direct with
      | .ok ((ip, port) :: _) => some ⟨.v4 ip, port⟩
      | _ => none

/-- The reading part of the loop of `handle_packetaddr`. -/
def packetAddrFrame (u : UdpOutbound) (A : Answers) (ipv4Only : Bool) (s : PacketAddr) :
    Option (PacketAddr × Option Frame) := do
  let (s, destHost, destPort, nextOffset) ← s.readDest
  let lenNeeded := nextOffset + 2
  let s ← s.readExactToBuf lenNeeded
  let payloadLen := u16At s.buf nextOffset
  let payloadNeeded := lenNeeded + payloadLen
  let s ← s.readExactToBuf payloadNeeded
  let header := slice s.buf s.bufOffset (nextOffset - s.bufOffset)
  let payload := slice s.buf lenNeeded payloadLen
  let frame := destHost.bind fun host => (u.destSocketAddr A ipv4Only host destPort).map fun addr =>
    ⟨.dest addr, host, destPort, some addr, header, payload⟩
  return ({ s with bufOffset := payloadNeeded }, frame)

/-- The buffer is cut after a packet was sent, if enough of it is read. -/
def PacketAddr.compact (s : PacketAddr) : PacketAddr :=
  if 32768 < s.bufOffset then { s with buf := s.buf.drop s.bufOffset, bufOffset := 0 } else s

/-- The upload loop of a handler between two turns. -/
inductive UdpReader where
  | standard (destAddr : String) (destPort : UInt16) (reader : List UInt8)
  | multiplexed (reader payloadBuf : List UInt8)
  | packetAddr (s : PacketAddr)

/-- The next frame, or `none` for a frame that is skipped; the loop ends where nothing can be read. -/
def UdpReader.next (u : UdpOutbound) (A : Answers) (ipv4Only : Bool) :
    UdpReader → Option (UdpReader × Option Frame)
  | standard destAddr destPort reader =>
    (standardFrame destAddr destPort reader).map fun (reader, frame) =>
      (.standard destAddr destPort reader, some frame)
  | multiplexed reader payloadBuf =>
    (multiplexedFrame A ipv4Only reader payloadBuf).map fun (reader, payloadBuf, frame) =>
      (.multiplexed reader payloadBuf, frame)
  | packetAddr s => (packetAddrFrame u A ipv4Only s).map fun (s, frame) => (.packetAddr s, frame)

/-- What a handler does to its buffer once a frame was sent. -/
def UdpReader.sent : UdpReader → UdpReader
  | packetAddr s => .packetAddr s.compact
  | reader => reader

/-! ## Sessions -/

/-- A running handler with its tasks. -/
structure UdpRelay where
  outbound : UdpOutbound
  /-- The account whose counters it moves. -/
  stats : Option ℕ
  /-- The upload loop, while it runs. -/
  reader : Option UdpReader
  sessions : AList fun _ : SessionKey => OutboundSession
  /-- The frames, each with its payload, on the way to the writer task. -/
  queue : List (List UInt8 × List UInt8)
  /-- The writer task runs. -/
  writing : Bool

/-- What surrounds one turn of an upload loop. -/
structure UdpTurn where
  answers : Answers
  /-- The datagram is sent. -/
  sendOk : Bool
  /-- The sessions that have been idle for a minute, if a clean-up is due. -/
  idle : SessionKey → Bool

/-- The session of a frame: the one there is, or a new one. -/
def UdpRelay.session (r : UdpRelay) (A : Answers) (ipv4Only : Bool) (f : Frame) :
    Option (UdpPeer × UdpRelay) :=
  match r.sessions.lookup f.key with
  | some s => some (s.peer, r)
  | none =>
    match createOutboundUdp A ipv4Only f.host f.port r.outbound.outboundProxy r.outbound.bindAddress with
    | .error _ => none
    | .ok peer => some (peer, { r with sessions := r.sessions.insert f.key ⟨peer, true⟩ })

/-- The packet in which a frame leaves. -/
def UdpOutbound.datagram (u : UdpOutbound) (peer : UdpPeer) (f : Frame) : Datagram :=
  if u.outboundProxy.isSome then ⟨peer.relay, peer.sendTarget, [0, 0, 0] ++ f.header ++ f.payload, f.payload⟩
  else ⟨peer.relay, f.target.getD peer.sendTarget, f.payload, f.payload⟩

/-- The idle sessions are closed; `handle_standard` keeps its one session. -/
def UdpRelay.cleanup (r : UdpRelay) (idle : SessionKey → Bool) : UdpRelay :=
  let toRemove := r.sessions.keys.filter fun k => k ≠ .only && idle k
  { r with sessions := toRemove.foldl (fun m k => m.erase k) r.sessions }

/-- The end of the upload loop, which aborts the receive tasks. -/
def UdpRelay.finish (r : UdpRelay) : UdpRelay := { r with reader := none, sessions := ∅ }

/-- One turn of the upload loop, and the datagram that it sends. -/
def UdpRelay.turn (ipv4Only : Bool) (t : UdpTurn) (r : UdpRelay) : Option (UdpRelay × Option Datagram) :=
  match r.reader with
  | none => none
  | some reader => match reader.next r.outbound t.answers ipv4Only with
    | none => some (r.finish, none)
    | some (reader, none) => some ({ r with reader := some reader }, none)
    | some (reader, some f) => match r.session t.answers ipv4Only f with
      | none => some ({ r with reader := some reader }, none)
      | some (peer, r) => some ({ r with reader := some reader.sent }.cleanup t.idle,
          if t.sendOk then some (r.outbound.datagram peer f) else none)

/-- `UdpOutbound::handle` up to its loop. -/
def UdpOutbound.start (u : UdpOutbound) (A : Answers) (ipv4Only : Bool) (destAddr : String)
    (destPort : UInt16) (reader : List UInt8) (stats : Option ℕ) : Except String UdpRelay :=
  if destAddr = "sp.packet-addr.v2fly.arpa" then
    .ok ⟨u, stats, some (.packetAddr ⟨reader, [], 0⟩), ∅, [], true⟩
  else if destAddr = "0.0.0.0" ∧ destPort = 0 then .ok ⟨u, stats, some (.multiplexed reader []), ∅, [], true⟩
  else do
    let peer ← createOutboundUdp A ipv4Only destAddr destPort u.outboundProxy u.bindAddress
    A.udpConnect peer.sendTarget
    return ⟨u, stats, some (.standard destAddr destPort reader),
      (∅ : AList fun _ : SessionKey => OutboundSession).insert .only ⟨peer, true⟩, [], false⟩

/-! ## The way back -/

/-- `parse_socks5_udp`: the source of a packet from a relay, and the offset of its payload. -/
def parseSocks5Udp (buf : List UInt8) : Except String (IpAddr × UInt16 × ℕ) :=
  if buf.length < 4 then .error "Buffer too short for SOCKS5 UDP header"
  else
    let atyp := buf.getD 3 0
    if atyp = 1 then
      if buf.length < 10 then .error "Buffer too short for SOCKS5 UDP IPv4 header"
      else .ok (.v4 (.ofOctets (slice buf 4 4)), portAt buf 8, 10)
    else if atyp = 4 then
      if buf.length < 22 then .error "Buffer too short for SOCKS5 UDP IPv6 header"
      else .ok (.v6 (.ofOctets (slice buf 4 16)), portAt buf 20, 22)
    else .error "Unsupported SOCKS5 UDP address type"

/-- The source and the payload of a datagram that arrives from an address. -/
def UdpOutbound.downlink (u : UdpOutbound) (udpBuf : List UInt8) (remoteAddr : SocketAddr) :
    Option (SocketAddr × List UInt8) :=
  if u.outboundProxy.isSome then
    (parseSocks5Udp udpBuf).toOption.map fun (ip, port, offset) => (⟨ip, port⟩, udpBuf.drop offset)
  else some (remoteAddr, udpBuf)

/-- The frame of `handle_standard` for a payload. -/
def standardReply (payload : List UInt8) : List UInt8 := u16Bytes payload.length ++ payload

/-- The association number in the frames of a session. -/
def SessionKey.assocId : SessionKey → UInt16
  | assoc id => id
  | _ => 0

/-- The frame of the other two handlers for a payload. -/
def sessionReply (key : SessionKey) (src : SocketAddr) (payload : List UInt8) : List UInt8 :=
  let header := u16Bytes key.assocId.toNat ++ src.ip.tagged ++ u16Bytes src.port.toNat
  u16Bytes (header.length + payload.length) ++ header ++ payload

/-- The room of the queue to the writer task. -/
def downlinkCapacity : ℕ := 2048

/-- A receive task ends. -/
def UdpRelay.stopReceiving (r : UdpRelay) (key : SessionKey) (s : OutboundSession) : UdpRelay :=
  { r with sessions := r.sessions.insert key { s with receiving := false } }

/-- A receive task passes a payload on: what it writes to the client by itself, and the bytes it counts. -/
def UdpRelay.deliver (r : UdpRelay) (key : SessionKey) (s : OutboundSession) (src : SocketAddr)
    (payload : List UInt8) (writeOk : Bool) : UdpRelay × Option Egress × ℕ :=
  if key = .only then
    if writeOk then (r, some (.client (standardReply payload) payload), payload.length)
    else (r.stopReceiving key s, none, 0)
  else if r.writing = false then (r.stopReceiving key s, none, 0)
  else if r.queue.length < downlinkCapacity then
    ({ r with queue := r.queue ++ [(sessionReply key src payload, payload)] }, none, payload.length)
  else (r, none, 0)

/-- One turn of a receive task with the datagram that it gets. -/
def UdpRelay.receive (r : UdpRelay) (key : SessionKey) (udpBuf : List UInt8) (remoteAddr : SocketAddr)
    (writeOk : Bool) : Option (UdpRelay × Option Egress × ℕ) :=
  match r.sessions.lookup key with
  | none => none
  | some s =>
    if s.receiving = false then none
    else if udpBuf = [] then some (r.stopReceiving key s, none, 0)
    else match r.outbound.downlink udpBuf remoteAddr with
      | none => some (r, none, 0)
      | some (src, payload) => some (r.deliver key s src payload writeOk)

/-- One turn of the writer task. -/
def UdpRelay.write (r : UdpRelay) (writeOk : Bool) : Option (UdpRelay × Option Egress) :=
  match r.queue with
  | [] => none
  | (frame, payload) :: queue =>
    if r.writing = false then none
    else if writeOk then some ({ r with queue := queue }, some (.client frame payload))
    else some ({ r with queue := [], writing := false }, none)

/-! ## Containment -/

/-- The outbound has the given proxy, and every session goes through it. -/
structure UdpRelay.Through (proxy : Option String) (r : UdpRelay) : Prop where
  outbound : r.outbound.outboundProxy = proxy
  sessions : ∀ k s, r.sessions.lookup k = some s → s.peer.relay = proxy

variable {proxy : Option String} {r r' : UdpRelay} {A : Answers} {ipv4Only : Bool}

theorem UdpRelay.Through.insert {f : SessionKey} {s : OutboundSession} (h : r.Through proxy)
    (hs : s.peer.relay = proxy) : UdpRelay.Through proxy { r with sessions := r.sessions.insert f s } := by
  refine ⟨h.outbound, fun k t ht => ?_⟩
  rcases lookup_insert_cases ht with ⟨-, rfl⟩ | ⟨-, ht⟩
  · exact hs
  · exact h.sessions k t ht

theorem UdpRelay.Through.session {f : Frame} {peer : UdpPeer} (h : r.Through proxy)
    (hs : r.session A ipv4Only f = some (peer, r')) : peer.relay = proxy ∧ r'.Through proxy := by
  unfold UdpRelay.session at hs
  split at hs
  · next s hlookup =>
    obtain ⟨rfl, rfl⟩ := Prod.mk.inj (Option.some.inj hs)
    exact ⟨h.sessions _ s hlookup, h⟩
  · split at hs
    · cases hs
    · next peer' hpeer =>
      obtain ⟨rfl, rfl⟩ := Prod.mk.inj (Option.some.inj hs)
      have hrelay := (createOutboundUdp_relay hpeer).trans h.outbound
      exact ⟨hrelay, h.insert hrelay⟩

theorem UdpOutbound.datagram_relay (u : UdpOutbound) (peer : UdpPeer) (f : Frame) :
    (u.datagram peer f).relay = peer.relay := by
  rw [UdpOutbound.datagram]
  split_ifs <;> rfl

/-- **A turn of an upload loop sends through the proxy of its outbound.** -/
theorem UdpRelay.turn_through {t : UdpTurn} {sent : Option Datagram} (h : r.Through proxy)
    (ht : r.turn ipv4Only t = some (r', sent)) :
    r'.Through proxy ∧ ∀ d ∈ sent, d.relay = proxy := by
  unfold UdpRelay.turn at ht
  split at ht
  · cases ht
  · split at ht
    · obtain ⟨rfl, rfl⟩ := Prod.mk.inj (Option.some.inj ht)
      exact ⟨⟨h.outbound, fun k s hs => nomatch hs⟩, fun d hd => nomatch hd⟩
    · obtain ⟨rfl, rfl⟩ := Prod.mk.inj (Option.some.inj ht)
      exact ⟨⟨h.outbound, h.sessions⟩, fun d hd => nomatch hd⟩
    · split at ht
      · obtain ⟨rfl, rfl⟩ := Prod.mk.inj (Option.some.inj ht)
        exact ⟨⟨h.outbound, h.sessions⟩, fun d hd => nomatch hd⟩
      · next peer r₁ hs =>
        obtain ⟨hpeer, hr⟩ := h.session hs
        obtain ⟨rfl, rfl⟩ := Prod.mk.inj (Option.some.inj ht)
        refine ⟨⟨hr.outbound, fun k s hk => hr.sessions k s (lookup_of_lookup_foldl_erase hk)⟩, fun d hd => ?_⟩
        split_ifs at hd
        · obtain rfl := Option.some.inj hd
          rw [UdpOutbound.datagram_relay, hpeer]
        · cases hd

/-- A handler starts with its own proxy. -/
theorem UdpOutbound.start_through {u : UdpOutbound} {destAddr : String} {destPort : UInt16}
    {reader : List UInt8} {stats : Option ℕ}
    (h : u.start A ipv4Only destAddr destPort reader stats = .ok r) : r.Through u.outboundProxy := by
  have hempty : ∀ (l : UdpReader) (w : Bool),
      UdpRelay.Through u.outboundProxy ⟨u, stats, some l, ∅, [], w⟩ :=
    fun l w => ⟨rfl, fun k s hs => nomatch hs⟩
  unfold UdpOutbound.start at h
  split_ifs at h
  · obtain rfl := Except.ok.inj h
    exact hempty _ _
  · obtain rfl := Except.ok.inj h
    exact hempty _ _
  · simp only [bind_ok] at h
    obtain ⟨peer, hpeer, -, -, h⟩ := h
    obtain rfl := Except.ok.inj h
    exact (hempty _ _).insert (createOutboundUdp_relay hpeer)

theorem UdpRelay.Through.deliver {s : OutboundSession} (h : r.Through proxy) (key : SessionKey)
    (hs : s.peer.relay = proxy) (src : SocketAddr) (payload : List UInt8) (writeOk : Bool) :
    (r.deliver key s src payload writeOk).1.Through proxy ∧
      ∀ x ∈ (r.deliver key s src payload writeOk).2.1, x.Through proxy := by
  have hstop : (r.stopReceiving key s).Through proxy := h.insert hs
  unfold UdpRelay.deliver
  split_ifs
  · exact ⟨h, fun x hx => Option.some.inj hx ▸ trivial⟩
  · exact ⟨hstop, fun x hx => nomatch hx⟩
  · exact ⟨hstop, fun x hx => nomatch hx⟩
  · exact ⟨⟨h.outbound, h.sessions⟩, fun x hx => nomatch hx⟩
  · exact ⟨h, fun x hx => nomatch hx⟩

/-- A receive task sends to the client only. -/
theorem UdpRelay.receive_through {key : SessionKey} {udpBuf : List UInt8} {remoteAddr : SocketAddr}
    {writeOk : Bool} {e : Option Egress} {n : ℕ} (h : r.Through proxy)
    (hr : r.receive key udpBuf remoteAddr writeOk = some (r', e, n)) :
    r'.Through proxy ∧ ∀ x ∈ e, x.Through proxy := by
  unfold UdpRelay.receive at hr
  split at hr
  · cases hr
  · next s hs =>
    split at hr
    · cases hr
    · split at hr
      · obtain ⟨rfl, rfl, -⟩ := by simpa using hr
        exact ⟨h.insert (h.sessions key s hs), fun x hx => nomatch hx⟩
      · split at hr
        · obtain ⟨rfl, rfl, -⟩ := by simpa using hr
          exact ⟨h, fun x hx => nomatch hx⟩
        · next src payload _ =>
          have hd := h.deliver key (h.sessions key s hs) src payload writeOk
          rw [Option.some.inj hr] at hd
          exact hd

theorem UdpRelay.write_through {writeOk : Bool} {e : Option Egress} (h : r.Through proxy)
    (hw : r.write writeOk = some (r', e)) : r'.Through proxy ∧ ∀ x ∈ e, x.Through proxy := by
  unfold UdpRelay.write at hw
  split at hw
  · cases hw
  · split_ifs at hw
    · obtain ⟨rfl, rfl⟩ := Prod.mk.inj (Option.some.inj hw)
      exact ⟨⟨h.outbound, h.sessions⟩, by simp [Egress.Through]⟩
    · obtain ⟨rfl, rfl⟩ := Prod.mk.inj (Option.some.inj hw)
      exact ⟨⟨h.outbound, h.sessions⟩, by simp⟩

end RXCore
