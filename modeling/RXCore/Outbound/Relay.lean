import RXCore.Outbound.Udp
import RXCore.Outbound.Stream
import RXCore.State.Engine

/-!
# Outbound handlers

The outbound handlers as tasks that run beside those of other connections. A handler dials, and then
relays step by step; parts of some handlers are tasks of their own, which outlive the handler when it
is dropped.

* `Handler`, `getOutboundHandler`; `vlessRequestHeader`;
* `Handler.start`: a handler up to its loops; `Relay.step`: a step of the handler itself, `Relay.task`: a
  step of one of its tasks, `Relay.detach`: what is left of a handler that is dropped;
* **`Relay.step_through`**, **`Relay.task_through`**: what is forwarded goes through the proxy of the
  handler.
-/

set_option autoImplicit false

namespace RXCore

open Arrivals Encoding

/-- The outbound handlers, by their settings. -/
inductive Handler where
  | freedom (outboundProxy bindAddress : Option String)
  | fragment (settings : Option FragmentSettings)
  | vless (config : VlessClientConfig) (isUdp : Bool) (outboundProxy bindAddress : Option String)
  | udp (outbound : UdpOutbound)
  | blackhole
deriving DecidableEq

/-- `get_outbound_handler`. -/
def getOutboundHandler (config : Option OutboundConfig) (isUdp : Bool) : Except String Handler :=
  let fallback : Handler := if isUdp then .udp ⟨none, none⟩ else .freedom none none
  match config with
  | none => .ok fallback
  | some c =>
    if c.protocol = "freedom" then
      .ok (if isUdp then .udp ⟨c.outboundProxy, c.bindAddress⟩ else .freedom c.outboundProxy c.bindAddress)
    else if c.protocol = "fragment" then .ok (.fragment (c.settings.bind (·.fragment)))
    else if c.protocol = "vless" then
      match c.settings.bind (·.vless) with
      | none => .error "VLESS client outbound configuration missing"
      | some settings => .ok (.vless settings isUdp c.outboundProxy c.bindAddress)
    else if c.protocol = "blackhole" then .ok .blackhole
    else .ok fallback

/-- The destination of a connection. -/
structure Target where
  destAddr : String
  destPort : UInt16
deriving DecidableEq

/-- A relaying connection. -/
inductive Relay where
  /-- The handler has not connected yet. -/
  | starting (handler : Handler) (target : Target) (client : List (Arrival UInt8))
      (clientEmail : Option String)
  | freedom (peer : TcpPeer) (user : Option ℕ) (kind : Kind) (up down : Half)
  | fragment (peer : TcpPeer) (stats : Option ℕ) (settings : Option FragmentSettings) (up : FragmentUp)
      (down : Pipe)
  /-- The header that went ahead, both directions, and the bytes that each has counted. -/
  | vless (peer : TcpPeer) (header : List UInt8) (stats : Option ℕ) (up down : Pipe) (upBytes downBytes : ℕ)
  | udp (relay : UdpRelay)
  | ended

/-! ## Connecting -/

/-- What surrounds a handler while it connects. -/
structure Connect where
  answers : Answers
  /-- The limit of ten seconds passes. -/
  timedOut : Bool
  /-- The TLS handshake with a VLESS server. -/
  tls : Except String Unit
  /-- The two bytes with which a VLESS server responds. -/
  response : Except String (List UInt8)
  /-- What the other side sends. -/
  remote : List (Arrival UInt8)
  now : ℚ

/-- The request header of the VLESS outbound. -/
def vlessRequestHeader (uuid : Uuid) (isUdp ipv4Only : Bool) (t : Target) : Except String (List UInt8) :=
  let cmd : UInt8 := if isUdp then 2 else 1
  let header := [0] ++ uuid.toList ++ [0] ++ [cmd] ++ u16Bytes t.destPort.toNat
  match parseIpAddr t.destAddr with
  | some (.v4 ipv4) => .ok (header ++ [1] ++ ipv4.octets.toList)
  | some (.v6 ipv6) =>
    if ipv4Only then .error "IPv6 targets are not allowed under IPv4-only mode"
    else .ok (header ++ [3] ++ ipv6.octets)
  | none => .ok (header ++ [2] ++ [UInt8.ofNat (utf8 t.destAddr).length] ++ utf8 t.destAddr)

/-- Which of its three paths `copy_bidirectional_with_rate_limit` takes. -/
def copyKind (speedLimit : Option ℕ) (hasQuotaLimit : Bool) : Kind :=
  match speedLimit.filter (0 < ·) with
  | some limit => ⟨true, maxChunk limit, some limit⟩
  | none => ⟨hasQuotaLimit, 32768, none⟩

/-- `FreedomOutbound::handle` from its connection on. -/
def startFreedom (s : EngineState) (connId : Uuid) (c : Connect) (client : List (Arrival UInt8))
    (peer : TcpPeer) : Relay :=
  let userUuid := (s.connectionOf connId).bind (·.userUuid)
  let user := userUuid.bind (owner s.users)
  let hasQuotaLimit := match user with
    | some r => (s.heap r).remainingBytes != -1
    | none => false
  .freedom peer user (copyKind (userUuid.bind s.getUserSpeedLimit) hasQuotaLimit) (.start client c.now)
    (.start c.remote c.now)

/-- `Uuid::parse_str`, or an error. -/
def parseUuidOrErr (X : Crates) (s : String) : Except String Uuid :=
  match X.parseUuid s with
  | some u => .ok u
  | none => .error "invalid UUID"

/-- The handshake of a VLESS client over a connection: the header that it sends. -/
def vlessHandshake (X : Crates) (c : Connect) (config : VlessClientConfig) (isUdp ipv4Only : Bool)
    (t : Target) : Except String (List UInt8) := do
  if config.tls.isSome then c.tls else .ok ()
  let uuid ← parseUuidOrErr X config.uuid
  let header ← vlessRequestHeader uuid isUdp ipv4Only t
  let response ← c.response
  refuseIf (response.getD 0 0 ≠ 0) "Invalid response protocol version from server"
  return header

/-- A handler up to its loops. -/
def Handler.start (X : Crates) (s : EngineState) (connId : Uuid) (c : Connect) (t : Target)
    (client : List (Arrival UInt8)) (clientEmail : Option String) : Handler → Except String Relay
  | freedom outboundProxy bindAddress => do
    let peer ← dialTcp c.answers s.config.network.ipv4Only t.destAddr t.destPort bindAddress outboundProxy
    return startFreedom s connId c client peer
  | fragment settings => do
    refuseIf c.timedOut "Dial destination timed out"
    let addr ← c.answers.tcpConnect t.destAddr t.destPort
    return .fragment (.direct addr) (s.getUserStats clientEmail) settings (.start client) (.start c.remote)
  | vless config isUdp outboundProxy bindAddress => do
    refuseIf c.timedOut "Dial VLESS server timed out"
    let peer ← dialTcp c.answers s.config.network.ipv4Only config.server config.port bindAddress
      outboundProxy
    let header ← vlessHandshake X c config isUdp s.config.network.ipv4Only t
    return .vless peer header (s.getUserStats clientEmail) (.start client) (.start c.remote) 0 0
  | udp outbound => do
    let r ← outbound.start c.answers s.config.network.ipv4Only t.destAddr t.destPort (content client)
      (s.getUserStats clientEmail)
    return .udp r
  | blackhole => return .ended

/-! ## Steps -/

/-- What a step leaves: the accounts, whether the engine became dirty, the relay and its traffic. -/
structure Outcome where
  heap : Heap
  dirty : Bool
  relay : Relay
  sent : List Egress

/-- Bytes counted for an account. -/
def countBytes (heap : Heap) (stats : Option ℕ) (d : Direction) (bytes : ℕ) : Heap :=
  match stats with
  | some r => Function.update heap r ((heap r).count d bytes)
  | none => heap

/-- The traffic of one write of a TCP relay. -/
def forwardTcp (peer : TcpPeer) (d : Direction) (bytes : List UInt8) : List Egress :=
  if bytes = [] then []
  else match d with
    | .tx => [.tcp peer bytes]
    | .rx => [.client bytes bytes]

/-- A direction with the account as it is now. -/
def Half.load (heap : Heap) (user : Option ℕ) (h : Half) : Half :=
  { h with copy := { h.copy with user := user.map heap } }

/-- The counters of the account as a direction leaves them. -/
def Half.store (heap : Heap) (user : Option ℕ) (h : Half) : Heap :=
  match user, h.copy.user with
  | some r, some u => Function.update heap r { heap r with
      remainingBytes := u.remainingBytes
      rx := u.rx
      tx := u.tx }
  | _, _ => heap

/-- A freedom relay ends with its download, or with a fault of its upload. -/
def Relay.select (peer : TcpPeer) (user : Option ℕ) (kind : Kind) (up down : Half) : Relay :=
  match up.phase, down.phase with
  | .ended false, _ => .ended
  | _, .ended _ => .ended
  | _, _ => .freedom peer user kind up down

/-- A VLESS relay ends with a fault, or with both directions, whose bytes are counted then. -/
def Relay.join (heap : Heap) (peer : TcpPeer) (header : List UInt8) (stats : Option ℕ) (up down : Pipe)
    (upBytes downBytes : ℕ) (sent : List Egress) : Outcome :=
  match up.ended, down.ended with
  | some false, _ => ⟨heap, false, .ended, sent⟩
  | _, some false => ⟨heap, false, .ended, sent⟩
  | some true, some true =>
    ⟨countBytes (countBytes heap stats .rx upBytes) stats .tx downBytes, false, .ended, sent⟩
  | _, _ => ⟨heap, false, .vless peer header stats up down upBytes downBytes, sent⟩

/-- What the handler of a connection does next. -/
inductive RelayEvent where
  | connect (c : Connect)
  | half (d : Direction) (e : HalfEvent)
  /-- The 15 seconds that a download may go on after the upload are over. -/
  | drained
  | pipe (d : Direction) (e : PipeEvent)
  | turn (t : UdpTurn)
  /-- Both tasks of a fragmenting handler are joined. -/
  | joined

/-- A step of a handler. -/
def Relay.step (X : Crates) (s : EngineState) (connId : Uuid) : Relay → RelayEvent → Option Outcome
  | .starting h t client email, .connect c =>
    match h.start X s connId c t client email with
    | .ok r => some ⟨s.heap, false, r, []⟩
    | .error _ => some ⟨s.heap, false, .ended, []⟩
  | .freedom peer user kind up down, .half .tx e =>
    ((up.load s.heap user).step kind .tx e).map fun (up, bytes) =>
      ⟨up.store s.heap user, up.copy.dirty, .select peer user kind up down, forwardTcp peer .tx bytes⟩
  | .freedom peer user kind up down, .half .rx e =>
    ((down.load s.heap user).step kind .rx e).map fun (down, bytes) =>
      ⟨down.store s.heap user, down.copy.dirty, .select peer user kind up down, forwardTcp peer .rx bytes⟩
  | .freedom _ _ _ up _, .drained =>
    if up.phase = .ended true then some ⟨s.heap, false, .ended, []⟩ else none
  | .vless peer header stats up down upBytes downBytes, .pipe .tx e =>
    (up.step e).map fun (up, bytes, n) =>
      Relay.join s.heap peer header stats up down (upBytes + n) downBytes (forwardTcp peer .tx bytes)
  | .vless peer header stats up down upBytes downBytes, .pipe .rx e =>
    (down.step e).map fun (down, bytes, n) =>
      Relay.join s.heap peer header stats up down upBytes (downBytes + n) (forwardTcp peer .rx bytes)
  | .udp r, .turn t =>
    (r.turn s.config.network.ipv4Only t).map fun (r', sent) =>
      ⟨countBytes s.heap r.stats .tx ((sent.map (·.payload.length)).getD 0), false, .udp r',
        (sent.map Egress.udp).toList⟩
  | .fragment _ _ _ up down, .joined =>
    match up.phase, down.ended with
    | .ended, some _ => some ⟨s.heap, false, .ended, []⟩
    | _, _ => none
  | _, _ => none

/-- What a task that a handler has spawned does next. -/
inductive TaskEvent where
  | fragmentUp (e : FragmentEvent)
  | fragmentDown (e : PipeEvent)
  | receive (key : SessionKey) (udpBuf : List UInt8) (remoteAddr : SocketAddr) (writeOk : Bool)
  | write (writeOk : Bool)

/-- A step of a task. -/
def Relay.task (s : EngineState) : Relay → TaskEvent → Option Outcome
  | .fragment peer stats settings up down, .fragmentUp e =>
    (up.step settings e).map fun (up, bytes, n) =>
      ⟨countBytes s.heap stats .tx n, false, .fragment peer stats settings up down,
        forwardTcp peer .tx bytes⟩
  | .fragment peer stats settings up down, .fragmentDown e =>
    (down.step e).map fun (down, bytes, n) =>
      ⟨countBytes s.heap stats .rx n, false, .fragment peer stats settings up down,
        forwardTcp peer .rx bytes⟩
  | .udp r, .receive key udpBuf remoteAddr writeOk =>
    (r.receive key udpBuf remoteAddr writeOk).map fun (r', sent, n) =>
      ⟨countBytes s.heap r.stats .rx n, false, .udp r', sent.toList⟩
  | .udp r, .write writeOk =>
    (r.write writeOk).map fun (r', sent) => ⟨s.heap, false, .udp r', sent.toList⟩
  | _, _ => none

/-- The handler has returned. -/
def Relay.returned : Relay → Bool
  | .ended => true
  | .udp r => r.reader.isNone
  | _ => false

/-- What is left of a handler that has returned or is dropped: the tasks that it has spawned. -/
def Relay.detach : Relay → Relay
  | .fragment peer stats settings up down => .fragment peer stats settings up down
  | .udp r => .udp { r with reader := none }
  | _ => .ended

/-! ## Containment -/

/-- The handler makes its connections through the given proxy, or without one. -/
def Handler.Through (proxy : Option String) : Handler → Prop
  | freedom outboundProxy _ => outboundProxy = proxy
  | fragment _ => none = proxy
  | vless _ _ outboundProxy _ => outboundProxy = proxy
  | udp outbound => outbound.outboundProxy = proxy
  | blackhole => True

/-- The relay has its connections through the given proxy. -/
def Relay.Through (proxy : Option String) : Relay → Prop
  | starting h _ _ _ => h.Through proxy
  | freedom peer _ _ _ _ => peer.through = proxy
  | fragment peer _ _ _ _ => peer.through = proxy
  | vless peer _ _ _ _ _ _ => peer.through = proxy
  | udp r => r.Through proxy
  | ended => True

section

variable {X : Crates} {s : EngineState} {connId : Uuid} {proxy : Option String} {r : Relay} {o : Outcome}

theorem Handler.start_through {h : Handler} {c : Connect} {t : Target} {client : List (Arrival UInt8)}
    {email : Option String} (hh : h.Through proxy) (hs : h.start X s connId c t client email = .ok r) :
    r.Through proxy := by
  cases h with
  | freedom outboundProxy bindAddress =>
    simp only [Handler.start, bind_ok] at hs
    obtain ⟨peer, hpeer, hs⟩ := hs
    obtain rfl := Except.ok.inj hs
    exact (dialTcp_through hpeer).trans hh
  | fragment settings =>
    simp only [Handler.start, bind_ok] at hs
    obtain ⟨-, -, addr, -, hs⟩ := hs
    obtain rfl := Except.ok.inj hs
    exact hh
  | vless config isUdp outboundProxy bindAddress =>
    simp only [Handler.start, bind_ok] at hs
    obtain ⟨-, -, peer, hpeer, header, -, hs⟩ := hs
    obtain rfl := Except.ok.inj hs
    exact (dialTcp_through hpeer).trans hh
  | udp outbound =>
    simp only [Handler.start, bind_ok] at hs
    obtain ⟨u, hu, hs⟩ := hs
    obtain rfl := Except.ok.inj hs
    have hu := UdpOutbound.start_through hu
    rw [show outbound.outboundProxy = proxy from hh] at hu
    exact hu
  | blackhole =>
    obtain rfl := Except.ok.inj hs
    trivial

theorem forwardTcp_through {peer : TcpPeer} (h : peer.through = proxy) (d : Direction)
    (bytes : List UInt8) : ∀ e ∈ forwardTcp peer d bytes, e.Through proxy := by
  unfold forwardTcp
  split_ifs
  · simp
  · cases d <;> simp [Egress.Through, h]

theorem Relay.select_through {peer : TcpPeer} (h : peer.through = proxy) (user : Option ℕ) (kind : Kind)
    (up down : Half) : (Relay.select peer user kind up down).Through proxy := by
  unfold Relay.select
  split
  · trivial
  · trivial
  · exact h

theorem Relay.join_through {peer : TcpPeer} (h : peer.through = proxy) (heap : Heap) (header : List UInt8)
    (stats : Option ℕ) (up down : Pipe) (upBytes downBytes : ℕ) (sent : List Egress) :
    (Relay.join heap peer header stats up down upBytes downBytes sent).relay.Through proxy ∧
      (Relay.join heap peer header stats up down upBytes downBytes sent).sent = sent := by
  unfold Relay.join
  split
  · exact ⟨trivial, rfl⟩
  · exact ⟨trivial, rfl⟩
  · exact ⟨trivial, rfl⟩
  · exact ⟨h, rfl⟩

/-- **A step of a handler keeps to its proxy.** -/
theorem Relay.step_through {e : RelayEvent} (h : r.Through proxy) (hs : r.step X s connId e = some o) :
    o.relay.Through proxy ∧ ∀ x ∈ o.sent, x.Through proxy := by
  unfold Relay.step at hs
  split at hs
  · split at hs
    · next hstart =>
      obtain rfl := Option.some.inj hs
      exact ⟨Handler.start_through h hstart, by simp⟩
    · obtain rfl := Option.some.inj hs
      exact ⟨trivial, by simp⟩
  · obtain ⟨⟨up, bytes⟩, -, rfl⟩ := Option.map_eq_some_iff.mp hs
    exact ⟨Relay.select_through h _ _ _ _, forwardTcp_through h .tx bytes⟩
  · obtain ⟨⟨down, bytes⟩, -, rfl⟩ := Option.map_eq_some_iff.mp hs
    exact ⟨Relay.select_through h _ _ _ _, forwardTcp_through h .rx bytes⟩
  · split at hs
    · obtain rfl := Option.some.inj hs
      exact ⟨trivial, by simp⟩
    · cases hs
  · obtain ⟨⟨up, bytes, n⟩, -, rfl⟩ := Option.map_eq_some_iff.mp hs
    obtain ⟨h1, h2⟩ := Relay.join_through h _ _ _ _ _ _ _ _
    exact ⟨h1, h2 ▸ forwardTcp_through h .tx bytes⟩
  · obtain ⟨⟨down, bytes, n⟩, -, rfl⟩ := Option.map_eq_some_iff.mp hs
    obtain ⟨h1, h2⟩ := Relay.join_through h _ _ _ _ _ _ _ _
    exact ⟨h1, h2 ▸ forwardTcp_through h .rx bytes⟩
  · obtain ⟨⟨r', sent⟩, hturn, rfl⟩ := Option.map_eq_some_iff.mp hs
    obtain ⟨h1, h2⟩ := UdpRelay.turn_through h hturn
    refine ⟨h1, fun x hx => ?_⟩
    obtain ⟨d, hd, rfl⟩ := by simpa using hx
    exact h2 d hd
  · split at hs
    · obtain rfl := Option.some.inj hs
      exact ⟨trivial, by simp⟩
    · cases hs
  · cases hs

/-- **A step of a task keeps to the proxy of its handler.** -/
theorem Relay.task_through {e : TaskEvent} (h : r.Through proxy) (hs : r.task s e = some o) :
    o.relay.Through proxy ∧ ∀ x ∈ o.sent, x.Through proxy := by
  unfold Relay.task at hs
  split at hs
  · obtain ⟨⟨up, bytes, n⟩, -, rfl⟩ := Option.map_eq_some_iff.mp hs
    exact ⟨h, forwardTcp_through h .tx bytes⟩
  · obtain ⟨⟨down, bytes, n⟩, -, rfl⟩ := Option.map_eq_some_iff.mp hs
    exact ⟨h, forwardTcp_through h .rx bytes⟩
  · obtain ⟨⟨r', sent, n⟩, hr, rfl⟩ := Option.map_eq_some_iff.mp hs
    obtain ⟨h1, h2⟩ := UdpRelay.receive_through h hr
    exact ⟨h1, by simpa using h2⟩
  · obtain ⟨⟨r', sent⟩, hr, rfl⟩ := Option.map_eq_some_iff.mp hs
    obtain ⟨h1, h2⟩ := UdpRelay.write_through h hr
    exact ⟨h1, by simpa using h2⟩
  · cases hs

theorem Relay.detach_through (h : r.Through proxy) : r.detach.Through proxy := by
  cases r with
  | fragment => exact h
  | udp r => exact ⟨h.outbound, h.sessions⟩
  | _ => trivial

end

end RXCore
