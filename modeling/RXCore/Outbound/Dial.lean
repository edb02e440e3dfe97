import RXCore.Std
import RXCore.Net

/-!
# Connections to the network

`dial_tcp` and `create_outbound_udp` with what they are built from. What the operating system, the
resolver and a proxy answer is given; the loops over addresses and the order of the checks are the
source's.

* `Answers`: the answers while one connection is made;
* `parseEndpoint`, `rejectIpv6Ip`;
* `dialTcp`, `TcpPeer`; `socks5UdpAssociate`, `createOutboundUdp`, `UdpPeer`;
* `Egress`, `Egress.Through`: what is forwarded, and through which proxy;
* **`dialTcp_through`**, **`createOutboundUdp_relay`**: a connection that is to go through a proxy goes
  through it or fails, and one that is not goes through none.
-/

set_option autoImplicit false

namespace RXCore

inductive SelectedRoute where
  | direct
  | warp
deriving DecidableEq

/-- `std::net::SocketAddrV4`. -/
abbrev SocketAddrV4 := Ipv4Addr × UInt16

/-- What the surroundings answer while one connection is made. -/
structure Answers where
  /-- `DefaultResolver::resolve_ipv4`. -/
  resolve : String → UInt16 → SelectedRoute → Except String (List SocketAddrV4)
  /-- `tokio::net::lookup_host`. -/
  lookupHost : String → UInt16 → Except String (List SocketAddr)
  /-- A connection that the operating system makes to an address. -/
  accepts : SocketAddr → Except String Unit
  /-- The connection to an address, from a bind address if there is one, in the `n`-th round. -/
  connect : ℕ → SocketAddrV4 → Option String → Except String Unit
  /-- The time for all rounds is over before the `n`-th. -/
  deadline : ℕ → Bool
  /-- The SOCKS5 greeting and CONNECT of the `n`-th round. -/
  socksConnect : ℕ → Except String Unit
  /-- The SOCKS5 greeting and UDP ASSOCIATE with a proxy that is connected: the address of its relay. -/
  socksAssociate : String → Option String → Except String SocketAddr
  /-- The UDP socket of this host. -/
  bindUdp : Except String Unit
  /-- `UdpSocket::connect`. -/
  udpConnect : SocketAddr → Except String Unit

/-! ## Addresses -/

/-- The error of `str::parse::<u16>`, for a text that is not empty. -/
def parseU16Error (s : String) : String :=
  let ds := match s.toList with
    | ['+'] => ['+']
    | '+' :: r => r
    | r => r
  -- the digits are read from the left, and the first fault is reported
  let valid := ds.takeWhile fun c => (toDigit 10 c).isSome
  let value := valid.foldl (fun n c => n * 10 + (toDigit 10 c).getD 0) 0
  if 65535 < value then "number too large to fit in target type" else "invalid digit found in string"

/-- `parse_endpoint`: `host:port`, or a host alone. -/
def parseEndpoint (input : String) (defaultPort : UInt16) : Except String (String × UInt16) :=
  let input := (trim input).toList
  if input = [] then .error "Empty endpoint address"
  else if '[' ∈ input ∨ ']' ∈ input ∨ 1 < input.count ':' then
    .error "IPv6 addresses are rejected under IPv4-only mode"
  else if ':' ∈ input then
    let host := String.ofList (input.takeWhile (· ≠ ':'))
    let portStr := String.ofList ((input.dropWhile (· ≠ ':')).drop 1)
    if portStr = "" then .error "Endpoint has trailing colon but no port"
    else match parseU16 portStr with
      | none => .error (parseU16Error portStr)
      | some port =>
        if port = 0 then .error "Port 0 is invalid"
        else if trim host = "" then .error "Endpoint has empty host"
        else .ok (host, port)
  else if defaultPort = 0 then .error "Default port 0 is invalid"
  else .ok (String.ofList input, defaultPort)

/-- `reject_ipv6_ip`. -/
def rejectIpv6Ip (ip : IpAddr) (ipv4Only : Bool) : Except String Ipv4Addr :=
  match ip with
  | .v4 ipv4 => .ok ipv4
  | .v6 ipv6 =>
    if ipv4Only then .error "IPv6 is rejected under IPv4-only mode"
    else match ipv6.toIpv4 with
      | some ipv4 => .ok ipv4
      | none => .error "Cannot represent non-mapped IPv6 address as IPv4"

/-! ## TCP -/

/-- `ToSocketAddrs` of a text: an address, or the answer for the host before the last colon. -/
def Answers.toSocketAddrs (A : Answers) (text : String) : Except String (List SocketAddr) :=
  match parseSocketAddr text with
  | some addr => .ok [addr]
  | none =>
    let cs := text.toList.reverse
    if ':' ∉ cs then .error "invalid socket address"
    else match parseU16 (String.ofList (cs.takeWhile (· ≠ ':')).reverse) with
      | none => .error "invalid port value"
      | some port => A.lookupHost (String.ofList ((cs.dropWhile (· ≠ ':')).drop 1).reverse) port

/-- The loop of `tokio::net::TcpStream::connect`. -/
def connectAny (A : Answers) : Option String → List SocketAddr → Except String SocketAddr
  | lastErr, [] => .error (lastErr.getD "could not resolve to any address")
  | _, addr :: addrs => match A.accepts addr with
    | .ok () => .ok addr
    | .error e => connectAny A (some e) addrs

/-- `tokio::net::TcpStream::connect`: the address that it connects to. -/
def Answers.connectText (A : Answers) (text : String) : Except String SocketAddr := do
  let addrs ← A.toSocketAddrs text
  connectAny A none addrs

/-- `format!("{}:{}", host, port)`. -/
def hostPort (host : String) (port : UInt16) : String := host ++ ":" ++ toString port.toNat

/-- `TcpStream::connect` with a host and a port. -/
def Answers.tcpConnect (A : Answers) (host : String) (port : UInt16) : Except String SocketAddr :=
  A.connectText (hostPort host port)

/-- The other end of a TCP connection. -/
inductive TcpPeer where
  | direct (addr : SocketAddr)
  /-- A proxy, as it is configured, at one of its addresses. -/
  | socks (proxy : String) (addr : SocketAddrV4)
deriving DecidableEq

/-- The proxy that a connection goes through. -/
def TcpPeer.through : TcpPeer → Option String
  | direct _ => none
  | socks proxy _ => some proxy

/-- The first address of a proxy that accepts the connection. -/
def connectFirst (A : Answers) (n : ℕ) (bindIp : Option String) (addrs : List SocketAddrV4) :
    Option SocketAddrV4 :=
  addrs.find? fun addr => (A.connect n addr bindIp).toOption.isSome

/-- The rounds of `dial_tcp` over the addresses of a destination behind a proxy. -/
def dialSocks (A : Answers) (proxy : String) (proxyAddrs : List SocketAddrV4) (bindIp : Option String) :
    ℕ → Option String → List Ipv4Addr → Except String TcpPeer
  | _, lastErr, [] => .error (lastErr.getD "All resolved SOCKS destination connect attempts failed")
  | n, _, _ :: ips =>
    if A.deadline n then .error "Overall SOCKS dial deadline reached"
    else match connectFirst A n bindIp proxyAddrs with
      | none => dialSocks A proxy proxyAddrs bindIp (n + 1) (some "Failed to connect to SOCKS proxy") ips
      | some addr => match A.socksConnect n with
        | .ok () => .ok (.socks proxy addr)
        | .error e => dialSocks A proxy proxyAddrs bindIp (n + 1) (some e) ips

/-- The attempts of `dial_tcp` that leave the resolution of the destination to the proxy; without an
address it unwraps an error that is not there. -/
def dialSocksByName (A : Answers) (proxy : String) (bindIp : Option String) :
    Option String → List (ℕ × SocketAddrV4) → Except String TcpPeer
  | lastErr, [] => .error (lastErr.getD "called `Option::unwrap()` on a `None` value")
  | _, (n, addr) :: rest => match A.connect n addr bindIp with
    | .error e => dialSocksByName A proxy bindIp (some e) rest
    | .ok () => (A.socksConnect 0).map fun _ => .socks proxy addr

/-- The loop of `dial_tcp` over the addresses of a destination. -/
def dialDirect (A : Answers) (ipv4Only : Bool) (bindIp : Option String) :
    Option String → List SocketAddrV4 → Except String TcpPeer
  | lastErr, [] => .error (lastErr.getD "No addresses resolved")
  | _, addr :: addrs =>
    if ipv4Only ∧ ((bindIp.bind parseIpAddr).map (·.isIpv6)) = some true then
      dialDirect A ipv4Only bindIp (some "IPv6 bind address rejected under ipv4_only mode") addrs
    else match A.connect 0 addr bindIp with
      | .ok () => .ok (.direct ⟨.v4 addr.1, addr.2⟩)
      | .error e => dialDirect A ipv4Only bindIp (some e) addrs

/-- The addresses of a destination that `dial_tcp` hands to a proxy, if it resolves it at all. -/
def destIpsForProxy (A : Answers) (ipv4Only : Bool) (destHost : String) (destPort : UInt16) :
    Except String (List Ipv4Addr) :=
  match parseIpAddr destHost with
  | some ip => (rejectIpv6Ip ip ipv4Only).map fun ipv4 => [ipv4]
  | none =>
    if ipv4Only then (A.resolve destHost destPort .warp).map fun addrs => addrs.map Prod.fst
    else .ok []

/-- The addresses of a destination that `dial_tcp` connects to. -/
def destAddrs (A : Answers) (ipv4Only : Bool) (destHost : String) (destPort : UInt16) :
    Except String (List SocketAddrV4) :=
  match parseIpAddr destHost with
  | some ip => (rejectIpv6Ip ip ipv4Only).map fun ipv4 => [(ipv4, destPort)]
  | none => A.resolve destHost destPort .direct

/-- `dial_tcp`. -/
def dialTcp (A : Answers) (ipv4Only : Bool) (destHost : String) (destPort : UInt16)
    (bindIp outboundProxy : Option String) : Except String TcpPeer :=
  match outboundProxy with
  | some proxyAddr => do
    let (proxyHost, proxyPort) ← parseEndpoint proxyAddr 1080
    let proxyAddrs ← A.resolve proxyHost proxyPort .direct
    let resolvedDestIps ← destIpsForProxy A ipv4Only destHost destPort
    if resolvedDestIps = [] then
      dialSocksByName A proxyAddr bindIp none ([1, 2, 3].flatMap fun n => proxyAddrs.map fun a => (n, a))
    else dialSocks A proxyAddr proxyAddrs bindIp 0 none resolvedDestIps
  | none => do
    let resolvedAddrs ← destAddrs A ipv4Only destHost destPort
    dialDirect A ipv4Only bindIp none resolvedAddrs

theorem dialSocks_through {A : Answers} {proxy : String} {addrs : List SocketAddrV4}
    {bindIp : Option String} {n : ℕ} {lastErr : Option String} {ips : List Ipv4Addr} {peer : TcpPeer}
    (h : dialSocks A proxy addrs bindIp n lastErr ips = .ok peer) : peer.through = some proxy := by
  induction ips generalizing n lastErr with
  | nil => cases h
  | cons ip ips ih =>
    rw [dialSocks] at h
    split_ifs at h
    split at h
    · exact ih h
    · split at h
      · obtain rfl := Except.ok.inj h
        rfl
      · exact ih h

theorem dialSocksByName_through {A : Answers} {proxy : String} {bindIp lastErr : Option String}
    {attempts : List (ℕ × SocketAddrV4)} {peer : TcpPeer}
    (h : dialSocksByName A proxy bindIp lastErr attempts = .ok peer) : peer.through = some proxy := by
  induction attempts generalizing lastErr with
  | nil => cases h
  | cons attempt rest ih =>
    rw [dialSocksByName] at h
    split at h
    · exact ih h
    · cases hs : A.socksConnect 0 with
      | error e =>
        rw [hs] at h
        cases h
      | ok =>
        rw [hs] at h
        obtain rfl := Except.ok.inj h
        rfl

theorem dialDirect_through {A : Answers} {ipv4Only : Bool} {bindIp lastErr : Option String}
    {addrs : List SocketAddrV4} {peer : TcpPeer}
    (h : dialDirect A ipv4Only bindIp lastErr addrs = .ok peer) : peer.through = none := by
  induction addrs generalizing lastErr with
  | nil => cases h
  | cons addr addrs ih =>
    rw [dialDirect] at h
    split_ifs at h
    · exact ih h
    · split at h
      · obtain rfl := Except.ok.inj h
        rfl
      · exact ih h

/-- **A dialled connection goes through the proxy that was asked for**, or through none if none was. -/
theorem dialTcp_through {A : Answers} {ipv4Only : Bool} {destHost : String} {destPort : UInt16}
    {bindIp outboundProxy : Option String} {peer : TcpPeer}
    (h : dialTcp A ipv4Only destHost destPort bindIp outboundProxy = .ok peer) :
    peer.through = outboundProxy := by
  cases outboundProxy with
  | some proxyAddr =>
    simp only [dialTcp, bind_ok] at h
    obtain ⟨⟨proxyHost, proxyPort⟩, -, proxyAddrs, -, ips, -, h⟩ := h
    split_ifs at h
    · exact dialSocksByName_through h
    · exact dialSocks_through h
  | none =>
    simp only [dialTcp, bind_ok] at h
    obtain ⟨addrs, -, h⟩ := h
    exact dialDirect_through h

/-! ## UDP -/

/-- A UDP socket with the address that its packets go to: that of the relay of a proxy, or that of the
destination. -/
structure UdpPeer where
  relay : Option String
  sendTarget : SocketAddr
deriving DecidableEq

/-- The loop of `dial_tcp_with_bind` in IPv4-only mode. -/
def dialBound (A : Answers) (bindIp : String) :
    ℕ → Option String → List SocketAddrV4 → Except String SocketAddr
  | _, lastErr, [] => .error (lastErr.getD "No addresses resolved or bind failed")
  | n, _, addr :: addrs =>
    if A.deadline n then .error "Overall dial_tcp_with_bind deadline reached"
    else match A.connect n addr (some bindIp) with
      | .ok () => .ok ⟨.v4 addr.1, addr.2⟩
      | .error e => dialBound A bindIp (n + 1) (some e) addrs

/-- `dial_tcp_with_bind`. Outside IPv4-only mode IPv6 addresses are tried first. -/
def dialTcpWithBind (A : Answers) (ipv4Only : Bool) (targetAddr bindIp : String) :
    Except String SocketAddr :=
  match parseIpAddr bindIp with
  | none => .error "invalid IP address syntax"
  | some bind =>
    if ipv4Only then
      if bind.isIpv6 then .error "IPv6 bind address is rejected under IPv4-only mode"
      else do
        let (host, port) ← parseEndpoint targetAddr 80
        let resolved ← A.resolve host port .direct
        dialBound A bindIp 0 none resolved
    else do
      let addrs ← A.toSocketAddrs targetAddr
      connectAny A none (addrs.filter (·.ip.isIpv6) ++ addrs.filter (·.ip.isIpv4))

/-- The proxy of `socks5_udp_associate` with a port. -/
def associateEndpoint (proxyAddr : String) : String :=
  if ':' ∈ proxyAddr.toList then proxyAddr else proxyAddr ++ ":1080"

/-- The connection of `socks5_udp_associate` to its proxy; further attempts get the same answers. -/
def associateDial (A : Answers) (ipv4Only : Bool) (proxyAddr : String) (bindIp : Option String) :
    Except String SocketAddr :=
  match bindIp with
  | some ip => dialTcpWithBind A ipv4Only (associateEndpoint proxyAddr) ip
  | none => A.connectText (associateEndpoint proxyAddr)

/-- `socks5_udp_associate`. -/
def socks5UdpAssociate (A : Answers) (ipv4Only : Bool) (proxyAddr : String) (bindIp : Option String) :
    Except String SocketAddr := do
  let _ ← associateDial A ipv4Only proxyAddr bindIp
  let proxyUdpAddr ← A.socksAssociate (associateEndpoint proxyAddr) bindIp
  refuseIf (proxyUdpAddr.ip.isIpv6 ∧ ipv4Only) "IPv6 UDP associate reply rejected"
  return proxyUdpAddr

/-- The address of a destination that `create_outbound_udp` finds. -/
def udpTargetAddr (A : Answers) (ipv4Only : Bool) (destHost : String) (destPort : UInt16) :
    Except String SocketAddr :=
  match parseIpAddr destHost with
  | some ip =>
    if ipv4Only then (rejectIpv6Ip ip true).map fun ipv4 => ⟨.v4 ipv4, destPort⟩
    else .ok ⟨ip, destPort⟩
  | none =>
    if ipv4Only then
      match A.resolve destHost destPort .direct with
      | .error e => .error e
      | .ok [] => .error "Failed to resolve UDP target"
      | .ok ((ip, port) :: _) => .ok ⟨.v4 ip, port⟩
    else match A.lookupHost destHost destPort with
      | .error e => .error e
      | .ok [] => .error "Failed to resolve UDP target"
      | .ok (addr :: _) => .ok addr

/-- `create_outbound_udp`. -/
def createOutboundUdp (A : Answers) (ipv4Only : Bool) (destHost : String) (destPort : UInt16)
    (outboundProxy bindIp : Option String) : Except String UdpPeer :=
  match outboundProxy with
  | some proxy => do
    let proxyUdpAddr ← socks5UdpAssociate A ipv4Only proxy bindIp
    refuseIf (proxyUdpAddr.ip.isIpv6 ∧ ipv4Only) "IPv6 proxy UDP address rejected"
    A.bindUdp
    return ⟨some proxy, proxyUdpAddr⟩
  | none => do
    let targetAddr ← udpTargetAddr A ipv4Only destHost destPort
    A.bindUdp
    return ⟨none, targetAddr⟩

/-- **A UDP socket sends to the relay of the proxy that was asked for**, or to no relay. -/
theorem createOutboundUdp_relay {A : Answers} {ipv4Only : Bool} {destHost : String} {destPort : UInt16}
    {outboundProxy bindIp : Option String} {peer : UdpPeer}
    (h : createOutboundUdp A ipv4Only destHost destPort outboundProxy bindIp = .ok peer) :
    peer.relay = outboundProxy := by
  cases outboundProxy with
  | some proxy =>
    simp only [createOutboundUdp, bind_ok] at h
    obtain ⟨addr, -, -, -, -, -, h⟩ := h
    obtain rfl := Except.ok.inj h
    rfl
  | none =>
    simp only [createOutboundUdp, bind_ok] at h
    obtain ⟨addr, -, -, -, h⟩ := h
    obtain rfl := Except.ok.inj h
    rfl

/-! ## Traffic -/

/-- A UDP packet that is sent, with the payload in it. -/
structure Datagram where
  /-- The proxy whose relay it goes to. -/
  relay : Option String
  target : SocketAddr
  packet : List UInt8
  payload : List UInt8
deriving DecidableEq

/-- Traffic that is forwarded for a connection. -/
inductive Egress where
  | tcp (peer : TcpPeer) (bytes : List UInt8)
  | udp (datagram : Datagram)
  /-- To the client: a payload in its frame. -/
  | client (frame payload : List UInt8)
deriving DecidableEq

/-- The bytes of the user that are forwarded. -/
def Egress.payload : Egress → List UInt8
  | tcp _ bytes => bytes
  | udp datagram => datagram.payload
  | client _ payload => payload

/-- The traffic goes to the client or leaves through the given proxy, or directly for none. -/
def Egress.Through (proxy : Option String) : Egress → Prop
  | tcp peer _ => peer.through = proxy
  | udp datagram => datagram.relay = proxy
  | client _ _ => True

instance (proxy : Option String) : (e : Egress) → Decidable (e.Through proxy)
  | .tcp peer _ => inferInstanceAs (Decidable (peer.through = proxy))
  | .udp datagram => inferInstanceAs (Decidable (datagram.relay = proxy))
  | .client _ _ => .isTrue trivial

end RXCore
