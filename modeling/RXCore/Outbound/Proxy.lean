import RXCore.Lib.Arrivals
import RXCore.Lib.Encoding
import RXCore.Outbound.Dial

/-!
# The handshake with a SOCKS5 proxy

`dial_tcp` again, with the bytes that it exchanges with the proxy. What the proxy sends arrives in pieces of any
size, and what the handshake has not read is what the caller gets.

* `socksHandshake` and its two members: the request names an address or a host;
* `dialTcpStream`: the connection with its stream; it refines `dialTcp` (`dialTcpStream_peer`);
* `BoundAddress`, `ProxyAnswer`: what a proxy answers that agrees;
* **`socksHandshake_iff`**: the handshake succeeds after such an answer only, and leaves what follows it;
* **`proxy_streams_exact`**: both members do, and `dial_tcp` hands out no other stream.
-/

set_option autoImplicit false

namespace RXCore

open Arrivals Encoding

/-- A connection to a proxy: which writes succeed, what was written, and what arrives. -/
structure ProxyStream where
  writable : ℕ → Bool
  sent : List (List UInt8)
  reader : List (Arrival UInt8)

/-- `write_all`. -/
def ProxyStream.writeAll (s : ProxyStream) (bs : List UInt8) : Except String ProxyStream :=
  if s.writable s.sent.length then .ok { s with sent := s.sent ++ [bs] } else .error "Broken pipe"

/-- `read_exact`. -/
def ProxyStream.readExact (s : ProxyStream) (n : ℕ) : Except String (List UInt8 × ProxyStream) :=
  match recvExact n s.reader with
  | (some bs, r) => .ok (bs, { s with reader := r })
  | (none, _) => .error "early eof"

/-! ## The handshake -/

/-- The request for a destination by its address. -/
def addressRequest (destIp : Ipv4Addr) (destPort : UInt16) : List UInt8 :=
  [5, 1, 0, 1] ++ destIp.octets.toList ++ u16Bytes destPort.toNat

/-- The request for a destination by its name. -/
def nameRequest (destHost : String) (destPort : UInt16) : List UInt8 :=
  [5, 1, 0, 3] ++ [UInt8.ofNat (utf8 destHost).length] ++ utf8 destHost ++ u16Bytes destPort.toNat

/-- The rest of a reply: the address that the proxy is bound to, and its port. -/
def discardBound (atyp : UInt8) (stream : ProxyStream) : Except String ProxyStream :=
  if atyp = 1 then do
    let (_, stream) ← stream.readExact 6
    return stream
  else if atyp = 3 then do
    let (lenBuf, stream) ← stream.readExact 1
    let domainLen := (lenBuf.getD 0 0).toNat
    let (_, stream) ← stream.readExact (domainLen + 2)
    return stream
  else if atyp = 4 then do
    let (_, stream) ← stream.readExact 18
    return stream
  else .error "Invalid SOCKS5 address type"

/-- The handshake of `dial_tcp` for a request. -/
def socksHandshake (req : List UInt8) (stream : ProxyStream) : Except String ProxyStream := do
  let stream ← stream.writeAll [5, 1, 0]
  let (resp, stream) ← stream.readExact 2
  refuseIf (resp.getD 0 0 ≠ 5 ∨ resp.getD 1 0 ≠ 0) "SOCKS5 auth failed"
  let stream ← stream.writeAll req
  let (reply, stream) ← stream.readExact 4
  refuseIf (reply.getD 0 0 ≠ 5 ∨ reply.getD 1 0 ≠ 0) "SOCKS5 connect failed"
  discardBound (reply.getD 3 0) stream

/-- The handshake for an address of the destination. -/
def handshakeByAddress (destIp : Ipv4Addr) (destPort : UInt16) : ProxyStream → Except String ProxyStream :=
  socksHandshake (addressRequest destIp destPort)

/-- The handshake for the name of the destination. -/
def handshakeByName (destHost : String) (destPort : UInt16) : ProxyStream → Except String ProxyStream :=
  socksHandshake (nameRequest destHost destPort)

/-! ## The connection -/

/-- The rounds over the addresses of a destination behind a proxy, with the stream of each. -/
def dialSocksStream (A : Answers) (streams : ℕ → ProxyStream) (proxy : String) (proxyAddrs : List SocketAddrV4)
    (destPort : UInt16) (bindIp : Option String) :
    ℕ → Option String → List Ipv4Addr → Except String (TcpPeer × ProxyStream)
  | _, lastErr, [] => .error (lastErr.getD "All resolved SOCKS destination connect attempts failed")
  | n, _, destIp :: ips =>
    if A.deadline n then .error "Overall SOCKS dial deadline reached"
    else match connectFirst A n bindIp proxyAddrs with
      | none => dialSocksStream A streams proxy proxyAddrs destPort bindIp (n + 1)
          (some "Failed to connect to SOCKS proxy") ips
      | some addr => match handshakeByAddress destIp destPort (streams n) with
        | .ok stream => .ok (.socks proxy addr, stream)
        | .error e => dialSocksStream A streams proxy proxyAddrs destPort bindIp (n + 1) (some e) ips

/-- The attempts that leave the resolution of the destination to the proxy. -/
def dialSocksByNameStream (A : Answers) (stream : ProxyStream) (proxy destHost : String) (destPort : UInt16)
    (bindIp : Option String) : Option String → List (ℕ × SocketAddrV4) → Except String (TcpPeer × ProxyStream)
  | lastErr, [] => .error (lastErr.getD "called `Option::unwrap()` on a `None` value")
  | _, (n, addr) :: rest => match A.connect n addr bindIp with
    | .error e => dialSocksByNameStream A stream proxy destHost destPort bindIp (some e) rest
    | .ok () => (handshakeByName destHost destPort stream).map fun stream => (.socks proxy addr, stream)

/-- `dial_tcp`, where the `n`-th connection to the proxy is `streams n`, and a direct one is `direct`. -/
def dialTcpStream (A : Answers) (streams : ℕ → ProxyStream) (direct : ProxyStream) (ipv4Only : Bool)
    (destHost : String) (destPort : UInt16) (bindIp outboundProxy : Option String) :
    Except String (TcpPeer × ProxyStream) :=
  match outboundProxy with
  | some proxyAddr => do
    let (proxyHost, proxyPort) ← parseEndpoint proxyAddr 1080
    let proxyAddrs ← A.resolve proxyHost proxyPort .direct
    let resolvedDestIps ← destIpsForProxy A ipv4Only destHost destPort
    if resolvedDestIps = [] then
      dialSocksByNameStream A (streams 0) proxyAddr destHost destPort bindIp none
        ([1, 2, 3].flatMap fun n => proxyAddrs.map fun a => (n, a))
    else dialSocksStream A streams proxyAddr proxyAddrs destPort bindIp 0 none resolvedDestIps
  | none => do
    let resolvedAddrs ← destAddrs A ipv4Only destHost destPort
    let peer ← dialDirect A ipv4Only bindIp none resolvedAddrs
    return (peer, direct)

/-! ## What a proxy answers -/

/-- The address in the reply of a proxy. -/
inductive BoundAddress where
  | ipv4 (octets : List UInt8) (h : octets.length = 4)
  | name (bytes : List UInt8) (h : bytes.length < 256)
  | ipv6 (octets : List UInt8) (h : octets.length = 16)

/-- Its type and its bytes. -/
def BoundAddress.wire : BoundAddress → List UInt8
  | .ipv4 octets _ => 1 :: octets
  | .name bytes _ => 3 :: UInt8.ofNat bytes.length :: bytes
  | .ipv6 octets _ => 4 :: octets

/-- The answer of a proxy that agrees. -/
structure ProxyAnswer where
  reserved : UInt8
  bound : BoundAddress
  port : List UInt8
  port_length : port.length = 2

/-- The method `05 00`, and the reply `05 00` with the bound address. -/
def ProxyAnswer.wire (a : ProxyAnswer) : List UInt8 := [5, 0] ++ [5, 0, a.reserved] ++ a.bound.wire ++ a.port

/-- The proxy takes what is written and agrees, and `rest` follows its answer. -/
def ProxyStream.Agreed (s : ProxyStream) (rest : List UInt8) : Prop :=
  (s.writable s.sent.length = true ∧ s.writable (s.sent.length + 1) = true) ∧
    ∃ a : ProxyAnswer, content s.reader = a.wire ++ rest

/-! ## Reads and writes -/

section

variable {s s' : ProxyStream} {bs rest : List UInt8} {n : ℕ}

theorem ProxyStream.writeAll_ok : s.writeAll bs = .ok s' ↔
    s.writable s.sent.length = true ∧ { s with sent := s.sent ++ [bs] } = s' := by
  rw [ProxyStream.writeAll]
  split_ifs with hw
  · exact ⟨fun h => ⟨hw, Except.ok.inj h⟩, fun h => congrArg Except.ok h.2⟩
  · exact ⟨nofun, fun h => absurd h.1 hw⟩

theorem ProxyStream.readExact_ok (h : s.readExact n = .ok (bs, s')) :
    bs.length = n ∧ content s.reader = bs ++ content s'.reader ∧ s' = { s with reader := s'.reader } := by
  rw [ProxyStream.readExact] at h
  rcases hr : recvExact n s.reader with ⟨_ | cs, r⟩
  · rw [hr] at h
    cases h
  · rw [hr] at h
    obtain ⟨rfl, rfl⟩ := Prod.mk.inj (Except.ok.inj h)
    exact ⟨recvExact_length hr, recvExact_content hr, rfl⟩

theorem ProxyStream.readExact_of_content (h : content s.reader = bs ++ rest) :
    ∃ r, s.readExact bs.length = .ok (bs, { s with reader := r }) ∧ content r = rest := by
  obtain ⟨r, hr, hrest⟩ := recvExact_eq h
  refine ⟨r, ?_, hrest⟩
  rw [ProxyStream.readExact, hr]

/-- Bytes that are read and not used. -/
theorem ProxyStream.discard_iff : (∃ s', (do let (_, t) ← s.readExact n; return t) = Except.ok s' ∧
    content s'.reader = rest) ↔ ∃ bs, bs.length = n ∧ content s.reader = bs ++ rest := by
  constructor
  · rintro ⟨s', h, rfl⟩
    obtain ⟨⟨bs, t⟩, hread, ht⟩ := bind_ok.mp h
    obtain rfl := Except.ok.inj ht
    obtain ⟨hlen, hcontent, -⟩ := ProxyStream.readExact_ok hread
    exact ⟨bs, hlen, hcontent⟩
  · rintro ⟨bs, rfl, h⟩
    obtain ⟨r, hread, hrest⟩ := ProxyStream.readExact_of_content h
    exact ⟨_, bind_ok.mpr ⟨_, hread, rfl⟩, hrest⟩

/-! ## The handshake reads the answer -/

/-- The rest of a reply is a bound address and a port. -/
theorem discardBound_iff (atyp : UInt8) : (∃ s', discardBound atyp s = .ok s' ∧ content s'.reader = rest) ↔
    ∃ (b : BoundAddress) (port : List UInt8), port.length = 2 ∧
      atyp :: content s.reader = b.wire ++ port ++ rest := by
  have hsplit : ∀ {bs : List UInt8} {n : ℕ}, bs.length = n + 2 →
      bs.take n ++ bs.drop n = bs ∧ (bs.take n).length = n ∧ (bs.drop n).length = 2 := by
    intro bs n h
    exact ⟨List.take_append_drop n bs, by rw [List.length_take]; omega, by rw [List.length_drop]; omega⟩
  rw [discardBound]
  split_ifs with h1 h3 h4
  · subst h1
    rw [ProxyStream.discard_iff]
    constructor
    · rintro ⟨bs, hlen, hcontent⟩
      obtain ⟨hbs, haddr, hport⟩ := hsplit (n := 4) hlen
      refine ⟨.ipv4 (bs.take 4) haddr, bs.drop 4, hport, ?_⟩
      rw [BoundAddress.wire, List.cons_append, hbs, hcontent]
      rfl
    · rintro ⟨b, port, hport, h⟩
      cases b with
      | ipv4 octets hocts =>
        obtain ⟨-, h⟩ := List.cons.inj h
        exact ⟨octets ++ port, by rw [List.length_append, hocts, hport], h⟩
      | name bytes hbytes => cases (List.cons.inj h).1
      | ipv6 octets hocts => cases (List.cons.inj h).1
  · subst h3
    constructor
    · rintro ⟨s', h, hrest⟩
      obtain ⟨⟨lenBuf, t⟩, hread, ht⟩ := bind_ok.mp h
      obtain ⟨hlen, hcontent, -⟩ := ProxyStream.readExact_ok hread
      obtain ⟨len, rfl⟩ := List.length_eq_one_iff.mp hlen
      obtain ⟨bs, hlen', hcontent'⟩ := (ProxyStream.discard_iff (n := len.toNat + 2)).mp ⟨s', ht, hrest⟩
      obtain ⟨hbs, haddr, hport⟩ := hsplit hlen'
      refine ⟨.name (bs.take len.toNat) (haddr.symm ▸ len.toNat_lt), bs.drop len.toNat, hport, ?_⟩
      rw [BoundAddress.wire, haddr, UInt8.ofNat_toNat, hcontent, hcontent', ← hbs]
      simp
    · rintro ⟨b, port, hport, h⟩
      cases b with
      | ipv4 octets hocts => cases (List.cons.inj h).1
      | name bytes hbytes =>
        obtain ⟨-, h⟩ := List.cons.inj h
        have hreply : content s.reader = [UInt8.ofNat bytes.length] ++ (bytes ++ port ++ rest) := h
        obtain ⟨r, hread, hrest⟩ := ProxyStream.readExact_of_content hreply
        have hlen : (UInt8.ofNat bytes.length).toNat = bytes.length := UInt8.toNat_ofNat_of_lt' hbytes
        obtain ⟨s', hs', hcontent⟩ := (ProxyStream.discard_iff (s := { s with reader := r })
          (n := bytes.length + 2)).mpr ⟨bytes ++ port, by rw [List.length_append, hport], hrest⟩
        refine ⟨s', bind_ok.mpr ⟨_, hread, ?_⟩, hcontent⟩
        rw [← hlen] at hs'
        exact hs'
      | ipv6 octets hocts => cases (List.cons.inj h).1
  · subst h4
    rw [ProxyStream.discard_iff]
    constructor
    · rintro ⟨bs, hlen, hcontent⟩
      obtain ⟨hbs, haddr, hport⟩ := hsplit (n := 16) hlen
      refine ⟨.ipv6 (bs.take 16) haddr, bs.drop 16, hport, ?_⟩
      rw [BoundAddress.wire, List.cons_append, hbs, hcontent]
      rfl
    · rintro ⟨b, port, hport, h⟩
      cases b with
      | ipv4 octets hocts => cases (List.cons.inj h).1
      | name bytes hbytes => cases (List.cons.inj h).1
      | ipv6 octets hocts =>
        obtain ⟨-, h⟩ := List.cons.inj h
        exact ⟨octets ++ port, by rw [List.length_append, hocts, hport], h⟩
  · refine ⟨fun ⟨_, h, _⟩ => (nomatch h), ?_⟩
    rintro ⟨b, port, hport, h⟩
    cases b with
    | ipv4 octets hocts => exact absurd (List.cons.inj h).1 h1
    | name bytes hbytes => exact absurd (List.cons.inj h).1 h3
    | ipv6 octets hocts => exact absurd (List.cons.inj h).1 h4

/-- **The handshake** succeeds exactly when the proxy agrees, and leaves what follows its answer. -/
theorem socksHandshake_iff (req : List UInt8) :
    (∃ s', socksHandshake req s = .ok s' ∧ content s'.reader = rest) ↔ s.Agreed rest := by
  constructor
  · rintro ⟨s', h, hrest⟩
    rw [socksHandshake] at h
    obtain ⟨s₁, hgreet, h⟩ := bind_ok.mp h
    obtain ⟨hw₁, rfl⟩ := ProxyStream.writeAll_ok.mp hgreet
    obtain ⟨⟨resp, s₂⟩, hresp, h⟩ := bind_ok.mp h
    obtain ⟨hlen₂, hcontent₂, hs₂⟩ := ProxyStream.readExact_ok hresp
    obtain ⟨_, hmethod, h⟩ := bind_ok.mp h
    obtain ⟨s₃, hreq, h⟩ := bind_ok.mp h
    obtain ⟨hw₂, rfl⟩ := ProxyStream.writeAll_ok.mp hreq
    obtain ⟨⟨reply, s₄⟩, hreply, h⟩ := bind_ok.mp h
    obtain ⟨hlen₄, hcontent₄, -⟩ := ProxyStream.readExact_ok hreply
    obtain ⟨_, hconnect, h⟩ := bind_ok.mp h
    obtain ⟨m₀, m₁, rfl⟩ := List.length_eq_two.mp hlen₂
    obtain ⟨r₀, r₁, r₂, r₃, rfl⟩ : ∃ r₀ r₁ r₂ r₃, reply = [r₀, r₁, r₂, r₃] := by
      match reply, hlen₄ with
      | [r₀, r₁, r₂, r₃], _ => exact ⟨r₀, r₁, r₂, r₃, rfl⟩
    obtain ⟨hm₀, hm₁⟩ := not_or.mp (refuseIf_ok.mp hmethod)
    obtain ⟨hr₀, hr₁⟩ := not_or.mp (refuseIf_ok.mp hconnect)
    obtain rfl : m₀ = 5 := not_not.mp hm₀
    obtain rfl : m₁ = 0 := not_not.mp hm₁
    obtain rfl : r₀ = 5 := not_not.mp hr₀
    obtain rfl : r₁ = 0 := not_not.mp hr₁
    obtain ⟨b, port, hport, hbound⟩ := (discardBound_iff r₃).mp ⟨s', h, hrest⟩
    refine ⟨⟨hw₁, ?_⟩, ⟨r₂, b, port, hport⟩, ?_⟩
    · rw [hs₂] at hw₂
      simpa using hw₂
    · have h₂ : content s.reader = [5, 0] ++ content s₂.reader := hcontent₂
      have h₄ : content s₂.reader = [5, 0, r₂] ++ (r₃ :: content s₄.reader) := hcontent₄
      rw [h₂, h₄, hbound]
      simp [ProxyAnswer.wire]
  · rintro ⟨⟨hw₁, hw₂⟩, a, h⟩
    obtain ⟨atyp, addr, haddr⟩ : ∃ atyp addr, a.bound.wire = atyp :: addr := by
      cases a.bound with
      | ipv4 octets h => exact ⟨_, _, rfl⟩
      | name bytes h => exact ⟨_, _, rfl⟩
      | ipv6 octets h => exact ⟨_, _, rfl⟩
    rw [ProxyAnswer.wire, haddr] at h
    have hanswer : content s.reader = [5, 0] ++ ([5, 0, a.reserved, atyp] ++ (addr ++ a.port ++ rest)) := by
      rw [h]
      simp
    obtain ⟨r₁, hresp, hrest₁⟩ := ProxyStream.readExact_of_content
      (s := { s with sent := s.sent ++ [[5, 1, 0]] }) hanswer
    obtain ⟨r₂, hreply, hrest₂⟩ := ProxyStream.readExact_of_content
      (s := { s with sent := s.sent ++ [[5, 1, 0]] ++ [req], reader := r₁ }) hrest₁
    have hbound : atyp :: content r₂ = a.bound.wire ++ a.port ++ rest := by
      rw [haddr, hrest₂]
      simp
    obtain ⟨s', hs', hcontent⟩ := (discardBound_iff
      (s := { s with sent := s.sent ++ [[5, 1, 0]] ++ [req], reader := r₂ }) atyp).mpr
      ⟨a.bound, a.port, a.port_length, hbound⟩
    refine ⟨s', ?_, hcontent⟩
    rw [socksHandshake, bind_ok]
    refine ⟨_, ProxyStream.writeAll_ok.mpr ⟨hw₁, rfl⟩, bind_ok.mpr ⟨_, hresp, bind_ok.mpr ⟨(), rfl, ?_⟩⟩⟩
    refine bind_ok.mpr ⟨_, ProxyStream.writeAll_ok.mpr ⟨?_, rfl⟩, bind_ok.mpr ⟨_, hreply, bind_ok.mpr ⟨(), rfl, hs'⟩⟩⟩
    simpa using hw₂

/-- What was written before does not matter to a read. -/
theorem ProxyStream.readExact_sent (s : ProxyStream) (sent : List (List UInt8)) (n : ℕ) :
    ({ s with sent := sent } : ProxyStream).readExact n =
      (s.readExact n).map fun p => (p.1, { p.2 with sent := sent }) := by
  rw [ProxyStream.readExact, ProxyStream.readExact]
  rcases recvExact n s.reader with ⟨_ | bs, r⟩
  · rfl
  · rfl

theorem discardBound_sent (atyp : UInt8) (s : ProxyStream) (sent : List (List UInt8)) :
    discardBound atyp { s with sent := sent } =
      (discardBound atyp s).map fun t => { t with sent := sent } := by
  rw [discardBound, discardBound]
  split_ifs with h1 h3 h4
  · rw [ProxyStream.readExact_sent]
    cases s.readExact 6 with
    | error e => rfl
    | ok p => rfl
  · rw [ProxyStream.readExact_sent]
    cases s.readExact 1 with
    | error e => rfl
    | ok p =>
      show (({ p.2 with sent := sent } : ProxyStream).readExact _ >>= _) = _
      rw [ProxyStream.readExact_sent]
      show _ = Except.map _ (p.2.readExact ((p.1.getD 0 0).toNat + 2) >>= _)
      cases p.2.readExact ((p.1.getD 0 0).toNat + 2) with
      | error e => rfl
      | ok q => rfl
  · rw [ProxyStream.readExact_sent]
    cases s.readExact 18 with
    | error e => rfl
    | ok p => rfl
  · rfl

/-- The request does not matter to what is read after it. -/
theorem ProxyStream.writeAll_bind {β : Type} (s : ProxyStream) (req : List UInt8)
    (f : ProxyStream → Except String β) (hf : ∀ t sent, f { t with sent := sent } = f t) :
    (s.writeAll req >>= f) = s.writeAll [] >>= f := by
  rw [ProxyStream.writeAll, ProxyStream.writeAll]
  split_ifs
  · exact (hf s _).trans (hf s _).symm
  · rfl

/-- The result, an error included, does not depend on what is requested. -/
theorem socksHandshake_agree (req req' : List UInt8) (s : ProxyStream) :
    (socksHandshake req s).map (fun _ => ()) = (socksHandshake req' s).map fun _ => () := by
  have hreply : ∀ (t : ProxyStream) (sent : List (List UInt8)),
      (do
        let (reply, stream) ← ({ t with sent := sent } : ProxyStream).readExact 4
        refuseIf (reply.getD 0 0 ≠ 5 ∨ reply.getD 1 0 ≠ 0) "SOCKS5 connect failed"
        (discardBound (reply.getD 3 0) stream).map fun _ => ()) =
      (do
        let (reply, stream) ← t.readExact 4
        refuseIf (reply.getD 0 0 ≠ 5 ∨ reply.getD 1 0 ≠ 0) "SOCKS5 connect failed"
        (discardBound (reply.getD 3 0) stream).map fun _ => ()) := by
    intro t sent
    rw [ProxyStream.readExact_sent]
    cases t.readExact 4 with
    | error e => rfl
    | ok p =>
      show (refuseIf _ _ >>= fun _ => (discardBound _ { p.2 with sent := sent }).map _) =
        refuseIf _ _ >>= fun _ => (discardBound (p.1.getD 3 0) p.2).map _
      refine congrArg (refuseIf _ _ >>= ·) (funext fun _ => ?_)
      rw [discardBound_sent]
      cases discardBound (p.1.getD 3 0) p.2 <;> rfl
  have hrequest : ∀ req : List UInt8, (socksHandshake req s).map (fun _ => ()) = (do
      let stream ← s.writeAll [5, 1, 0]
      let (resp, stream) ← stream.readExact 2
      refuseIf (resp.getD 0 0 ≠ 5 ∨ resp.getD 1 0 ≠ 0) "SOCKS5 auth failed"
      let stream ← stream.writeAll []
      let (reply, stream) ← stream.readExact 4
      refuseIf (reply.getD 0 0 ≠ 5 ∨ reply.getD 1 0 ≠ 0) "SOCKS5 connect failed"
      (discardBound (reply.getD 3 0) stream).map fun _ => ()) := by
    intro req
    rw [socksHandshake, map_bind_result]
    refine congrArg (s.writeAll _ >>= ·) (funext fun s₁ => ?_)
    rw [map_bind_result]
    refine congrArg (s₁.readExact 2 >>= ·) (funext fun ⟨resp, s₂⟩ => ?_)
    rw [map_bind_result]
    refine congrArg (refuseIf _ _ >>= ·) (funext fun _ => ?_)
    refine Eq.trans ?_ (s₂.writeAll_bind req _ hreply)
    rw [map_bind_result]
    refine congrArg (s₂.writeAll req >>= ·) (funext fun s₃ => ?_)
    rw [map_bind_result]
    refine congrArg (s₃.readExact 4 >>= ·) (funext fun ⟨reply, s₄⟩ => ?_)
    exact map_bind_result _ _ _
  rw [hrequest req, hrequest req']

end

/-! ## The connection and its stream -/

section

variable {A : Answers} {streams : ℕ → ProxyStream} {proxy destHost : String} {destPort : UInt16}
  {bindIp lastErr : Option String} {peer : TcpPeer} {s s' : ProxyStream}

/-- The answers of a proxy, as `dial_tcp` takes them from the streams. -/
def Answers.withStreams (A : Answers) (streams : ℕ → ProxyStream) : Answers :=
  { A with socksConnect := fun n => (socksHandshake [] (streams n)).map fun _ => () }

theorem dialSocksStream_peer (A : Answers) (streams : ℕ → ProxyStream) (proxy : String)
    (proxyAddrs : List SocketAddrV4) (destPort : UInt16) (bindIp : Option String) (n : ℕ) (lastErr : Option String)
    (ips : List Ipv4Addr) :
    (dialSocksStream A streams proxy proxyAddrs destPort bindIp n lastErr ips).map Prod.fst =
      dialSocks (A.withStreams streams) proxy proxyAddrs bindIp n lastErr ips := by
  induction ips generalizing n lastErr with
  | nil => rfl
  | cons ip ips ih =>
    have hdeadline : (A.withStreams streams).deadline n = A.deadline n := rfl
    have hfirst : connectFirst (A.withStreams streams) n bindIp proxyAddrs = connectFirst A n bindIp proxyAddrs := rfl
    have hsocks : (A.withStreams streams).socksConnect n = (socksHandshake [] (streams n)).map fun _ => () := rfl
    rw [dialSocksStream, dialSocks, hdeadline, hfirst, hsocks]
    split_ifs
    · rfl
    · cases connectFirst A n bindIp proxyAddrs with
      | none => exact ih (n + 1) _
      | some addr =>
        dsimp only
        rw [socksHandshake_agree [] (addressRequest ip destPort), handshakeByAddress]
        cases socksHandshake (addressRequest ip destPort) (streams n) with
        | error e => exact ih (n + 1) _
        | ok stream => rfl

theorem dialSocksByNameStream_peer (A : Answers) (streams : ℕ → ProxyStream) (proxy destHost : String)
    (destPort : UInt16) (bindIp lastErr : Option String) (attempts : List (ℕ × SocketAddrV4)) :
    (dialSocksByNameStream A (streams 0) proxy destHost destPort bindIp lastErr attempts).map Prod.fst =
      dialSocksByName (A.withStreams streams) proxy bindIp lastErr attempts := by
  induction attempts generalizing lastErr with
  | nil => rfl
  | cons attempt rest ih =>
    rw [dialSocksByNameStream, dialSocksByName]
    show _ = match A.connect attempt.1 attempt.2 bindIp with
      | .error e => _
      | .ok () => ((socksHandshake [] (streams 0)).map fun _ => ()).map fun _ => _
    cases A.connect attempt.1 attempt.2 bindIp with
    | error e => exact ih _
    | ok _ =>
      dsimp only
      rw [socksHandshake_agree [] (nameRequest destHost destPort), handshakeByName]
      cases socksHandshake (nameRequest destHost destPort) (streams 0) with
      | error e => rfl
      | ok stream => rfl

/-- A direct connection asks no proxy. -/
theorem dialDirect_withStreams (A : Answers) (streams : ℕ → ProxyStream) (ipv4Only : Bool)
    (bindIp lastErr : Option String) (addrs : List SocketAddrV4) :
    dialDirect (A.withStreams streams) ipv4Only bindIp lastErr addrs = dialDirect A ipv4Only bindIp lastErr addrs := by
  induction addrs generalizing lastErr with
  | nil => rfl
  | cons addr addrs ih =>
    have hconnect : (A.withStreams streams).connect 0 addr bindIp = A.connect 0 addr bindIp := rfl
    rw [dialDirect, dialDirect, ih, hconnect]
    cases A.connect 0 addr bindIp with
    | error e =>
      dsimp only
      rw [ih]
    | ok _ => rfl

/-- **The connection without its stream** is that of `dialTcp`. -/
theorem dialTcpStream_peer (A : Answers) (streams : ℕ → ProxyStream) (direct : ProxyStream) (ipv4Only : Bool)
    (destHost : String) (destPort : UInt16) (bindIp outboundProxy : Option String) :
    (dialTcpStream A streams direct ipv4Only destHost destPort bindIp outboundProxy).map Prod.fst =
      dialTcp (A.withStreams streams) ipv4Only destHost destPort bindIp outboundProxy := by
  cases outboundProxy with
  | none =>
    show Except.map _ (destAddrs A ipv4Only destHost destPort >>= _) = destAddrs A ipv4Only destHost destPort >>= _
    cases destAddrs A ipv4Only destHost destPort with
    | error e => rfl
    | ok addrs =>
      show Except.map _ (dialDirect A ipv4Only bindIp none addrs >>= _) =
        dialDirect (A.withStreams streams) ipv4Only bindIp none addrs
      rw [dialDirect_withStreams]
      cases dialDirect A ipv4Only bindIp none addrs with
      | error e => rfl
      | ok peer => rfl
  | some proxyAddr =>
    show Except.map _ (parseEndpoint proxyAddr 1080 >>= _) = parseEndpoint proxyAddr 1080 >>= _
    cases parseEndpoint proxyAddr 1080 with
    | error e => rfl
    | ok endpoint =>
      show Except.map _ (A.resolve endpoint.1 endpoint.2 .direct >>= _) = A.resolve endpoint.1 endpoint.2 .direct >>= _
      cases A.resolve endpoint.1 endpoint.2 .direct with
      | error e => rfl
      | ok proxyAddrs =>
        show Except.map _ (destIpsForProxy A ipv4Only destHost destPort >>= _) =
          destIpsForProxy A ipv4Only destHost destPort >>= _
        cases destIpsForProxy A ipv4Only destHost destPort with
        | error e => rfl
        | ok ips =>
          show Except.map _ (if ips = [] then _ else _) = if ips = [] then _ else _
          split_ifs
          · exact dialSocksByNameStream_peer A streams proxyAddr destHost destPort bindIp none _
          · exact dialSocksStream_peer A streams proxyAddr proxyAddrs destPort bindIp 0 none ips

theorem dialSocksStream_agreed {proxyAddrs : List SocketAddrV4} {n : ℕ} {ips : List Ipv4Addr}
    (h : dialSocksStream A streams proxy proxyAddrs destPort bindIp n lastErr ips = .ok (peer, s')) :
    ∃ m, (streams m).Agreed (content s'.reader) := by
  induction ips generalizing n lastErr with
  | nil => cases h
  | cons ip ips ih =>
    rw [dialSocksStream] at h
    split_ifs at h
    split at h
    · exact ih h
    · split at h
      · next stream hstream =>
        obtain ⟨-, rfl⟩ := Prod.mk.inj (Except.ok.inj h)
        exact ⟨n, (socksHandshake_iff _).mp ⟨stream, hstream, rfl⟩⟩
      · exact ih h

theorem dialSocksByNameStream_agreed {attempts : List (ℕ × SocketAddrV4)}
    (h : dialSocksByNameStream A s proxy destHost destPort bindIp lastErr attempts = .ok (peer, s')) :
    s.Agreed (content s'.reader) := by
  induction attempts generalizing lastErr with
  | nil => cases h
  | cons attempt rest ih =>
    rw [dialSocksByNameStream] at h
    split at h
    · exact ih h
    · cases hs : handshakeByName destHost destPort s with
      | error e =>
        rw [hs] at h
        cases h
      | ok stream =>
        rw [hs] at h
        obtain ⟨-, rfl⟩ := Prod.mk.inj (Except.ok.inj h)
        exact (socksHandshake_iff _).mp ⟨stream, hs, rfl⟩

/-- A stream through a proxy is what follows the answer of a proxy that agreed. -/
theorem dialTcpStream_agreed {direct : ProxyStream} {ipv4Only : Bool}
    (h : dialTcpStream A streams direct ipv4Only destHost destPort bindIp (some proxy) = .ok (peer, s')) :
    ∃ n, (streams n).Agreed (content s'.reader) := by
  simp only [dialTcpStream, bind_ok] at h
  obtain ⟨⟨proxyHost, proxyPort⟩, -, proxyAddrs, -, ips, -, h⟩ := h
  split_ifs at h
  · exact ⟨0, dialSocksByNameStream_agreed h⟩
  · exact dialSocksStream_agreed h

/-- **The streams through a proxy.** Both handshakes succeed exactly when the proxy agrees, in whatever pieces its
answer arrives, and leave what follows the answer; `dial_tcp` hands out no other stream of a proxy. -/
theorem proxy_streams_exact (destIp : Ipv4Addr) (destHost : String) (destPort : UInt16) :
    (∀ (s : ProxyStream) (rest : List UInt8),
      ((∃ s', handshakeByAddress destIp destPort s = .ok s' ∧ content s'.reader = rest) ↔ s.Agreed rest) ∧
      ((∃ s', handshakeByName destHost destPort s = .ok s' ∧ content s'.reader = rest) ↔ s.Agreed rest)) ∧
    ∀ (A : Answers) (streams : ℕ → ProxyStream) (direct : ProxyStream) (ipv4Only : Bool) (bindIp : Option String)
      (proxy : String) (peer : TcpPeer) (s' : ProxyStream),
      dialTcpStream A streams direct ipv4Only destHost destPort bindIp (some proxy) = .ok (peer, s') →
        ∃ n, (streams n).Agreed (content s'.reader) :=
  ⟨fun _ _ => ⟨socksHandshake_iff _, socksHandshake_iff _⟩,
    fun _ _ _ _ _ _ _ _ h => dialTcpStream_agreed h⟩

/-- An answer in three pieces, with a name of two bytes and the first bytes of the tunnel behind it. -/
example : ((handshakeByName "a.b" 443 ⟨fun _ => true, [],
    [.data [5], .data [0, 5, 0, 0, 3, 2], .data [120, 121, 1, 187, 72, 73]]⟩).toOption.map fun s => content s.reader) =
      some [72, 73] := by decide

end

end RXCore
