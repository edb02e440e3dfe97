import RXCore.Inbound.Vless
import RXCore.Lib.Dialogue
import RXCore.Outbound.Proxy
import RXCore.Outbound.Wire

/-!
# The negotiation of the SOCKS5 inbound

The inbound and the clients that are written for it are parties over the two directions of a stream.

* `handleSocks5Connection`: the inbound until it takes up a request; `dialSocks5`, `dialSocks5Associate`: the clients;
* `socksHandshake_eq`: the first client is the handshake over a proxy's stream;
* `readSocks5Request_takes`, `awaitConnect_takes`, `awaitAssociate_takes`: what each reads and writes;
  `handshake_exchange`: both ends up to the reply;
* **`connect_settles`**, **`associate_settles`**: under every schedule the two ends agree;
* `Socks5Accepts`: what a client may write and read; **`negotiation_iff`**: the inbound takes up exactly that.
-/

set_option autoImplicit false

namespace RXCore

open Arrivals Dialogue Encoding

variable {κ : Type}

/-! ## The inbound -/

/-- What a client of the inbound asks for: 1 is CONNECT, 3 is UDP ASSOCIATE. -/
structure Socks5Request where
  cmd : UInt8
  destAddr : String
  destPort : UInt16
deriving DecidableEq

/-- `read_exact_to_buf`. -/
def readExactToBuf (stream : κ) (buf : List UInt8) (needed : ℕ) : Party κ UInt8 String (List UInt8) :=
  if buf.length < needed then do
    let bs ← .recv stream (needed - buf.length)
    return buf ++ bs
  else return buf

/-- The destination of a request, the buffer with it, and where the port is. -/
def readSocks5Dest (stream reply : κ) (buf : List UInt8) (atyp : UInt8) :
    Party κ UInt8 String (String × List UInt8 × ℕ) :=
  let destAddrStart := 4
  if atyp = 1 then do
    let needed := destAddrStart + 4
    let buf ← readExactToBuf stream buf needed
    return ((IpAddr.v4 (.ofOctets (slice buf destAddrStart 4))).display, buf, needed)
  else if atyp = 3 then do
    let needed := destAddrStart + 1
    let buf ← readExactToBuf stream buf needed
    let domainLen := (buf.getD destAddrStart 0).toNat
    let needed := destAddrStart + 1 + domainLen
    let buf ← readExactToBuf stream buf needed
    match fromUtf8 (slice buf (destAddrStart + 1) domainLen) with
    | some domain => return (domain, buf, needed)
    | none => .fail "invalid utf-8 sequence"
  else if atyp = 4 then do
    let needed := destAddrStart + 16
    let buf ← readExactToBuf stream buf needed
    return ((IpAddr.v6 (.ofOctets (slice buf destAddrStart 16))).display, buf, needed)
  else do
    .send reply [5, 8, 0, 1, 0, 0, 0, 0, 0, 0]
    .fail "Unsupported address type"

/-- The reply to UDP ASSOCIATE: the address of the control connection, and the port of the new socket. -/
def associateReply (localIp : IpAddr) (boundPort : UInt16) : List UInt8 :=
  [5, 0, 0] ++ localIp.tagged ++ u16Bytes boundPort.toNat

/-- The reply to a request that is taken up. `boundPort` is the port of the socket that is bound for UDP ASSOCIATE, or
the error. -/
def replySocks5 (reply : κ) (localIp : IpAddr) (boundPort : Except String UInt16) (q : Socks5Request) :
    Party κ UInt8 String Socks5Request :=
  if q.cmd = 1 then do
    .send reply [5, 0, 0, 1, 0, 0, 0, 0, 0, 0]
    return q
  else match boundPort with
    | .error e => .fail e
    | .ok port => do
      .send reply (associateReply localIp port)
      return q

/-- `handle_socks5_connection` from the request on. -/
def readSocks5Request (stream reply : κ) (localIp : IpAddr) (boundPort : Except String UInt16) :
    Party κ UInt8 String Socks5Request := do
  let buf ← readExactToBuf stream [] 4
  let cmd := buf.getD 1 0
  let atyp := buf.getD 3 0
  .refuse (buf.getD 0 0 ≠ 5) "Invalid request version"
  if cmd ≠ 1 ∧ cmd ≠ 3 then do
    .send reply [5, 7, 0, 1, 0, 0, 0, 0, 0, 0]
    .fail "Unsupported command"
  else do
    let (destAddr, buf, destPortOffset) ← readSocks5Dest stream reply buf atyp
    let buf ← readExactToBuf stream buf (destPortOffset + 2)
    replySocks5 reply localIp boundPort ⟨cmd, destAddr, portAt buf destPortOffset⟩

/-- `handle_socks5_connection` until it takes up a request. -/
def handleSocks5Connection (stream reply : κ) (localIp : IpAddr) (boundPort : Except String UInt16) :
    Party κ UInt8 String Socks5Request := do
  let buf ← readExactToBuf stream [] 2
  let nmethods := (buf.getD 1 0).toNat
  .refuse (buf.getD 0 0 ≠ 5) "Unsupported SOCKS version"
  let minNeeded := 2 + nmethods
  let buf ← readExactToBuf stream buf minNeeded
  if 0 ∉ slice buf 2 nmethods then do
    .send reply [5, 255]
    .fail "No acceptable auth methods"
  else do
    .send reply [5, 0]
    readSocks5Request stream reply localIp boundPort

/-! ## The clients -/

/-- The rest of a reply: the address that the proxy is bound to, and its port. -/
def readBound (reply : κ) (atyp : UInt8) : Party κ UInt8 String Unit :=
  if atyp = 1 then do
    let _ ← .recv reply 6
    return
  else if atyp = 3 then do
    let lenBuf ← .recv reply 1
    let _ ← .recv reply ((lenBuf.getD 0 0).toNat + 2)
    return
  else if atyp = 4 then do
    let _ ← .recv reply 18
    return
  else .fail "Invalid SOCKS5 address type"

/-- What `dial_tcp` reads after its request. -/
def awaitConnect (reply : κ) : Party κ UInt8 String Unit := do
  let bs ← .recv reply 4
  .refuse (bs.getD 0 0 ≠ 5 ∨ bs.getD 1 0 ≠ 0) "SOCKS5 connect failed"
  readBound reply (bs.getD 3 0)

/-- The address in the reply to UDP ASSOCIATE. -/
def readRelayAddr (reply : κ) (ipv4Only : Bool) (atyp : UInt8) : Party κ UInt8 String SocketAddr :=
  if atyp = 1 then do
    let ipPort ← .recv reply 6
    return ⟨.v4 (.ofOctets (slice ipPort 0 4)), portAt ipPort 4⟩
  else if atyp = 4 then do
    .refuse (ipv4Only = true) "IPv6 UDP associate reply rejected"
    let ipPort ← .recv reply 18
    return ⟨.v6 (.ofOctets (slice ipPort 0 16)), portAt ipPort 16⟩
  else .fail "Unsupported address type in UDP associate reply"

/-- What `socks5_udp_associate` reads after its request. -/
def awaitAssociate (reply : κ) (ipv4Only : Bool) : Party κ UInt8 String SocketAddr := do
  let bs ← .recv reply 4
  .refuse (bs.getD 0 0 ≠ 5 ∨ bs.getD 1 0 ≠ 0) "SOCKS5 UDP associate request failed"
  readRelayAddr reply ipv4Only (bs.getD 3 0)

/-- A handshake with a proxy, up to what is read after its request. -/
def proxyHandshake {α : Type} (stream reply : κ) (authError : String) (req : List UInt8)
    (await : Party κ UInt8 String α) : Party κ UInt8 String α := do
  .send stream [5, 1, 0]
  let resp ← .recv reply 2
  .refuse (resp.getD 0 0 ≠ 5 ∨ resp.getD 1 0 ≠ 0) authError
  .send stream req
  await

/-- The handshake of `dial_tcp`. -/
def dialSocks5 (stream reply : κ) (req : List UInt8) : Party κ UInt8 String Unit :=
  proxyHandshake stream reply "SOCKS5 auth failed" req (awaitConnect reply)

/-- The handshake of `socks5_udp_associate`: the address to which datagrams are to be sent. -/
def dialSocks5Associate (stream reply : κ) (ipv4Only : Bool) : Party κ UInt8 String SocketAddr :=
  proxyHandshake stream reply "SOCKS5 auth failed for UDP associate" [5, 3, 0, 1, 0, 0, 0, 0, 0, 0]
    (awaitAssociate reply ipv4Only)

/-! ## What is written and what is read -/

/-- The greeting of a client that offers `methods`. -/
def socks5Hello (methods : List UInt8) : List UInt8 := [5, UInt8.ofNat methods.length] ++ methods

/-- A request for a target. -/
def socks5RequestBytes (cmd reserved : UInt8) (t : UdpTarget) : List UInt8 := [5, cmd, reserved] ++ t.header

/-- The type and the bytes of the address of a target. -/
def UdpTarget.address : UdpTarget → UInt8 × List UInt8
  | .ip (.v4 a) _ => (1, a.octets.toList)
  | .ip (.v6 a) _ => (4, a.octets)
  | .domain name _ => (3, UInt8.ofNat (utf8 name).length :: utf8 name)

/-- A target as the inbound passes it on. -/
def UdpTarget.request (cmd : UInt8) : UdpTarget → Socks5Request
  | .ip addr port => ⟨cmd, addr.display, port⟩
  | .domain name port => ⟨cmd, name, port⟩

theorem UdpTarget.header_eq (cmd : UInt8) (t : UdpTarget) :
    t.header = [t.address.1] ++ t.address.2 ++ u16Bytes (t.request cmd).destPort.toNat := by
  cases t with
  | ip addr port => cases addr <;> rfl
  | domain name port => rfl

section

variable (stream reply : κ) {γ : Type}

theorem readExactToBuf_takes (buf bs : List UInt8) (needed : ℕ) (hn : needed = buf.length + bs.length)
    (f : List UInt8 → Party κ UInt8 String γ) :
    Party.Takes stream reply (readExactToBuf stream buf needed >>= f) bs [] (f (buf ++ bs)) := by
  subst hn
  rw [readExactToBuf]
  cases bs with
  | nil =>
    rw [if_neg (by simp), List.append_nil]
    exact .refl _
  | cons b bs =>
    rw [if_pos (by simp), Nat.add_sub_cancel_left]
    show Party.Takes stream reply (.read stream (b :: bs).length fun cs => f (buf ++ cs)) _ _ _
    rw [← List.append_nil (b :: bs)]
    exact .read (by simp) (by rw [List.append_nil]; exact .refl _)

/-- **The destination of a request.** -/
theorem readSocks5Dest_takes {t : UdpTarget} (ht : t.Short) (cmd : UInt8) {buf : List UInt8} (hbuf : buf.length = 4)
    (f : String × List UInt8 × ℕ → Party κ UInt8 String γ) :
    Party.Takes stream reply (readSocks5Dest stream reply buf t.address.1 >>= f) t.address.2 []
      (f ((t.request cmd).destAddr, buf ++ t.address.2, 4 + t.address.2.length)) := by
  have hslice : ∀ bs, slice (buf ++ bs) 4 bs.length = bs := fun bs => by
    have h := slice_append buf bs []
    rwa [hbuf, List.append_nil] at h
  cases t with
  | ip addr port =>
    cases addr with
    | v4 a =>
      have h := readExactToBuf_takes stream reply buf a.octets.toList 8 (by simp [hbuf])
        fun buf => f ((IpAddr.v4 (.ofOctets (slice buf 4 4))).display, buf, 8)
      have h4 := hslice a.octets.toList
      rw [Vector.length_toList] at h4
      rw [h4, Ipv4Addr.ofOctets_octets] at h
      simpa [readSocks5Dest, UdpTarget.address, UdpTarget.request, Party.bind_assoc] using h
    | v6 a =>
      have h := readExactToBuf_takes stream reply buf a.octets 20 (by simp [hbuf])
        fun buf => f ((IpAddr.v6 (.ofOctets (slice buf 4 16))).display, buf, 20)
      have h6 := hslice a.octets
      rw [Ipv6Addr.octets_length] at h6
      rw [h6, Ipv6Addr.ofOctets_octets] at h
      simpa [readSocks5Dest, UdpTarget.address, UdpTarget.request, Party.bind_assoc] using h
  | domain name port =>
    have hbyte : (UInt8.ofNat (utf8 name).length).toNat = (utf8 name).length := by
      rw [UInt8.toNat_ofNat']
      rw [UdpTarget.Short] at ht
      omega
    show Party.Takes stream reply (readSocks5Dest stream reply buf 3 >>= f) ([UInt8.ofNat (utf8 name).length] ++ utf8 name) []
      (f (name, buf ++ ([UInt8.ofNat (utf8 name).length] ++ utf8 name), 4 + ((utf8 name).length + 1)))
    generalize UInt8.ofNat (utf8 name).length = lenByte at hbyte
    -- the length byte first, then the name
    rw [readSocks5Dest, if_neg (by decide), if_pos rfl, Party.bind_assoc]
    refine (readExactToBuf_takes stream reply buf [lenByte] 5 (by simp [hbuf]) _).trans ?_
    have hget : (buf ++ [lenByte]).getD 4 0 = lenByte := by
      rw [← hbuf]
      simp
    have hname := slice_append (buf ++ [lenByte]) (utf8 name) []
    rw [List.append_nil, List.length_append, hbuf] at hname
    dsimp only
    rw [hget, hbyte, Party.bind_assoc]
    have h := readExactToBuf_takes stream reply (buf ++ [lenByte]) (utf8 name) (4 + 1 + (utf8 name).length)
      (by simp [hbuf]) fun buf' => (match fromUtf8 (slice buf' (4 + 1) (utf8 name).length) with
        | some domain => pure (domain, buf', 4 + 1 + (utf8 name).length)
        | none => Party.fail "invalid utf-8 sequence") >>= f
    rw [List.length_singleton] at hname
    rw [hname, fromUtf8_utf8] at h
    convert h using 2
    show _ = f (name, buf ++ [lenByte] ++ utf8 name, 4 + 1 + (utf8 name).length)
    rw [List.append_assoc, Nat.add_assoc, Nat.add_comm 1]

variable (localIp : IpAddr) (boundPort : Except String UInt16)

/-- What the inbound replies to a request that it takes up. -/
def socks5Reply (cmd : UInt8) (port : UInt16) : List UInt8 :=
  if cmd = 1 then [5, 0, 0, 1, 0, 0, 0, 0, 0, 0] else associateReply localIp port

/-- **The greeting.** -/
theorem handleSocks5Connection_takes (methods : List UInt8) (hlen : methods.length ≤ 255) (hmem : 0 ∈ methods) :
    Party.Takes stream reply (handleSocks5Connection stream reply localIp boundPort) (socks5Hello methods) [5, 0]
      (readSocks5Request stream reply localIp boundPort) := by
  have hbyte : (UInt8.ofNat methods.length).toNat = methods.length := by
    rw [UInt8.toNat_ofNat']
    omega
  rw [handleSocks5Connection, socks5Hello]
  refine (readExactToBuf_takes stream reply [] [5, UInt8.ofNat methods.length] 2 rfl _).trans ?_
  have hrefuse : (Party.refuse (([] ++ [5, UInt8.ofNat methods.length]).getD 0 0 ≠ (5 : UInt8))
      "Unsupported SOCKS version" : Party κ UInt8 String Unit) = .done () := Party.refuse_of_not (by simp) _
  have hcount : (([] ++ [5, UInt8.ofNat methods.length]).getD 1 (0 : UInt8)).toNat = methods.length := hbyte
  dsimp only
  rw [hrefuse, Party.done_bind, hcount]
  have h := readExactToBuf_takes stream reply ([] ++ [5, UInt8.ofNat methods.length]) methods (2 + methods.length)
    (by simp) fun buf =>
      if 0 ∉ slice buf 2 methods.length then do
        .send reply [5, 255]
        .fail "No acceptable auth methods"
      else do
        .send reply [5, 0]
        readSocks5Request stream reply localIp boundPort
  have hslice : slice ([5, UInt8.ofNat methods.length] ++ methods) 2 methods.length = methods := by
    simpa using slice_append [5, UInt8.ofNat methods.length] methods []
  rw [List.nil_append, hslice, if_neg (not_not.mpr hmem)] at h
  have hgreeted := h.trans (.write (.refl _))
  rw [List.append_nil] at hgreeted
  exact hgreeted

theorem replySocks5_takes {cmd : UInt8} {port : UInt16} (hport : cmd = 3 → boundPort = .ok port)
    (hcmd : cmd = 1 ∨ cmd = 3) {q : Socks5Request} (hq : q.cmd = cmd) :
    Party.Takes stream reply (replySocks5 reply localIp boundPort q) [] (socks5Reply localIp cmd port) (.done q) := by
  unfold replySocks5
  rw [hq, ← List.append_nil (socks5Reply localIp cmd port)]
  rcases hcmd with rfl | rfl
  · exact .write (.refl _)
  · rw [hport rfl]
    exact .write (.refl _)

/-- **The request.** -/
theorem readSocks5Request_takes {cmd : UInt8} (hcmd : cmd = 1 ∨ cmd = 3) (reserved : UInt8) {t : UdpTarget} (ht : t.Short)
    {port : UInt16} (hport : cmd = 3 → boundPort = .ok port) :
    Party.Takes stream reply (readSocks5Request stream reply localIp boundPort) (socks5RequestBytes cmd reserved t)
      (socks5Reply localIp cmd port) (.done (t.request cmd)) := by
  have hbytes : socks5RequestBytes cmd reserved t =
      [5, cmd, reserved, t.address.1] ++ (t.address.2 ++ (u16Bytes (t.request cmd).destPort.toNat ++ [])) := by
    rw [socks5RequestBytes, UdpTarget.header_eq cmd]
    simp
  rw [hbytes, readSocks5Request]
  generalize houts : socks5Reply localIp cmd port = outs
  refine (readExactToBuf_takes stream reply [] [5, cmd, reserved, t.address.1] 4 rfl _).trans ?_
  have hrefuse : (Party.refuse (([] ++ [5, cmd, reserved, t.address.1]).getD 0 0 ≠ (5 : UInt8))
      "Invalid request version" : Party κ UInt8 String Unit) = .done () := Party.refuse_of_not (by simp) _
  have hcmdAt : ([] ++ [5, cmd, reserved, t.address.1]).getD 1 (0 : UInt8) = cmd := rfl
  have htypeAt : ([] ++ [5, cmd, reserved, t.address.1]).getD 3 (0 : UInt8) = t.address.1 := rfl
  have hknown : ¬ (cmd ≠ 1 ∧ cmd ≠ 3) := by tauto
  dsimp only
  rw [hrefuse, Party.done_bind, hcmdAt, htypeAt, if_neg hknown]
  refine (readSocks5Dest_takes stream reply ht cmd (by rfl) _).trans ?_
  dsimp only
  have hportAt : portAt ([] ++ [5, cmd, reserved, t.address.1] ++ t.address.2 ++ u16Bytes (t.request cmd).destPort.toNat)
      (4 + t.address.2.length) = (t.request cmd).destPort := by
    have h := portAt_append ([] ++ [5, cmd, reserved, t.address.1] ++ t.address.2) [] (t.request cmd).destPort
    rw [List.append_nil, List.length_append] at h
    exact h
  refine (readExactToBuf_takes stream reply _ _ _ (by simp; omega) _).trans ?_
  have hrequest : (⟨cmd, (t.request cmd).destAddr, (t.request cmd).destPort⟩ : Socks5Request) = t.request cmd := by
    cases t <;> rfl
  rw [hportAt, hrequest, ← houts]
  exact replySocks5_takes stream reply localIp boundPort hport hcmd (by cases t <;> rfl)

/-! ## The clients -/

theorem awaitConnect_takes :
    Party.Takes reply stream (awaitConnect reply) [5, 0, 0, 1, 0, 0, 0, 0, 0, 0] [] (.done ()) := by
  have hsplit : ([5, 0, 0, 1, 0, 0, 0, 0, 0, 0] : List UInt8) = [5, 0, 0, 1] ++ ([0, 0, 0, 0, 0, 0] ++ []) := rfl
  rw [awaitConnect, Party.recv_bind, hsplit]
  exact .read rfl (.read rfl (.refl _))

theorem awaitAssociate_takes (port : UInt16) {ipv4Only : Bool} (h : ¬ (localIp.isIpv6 = true ∧ ipv4Only = true)) :
    Party.Takes reply stream (awaitAssociate reply ipv4Only) (associateReply localIp port) [] (.done ⟨localIp, port⟩) := by
  rw [awaitAssociate, Party.recv_bind, associateReply]
  cases localIp with
  | v4 a =>
    have hsplit : [5, 0, 0] ++ (IpAddr.v4 a).tagged ++ u16Bytes port.toNat =
        [5, 0, 0, 1] ++ ((a.octets.toList ++ u16Bytes port.toNat) ++ []) := by
      simp [IpAddr.tagged]
    have haddr : slice (a.octets.toList ++ u16Bytes port.toNat) 0 4 = a.octets.toList := by
      simpa using slice_append [] a.octets.toList (u16Bytes port.toNat)
    have hport : portAt (a.octets.toList ++ u16Bytes port.toNat) 4 = port := by
      simpa using portAt_append a.octets.toList [] port
    rw [hsplit]
    refine .read rfl (.read (by simp) ?_)
    show Party.Takes reply stream (.done (⟨.v4 (.ofOctets (slice (a.octets.toList ++ u16Bytes port.toNat) 0 4)),
      portAt (a.octets.toList ++ u16Bytes port.toNat) 4⟩ : SocketAddr)) [] [] _
    rw [haddr, hport, Ipv4Addr.ofOctets_octets]
    exact .refl _
  | v6 a =>
    have hsplit : [5, 0, 0] ++ (IpAddr.v6 a).tagged ++ u16Bytes port.toNat =
        [5, 0, 0, 4] ++ ((a.octets ++ u16Bytes port.toNat) ++ []) := by
      simp [IpAddr.tagged]
    have haddr : slice (a.octets ++ u16Bytes port.toNat) 0 16 = a.octets := by
      simpa using slice_append [] a.octets (u16Bytes port.toNat)
    have hport : portAt (a.octets ++ u16Bytes port.toNat) 16 = port := by
      simpa using portAt_append a.octets [] port
    have hallowed : ¬ (ipv4Only = true) := fun hv4 => h ⟨rfl, hv4⟩
    rw [hsplit]
    refine .read rfl ?_
    show Party.Takes reply stream (.refuse (ipv4Only = true) _ >>= fun _ => _) _ _ _
    rw [Party.refuse_of_not hallowed, Party.done_bind, Party.recv_bind]
    refine .read (by simp) ?_
    show Party.Takes reply stream (.done (⟨.v6 (.ofOctets (slice (a.octets ++ u16Bytes port.toNat) 0 16)),
      portAt (a.octets ++ u16Bytes port.toNat) 16⟩ : SocketAddr)) [] [] _
    rw [haddr, hport, Ipv6Addr.ofOctets_octets]
    exact .refl _

end

/-! ## Both ends -/

/-- **A handshake with the inbound**, up to the reply. -/
theorem handshake_exchange {A B : Type} (upward downward : κ) {cmd : UInt8} (hcmd : cmd = 1 ∨ cmd = 3) {t : UdpTarget}
    (ht : t.Short) (localIp : IpAddr) (boundPort : Except String UInt16) (port : UInt16)
    (hport : cmd = 3 → boundPort = .ok port) (authError : String) (await : Party κ UInt8 String A)
    (serve : Socks5Request → Party κ UInt8 String B) :
    Party.Exchange upward downward (proxyHandshake upward downward authError (socks5RequestBytes cmd 0 t) await)
      (handleSocks5Connection upward downward localIp boundPort >>= serve) [] []
      await (serve (t.request cmd)) [] (socks5Reply localIp cmd port) := by
  have hgreet := handleSocks5Connection_takes upward downward localIp boundPort [0] (by decide) (by decide)
  have hserve := readSocks5Request_takes upward downward localIp boundPort hcmd 0 ht hport
  have hchosen : Party.Takes downward upward (.read downward 2 fun resp => do
      .refuse (resp.getD 0 0 ≠ 5 ∨ resp.getD 1 0 ≠ 0) authError
      .send upward (socks5RequestBytes cmd 0 t)
      await) ([5, 0] ++ []) (socks5RequestBytes cmd 0 t) await := .read rfl (Party.takes_write _ _ _ _)
  refine (Party.Exchange.ask (Party.takes_write downward upward [5, 1, 0] _) _ []).trans ?_
  refine (Party.Exchange.reply (hgreet.bind serve) _ []).trans ?_
  exact (Party.Exchange.ask hchosen _ []).trans (Party.Exchange.reply (hserve.bind serve) await [])

/-! ## The clients over a proxy's stream -/

section

variable {α γ : Type}

/-- A party over a connection to a proxy. -/
def ProxyStream.run : Party κ UInt8 String α → ProxyStream → Except String (α × ProxyStream)
  | .done a, s => .ok (a, s)
  | .fail e, _ => .error e
  | .read _ n next, s => do
    let (bs, s) ← s.readExact n
    ProxyStream.run (next bs) s
  | .write _ bs next, s => do
    let s ← s.writeAll bs
    ProxyStream.run next s

theorem run_read (c : κ) (n : ℕ) (next : List UInt8 → Party κ UInt8 String α) (s : ProxyStream) :
    ProxyStream.run (.read c n next) s = s.readExact n >>= fun r => ProxyStream.run (next r.1) r.2 := rfl

theorem run_write (c : κ) (bs : List UInt8) (next : Party κ UInt8 String α) (s : ProxyStream) :
    ProxyStream.run (.write c bs next) s = s.writeAll bs >>= fun s => ProxyStream.run next s := rfl

theorem run_refuse (c : Prop) [Decidable c] (e : String) (f : Unit → Party κ UInt8 String γ) (s : ProxyStream) :
    ProxyStream.run (Party.refuse c e >>= f) s = refuseIf c e >>= fun _ => ProxyStream.run (f ()) s := by
  unfold Party.refuse refuseIf
  split_ifs
  · rfl
  · rfl

theorem readBound_run (reply : κ) (atyp : UInt8) (s : ProxyStream) :
    (ProxyStream.run (readBound reply atyp) s).map Prod.snd = discardBound atyp s := by
  unfold readBound discardBound
  split_ifs
  · show Except.map _ (s.readExact 6 >>= _) = s.readExact 6 >>= _
    cases s.readExact 6 <;> rfl
  · show Except.map _ (s.readExact 1 >>= _) = s.readExact 1 >>= _
    cases s.readExact 1 with
    | error e => rfl
    | ok r =>
      show Except.map _ (r.2.readExact ((r.1.getD 0 0).toNat + 2) >>= _) = r.2.readExact ((r.1.getD 0 0).toNat + 2) >>= _
      cases r.2.readExact ((r.1.getD 0 0).toNat + 2) <;> rfl
  · show Except.map _ (s.readExact 18 >>= _) = s.readExact 18 >>= _
    cases s.readExact 18 <;> rfl
  · rfl

theorem socksHandshake_eq (stream reply : κ) (req : List UInt8) (s : ProxyStream) :
    (ProxyStream.run (dialSocks5 stream reply req) s).map Prod.snd = socksHandshake req s := by
  simp only [dialSocks5, proxyHandshake, awaitConnect, socksHandshake, Party.send_bind, Party.recv_bind, run_read,
    run_write, run_refuse, map_bind_result, readBound_run]

end

/-! ## The channels of the parties -/

section

variable (stream reply : κ)

theorem readExactToBuf_within (buf : List UInt8) (needed : ℕ) :
    (readExactToBuf stream buf needed).Within (· = stream) (· = reply) := by
  unfold readExactToBuf
  split_ifs
  · exact ⟨rfl, fun _ => trivial⟩
  · trivial

theorem readSocks5Dest_within (buf : List UInt8) (atyp : UInt8) :
    (readSocks5Dest stream reply buf atyp).Within (· = stream) (· = reply) := by
  unfold readSocks5Dest
  split_ifs
  · exact .bind (readExactToBuf_within stream reply _ _) fun _ => trivial
  · refine .bind (readExactToBuf_within stream reply _ _) fun buf => .bind (readExactToBuf_within stream reply _ _) ?_
    intro buf'
    cases fromUtf8 (slice buf' (4 + 1) (buf.getD 4 0).toNat) <;> trivial
  · exact .bind (readExactToBuf_within stream reply _ _) fun _ => trivial
  · exact ⟨rfl, trivial⟩

theorem replySocks5_within (localIp : IpAddr) (boundPort : Except String UInt16) (q : Socks5Request) :
    (replySocks5 reply localIp boundPort q).Within (· = stream) (· = reply) := by
  unfold replySocks5
  split_ifs
  · exact ⟨rfl, trivial⟩
  · cases boundPort with
    | error e => trivial
    | ok port => exact ⟨rfl, trivial⟩

theorem handleSocks5Connection_within (localIp : IpAddr) (boundPort : Except String UInt16) :
    (handleSocks5Connection stream reply localIp boundPort).Within (· = stream) (· = reply) := by
  refine .bind (readExactToBuf_within stream reply _ _) fun buf => .bind (.refuse _ _) fun _ =>
    .bind (readExactToBuf_within stream reply _ _) fun buf' => ?_
  split_ifs
  · refine .bind (.send (by rfl) _) fun _ => .bind (readExactToBuf_within stream reply _ _) fun buf =>
      .bind (.refuse _ _) fun _ => ?_
    split_ifs
    · exact ⟨rfl, trivial⟩
    · refine .bind (readSocks5Dest_within stream reply _ _) fun dest => .bind (readExactToBuf_within stream reply _ _) ?_
      exact fun _ => replySocks5_within stream reply _ _ _
  · exact ⟨rfl, trivial⟩

theorem proxyHandshake_within {α : Type} (authError : String) (req : List UInt8) {await : Party κ UInt8 String α}
    (h : await.Within (· = reply) (· = stream)) :
    (proxyHandshake stream reply authError req await).Within (· = reply) (· = stream) :=
  .bind (.send (by rfl) _) fun _ => .bind (.recv (by rfl) 2) fun _ => .bind (.refuse _ _) fun _ =>
    .bind (.send (by rfl) _) fun _ => h

theorem awaitConnect_within : (awaitConnect reply).Within (· = reply) (· = stream) := by
  refine .bind (.recv (by rfl) 4) fun bs => .bind (.refuse _ _) fun _ => ?_
  unfold readBound
  split_ifs
  · exact ⟨rfl, fun _ => trivial⟩
  · exact ⟨rfl, fun _ => ⟨rfl, fun _ => trivial⟩⟩
  · exact ⟨rfl, fun _ => trivial⟩
  · trivial

theorem dialSocks5_within (req : List UInt8) : (dialSocks5 stream reply req).Within (· = reply) (· = stream) :=
  proxyHandshake_within stream reply _ req (awaitConnect_within stream reply)

theorem awaitAssociate_within (ipv4Only : Bool) : (awaitAssociate reply ipv4Only).Within (· = reply) (· = stream) := by
  refine .bind (.recv (by rfl) 4) fun bs => .bind (.refuse _ _) fun _ => ?_
  unfold readRelayAddr
  split_ifs
  · exact ⟨rfl, fun _ => trivial⟩
  · exact .bind (.refuse _ _) fun _ => .bind (.recv (by rfl) _) fun _ => trivial
  · trivial

end

/-! ## Agreement -/

theorem proxyHandshake_bind {α γ : Type} (stream reply : κ) (authError : String) (req : List UInt8)
    (await : Party κ UInt8 String α) (f : α → Party κ UInt8 String γ) :
    proxyHandshake stream reply authError req await >>= f = proxyHandshake stream reply authError req (await >>= f) := by
  simp only [proxyHandshake, Party.bind_assoc]

/-- **A CONNECT request.** The inbound takes up what the client asks for, and both leave what follows. -/
theorem connect_settles {t : UdpTarget} (ht : t.Short) (localIp : IpAddr) (boundPort : Except String UInt16)
    (payload answer : List UInt8) :
    Settles Net.step
      (pair (dialSocks5 .up .down (socks5RequestBytes 1 0 t) >>= fun _ => .send .up payload)
        (handleSocks5Connection .up .down localIp boundPort >>= fun q => .send .down answer >>= fun _ => pure q) [] [])
      (pair (.done ()) (.done (t.request 1)) payload answer) := by
  have hserver := (handleSocks5Connection_within Way.up Way.down localIp boundPort).bind
    (f := fun q => Party.send Way.down answer >>= fun _ => pure q) fun _ => .bind (.send (by rfl) _) fun _ => trivial
  have hasked := handshake_exchange Way.up Way.down (.inl rfl) ht localIp boundPort 0 (fun h => absurd h (by decide))
    "SOCKS5 auth failed" (awaitConnect .down >>= fun _ => .send .up payload)
    fun q => Party.send Way.down answer >>= fun _ => pure q
  have hanswer := Party.takes_write Way.up Way.down answer (.done (t.request 1) : Party Way UInt8 String Socks5Request)
  have hread := (awaitConnect_takes Way.up Way.down).bind fun _ => Party.send Way.up payload
  rw [dialSocks5, proxyHandshake_bind]
  refine pair_settles ?_ hserver (hasked.trans ?_) trivial trivial
  · apply proxyHandshake_within
    exact (awaitConnect_within Way.up Way.down).bind fun _ => .send (by rfl) _
  · refine (Party.Exchange.reply hanswer _ _).trans ?_
    refine (Party.Exchange.client hread (.refl _ _ _ _)).trans ?_
    exact .client (Party.takes_write _ _ payload (.done ())) (.refl _ _ _ _)

/-- The theorem on a request for a name, with a byte in each direction behind it. -/
theorem connect_settles_name :
    Settles Net.step
      (pair (dialSocks5 .up .down (socks5RequestBytes 1 0 (.domain "example.com" 443)) >>= fun _ => .send .up [71])
        (handleSocks5Connection .up .down (.v4 .unspecified) (.error "bind") >>= fun q =>
          .send .down [72] >>= fun _ => pure q) [] [])
      (pair (.done ()) (.done ⟨1, "example.com", 443⟩) [71] [72]) := by
  have hshort : (UdpTarget.domain "example.com" 443).Short := by
    show (utf8 "example.com").length ≤ 255
    decide
  exact connect_settles hshort (.v4 .unspecified) (.error "bind") [71] [72]

/-- **A UDP ASSOCIATE request.** The client gets the address at which its own connection reached the inbound, with the
port of the new socket. -/
theorem associate_settles (localIp : IpAddr) (port : UInt16) {ipv4Only : Bool}
    (h : ¬ (localIp.isIpv6 = true ∧ ipv4Only = true)) :
    Settles Net.step
      (pair (dialSocks5Associate .up .down ipv4Only) (handleSocks5Connection .up .down localIp (.ok port)) [] [])
      (pair (.done ⟨localIp, port⟩) (.done ⟨3, "0.0.0.0", 0⟩) [] []) := by
  have hasked := handshake_exchange Way.up Way.down (t := .ip (.v4 .unspecified) 0) (.inr rfl) trivial localIp (.ok port)
    port (fun _ => rfl) "SOCKS5 auth failed for UDP associate" (awaitAssociate .down ipv4Only) pure
  have hnobody : UdpTarget.request 3 (.ip (.v4 .unspecified) 0) = ⟨3, "0.0.0.0", 0⟩ := by decide
  have hserver := Party.bind_pure (handleSocks5Connection Way.up Way.down localIp (.ok port))
  rw [hserver, hnobody] at hasked
  refine pair_settles ?_ (handleSocks5Connection_within _ _ _ _) (hasked.trans ?_) trivial trivial
  · exact proxyHandshake_within _ _ _ _ (awaitAssociate_within Way.up Way.down ipv4Only)
  · exact .ask (awaitAssociate_takes Way.up Way.down localIp port h) _ []

/-- The theorem on a connection that reached this host at its own address. -/
theorem associate_settles_local :
    Settles Net.step
      (pair (dialSocks5Associate .up .down true)
        (handleSocks5Connection .up .down (.v4 (.new 127 0 0 1)) (.ok 40000)) [] [])
      (pair (.done ⟨.v4 (.new 127 0 0 1), 40000⟩) (.done ⟨3, "0.0.0.0", 0⟩) [] []) :=
  associate_settles (.v4 (.new 127 0 0 1)) 40000 (by decide)

/-! ## What is accepted -/

/-- What a client writes and reads, and what it is taken to ask for, when the inbound takes up its request. -/
inductive Socks5Accepts (localIp : IpAddr) (boundPort : Except String UInt16) :
    List UInt8 → List UInt8 → Socks5Request → Prop where
  | intro {methods : List UInt8} {cmd reserved : UInt8} {t : UdpTarget} {port : UInt16} (hlen : methods.length ≤ 255)
      (hmem : 0 ∈ methods) (hcmd : cmd = 1 ∨ cmd = 3) (ht : t.Short) (hport : cmd = 3 → boundPort = .ok port) :
      Socks5Accepts localIp boundPort (socks5Hello methods ++ socks5RequestBytes cmd reserved t)
        ([5, 0] ++ socks5Reply localIp cmd port) (t.request cmd)

section

variable {stream reply : κ} {α : Type} {buf ins outs : List UInt8} {needed : ℕ} {a : α}

theorem takes_readExactToBuf {f : List UInt8 → Party κ UInt8 String α} (hle : buf.length ≤ needed)
    (h : Party.Takes stream reply (readExactToBuf stream buf needed >>= f) ins outs (.done a)) :
    ∃ bs rest, buf.length + bs.length = needed ∧ ins = bs ++ rest ∧
      Party.Takes stream reply (f (buf ++ bs)) rest outs (.done a) := by
  unfold readExactToBuf at h
  split_ifs at h with hlt
  · obtain ⟨bs, rest, hlen, rfl, hrest⟩ := Party.takes_read_iff.mp h
    exact ⟨bs, rest, by omega, rfl, hrest⟩
  · refine ⟨[], ins, ?_, rfl, ?_⟩
    · rw [List.length_nil]
      omega
    · rw [List.append_nil]
      exact h

/-- **What is read as a destination** is the address of a target. -/
theorem takes_readSocks5Dest {f : String × List UInt8 × ℕ → Party κ UInt8 String α} {atyp : UInt8} (hbuf : buf.length = 4)
    (h : Party.Takes stream reply (readSocks5Dest stream reply buf atyp >>= f) ins outs (.done a)) :
    ∃ (t : UInt16 → UdpTarget) (text : String) (bs rest : List UInt8), ins = bs ++ rest ∧
      (∀ port, (t port).Short ∧ (t port).address = (atyp, bs) ∧ ∀ cmd, (t port).request cmd = ⟨cmd, text, port⟩) ∧
      Party.Takes stream reply (f (text, buf ++ bs, 4 + bs.length)) rest outs (.done a) := by
  have hslice : ∀ bs n, bs.length = n → slice (buf ++ bs) 4 n = bs := by
    rintro bs n rfl
    have h := slice_append buf bs []
    rwa [hbuf, List.append_nil] at h
  unfold readSocks5Dest at h
  split_ifs at h with h1 h3 h4
  · subst h1
    rw [Party.bind_assoc] at h
    obtain ⟨bs, rest, hlen, rfl, hrest⟩ := takes_readExactToBuf (by omega) h
    have h4 : bs.length = 4 := by omega
    rw [hslice bs 4 h4] at hrest
    refine ⟨fun port => .ip (.v4 (.ofOctets bs)) port, (IpAddr.v4 (.ofOctets bs)).display, bs, rest, rfl, fun port =>
      ⟨trivial, ?_, fun _ => rfl⟩, ?_⟩
    · rw [UdpTarget.address, Ipv4Addr.octets_ofOctets h4]
    · rw [h4]
      exact hrest
  · subst h3
    rw [Party.bind_assoc] at h
    obtain ⟨len, rest₁, hlen₁, rfl, h₁⟩ := takes_readExactToBuf (by omega) h
    obtain ⟨lenByte, rfl⟩ := List.length_eq_one_iff.mp (show len.length = 1 by omega)
    have hget : (buf ++ [lenByte]).getD 4 0 = lenByte := by
      rw [← hbuf]
      simp
    dsimp only at h₁
    rw [hget, Party.bind_assoc] at h₁
    obtain ⟨name, rest, hlen, rfl, hrest⟩ := takes_readExactToBuf (by simp [hbuf]) h₁
    have hname : name.length = lenByte.toNat := by
      rw [List.length_append, hbuf, List.length_singleton] at hlen
      omega
    have hread : slice (buf ++ [lenByte] ++ name) (4 + 1) lenByte.toNat = name := by
      have h := slice_append (buf ++ [lenByte]) name []
      rwa [List.append_nil, List.length_append, hbuf, hname] at h
    rw [hread] at hrest
    cases hutf8 : fromUtf8 name with
    | none =>
      rw [hutf8] at hrest
      exact absurd hrest Party.not_takes_fail
    | some domain =>
      rw [hutf8] at hrest
      have hbytes := utf8_of_fromUtf8 hutf8
      have hlt := lenByte.toNat_lt
      refine ⟨fun port => .domain domain port, domain, lenByte :: name, rest, rfl, fun port =>
        ⟨?_, ?_, fun _ => rfl⟩, ?_⟩
      · rw [UdpTarget.Short, hbytes, hname]
        omega
      · rw [UdpTarget.address, hbytes, hname, UInt8.ofNat_toNat]
      · rw [List.length_cons, hname, Nat.add_comm lenByte.toNat 1, ← Nat.add_assoc, List.append_cons]
        exact hrest
  · subst h4
    rw [Party.bind_assoc] at h
    obtain ⟨bs, rest, hlen, rfl, hrest⟩ := takes_readExactToBuf (by omega) h
    have h16 : bs.length = 16 := by omega
    rw [hslice bs 16 h16] at hrest
    refine ⟨fun port => .ip (.v6 (.ofOctets bs)) port, (IpAddr.v6 (.ofOctets bs)).display, bs, rest, rfl, fun port =>
      ⟨trivial, ?_, fun _ => rfl⟩, ?_⟩
    · rw [UdpTarget.address, Ipv6Addr.octets_ofOctets h16]
    · rw [h16]
      exact hrest
  · obtain ⟨rest, -, h⟩ := Party.takes_write_iff.mp h
    exact absurd h Party.not_takes_fail

variable {localIp : IpAddr} {boundPort : Except String UInt16} {q : Socks5Request}

theorem takes_replySocks5 {q' : Socks5Request} (hcmd : q'.cmd = 1 ∨ q'.cmd = 3)
    (h : Party.Takes stream reply (replySocks5 reply localIp boundPort q') ins outs (.done q)) :
    ∃ port, (q'.cmd = 3 → boundPort = .ok port) ∧ ins = [] ∧ outs = socks5Reply localIp q'.cmd port ∧ q' = q := by
  unfold replySocks5 at h
  rcases hcmd with hcmd | hcmd
  · rw [if_pos hcmd] at h
    obtain ⟨rest, rfl, hrest⟩ := Party.takes_write_iff.mp h
    obtain ⟨rfl, rfl, rfl⟩ := Party.takes_done_iff.mp hrest
    refine ⟨0, fun h => absurd (hcmd.symm.trans h) (by decide), rfl, ?_, rfl⟩
    rw [socks5Reply, if_pos hcmd, List.append_nil]
  · rw [if_neg (by rw [hcmd]; decide)] at h
    cases boundPort with
    | error e => exact absurd h Party.not_takes_fail
    | ok port =>
      obtain ⟨rest, rfl, hrest⟩ := Party.takes_write_iff.mp h
      obtain ⟨rfl, rfl, rfl⟩ := Party.takes_done_iff.mp hrest
      refine ⟨port, fun _ => rfl, rfl, ?_, rfl⟩
      rw [socks5Reply, if_neg (by rw [hcmd]; decide), List.append_nil]

/-- What is read as a request. -/
theorem takes_readSocks5Request
    (h : Party.Takes stream reply (readSocks5Request stream reply localIp boundPort) ins outs (.done q)) :
    ∃ cmd reserved t port, (cmd = 1 ∨ cmd = 3) ∧ UdpTarget.Short t ∧ (cmd = 3 → boundPort = .ok port) ∧
      ins = socks5RequestBytes cmd reserved t ∧ outs = socks5Reply localIp cmd port ∧ q = t.request cmd := by
  rw [readSocks5Request] at h
  obtain ⟨head, rest, hlen, rfl, hhead⟩ := takes_readExactToBuf (by simp) h
  obtain ⟨version, cmd, reserved, atyp, rfl⟩ : ∃ a b c d, head = [a, b, c, d] := by
    match head, hlen with
    | [a, b, c, d], _ => exact ⟨a, b, c, d, rfl⟩
  obtain ⟨hversion, h₁⟩ := Party.takes_refuse hhead
  obtain rfl : version = 5 := not_not.mp hversion
  split_ifs at h₁ with hcmd
  · obtain ⟨rest', -, hfail⟩ := Party.takes_write_iff.mp h₁
    exact absurd hfail Party.not_takes_fail
  · have hcmd : cmd = 1 ∨ cmd = 3 := by
      have h : ¬ (cmd ≠ 1 ∧ cmd ≠ 3) := hcmd
      tauto
    obtain ⟨t, text, bs, rest₂, rfl, ht, h₂⟩ := takes_readSocks5Dest (by rfl) h₁
    dsimp only at h₂
    obtain ⟨portBytes, rest₃, hlen₃, rfl, h₃⟩ := takes_readExactToBuf (by simp; omega) h₂
    generalize hfull : [] ++ [5, cmd, reserved, atyp] ++ bs ++ portBytes = full at h₃
    have hdrop : full.drop (4 + bs.length) = portBytes := by
      rw [← hfull]
      exact List.drop_left' (by simp; omega)
    have hfit : 4 + bs.length + 1 < full.length := by
      rw [← hfull, List.length_append, hlen₃]
      omega
    have hend : full.drop (4 + bs.length + 2) = [] := by
      rw [List.drop_eq_nil_iff, ← hfull, List.length_append, hlen₃]
    have hport := portAt_append_drop hfit
    rw [hend, hdrop, List.append_nil] at hport
    obtain ⟨port, hbound, rfl, rfl, rfl⟩ := takes_replySocks5 hcmd h₃
    obtain ⟨hshort, haddr, hrequest⟩ := ht (portAt full (4 + bs.length))
    refine ⟨cmd, reserved, _, port, hcmd, hshort, hbound, ?_, rfl, (hrequest cmd).symm⟩
    rw [socks5RequestBytes, UdpTarget.header_eq cmd, haddr, hrequest cmd, hport]
    simp

/-- **The requests that the inbound takes up.** -/
theorem takes_iff_accepts :
    Party.Takes stream reply (handleSocks5Connection stream reply localIp boundPort) ins outs (.done q) ↔
      Socks5Accepts localIp boundPort ins outs q := by
  constructor
  · intro h
    rw [handleSocks5Connection] at h
    obtain ⟨head, rest, hlen, rfl, hhead⟩ := takes_readExactToBuf (by simp) h
    obtain ⟨version, count, rfl⟩ := List.length_eq_two.mp (show head.length = 2 by simpa using hlen)
    obtain ⟨hversion, h₁⟩ := Party.takes_refuse hhead
    obtain rfl : version = 5 := not_not.mp hversion
    obtain ⟨methods, rest₁, hlen₁, rfl, h₂⟩ := takes_readExactToBuf (by simp) h₁
    have hcount : methods.length = count.toNat := by
      have h : 2 + methods.length = 2 + count.toNat := hlen₁
      omega
    have hslice : slice ([] ++ [5, count] ++ methods) 2 (([] ++ [5, count]).getD 1 0).toNat = methods := by
      have h := slice_append [5, count] methods []
      rw [List.append_nil, hcount] at h
      exact h
    rw [hslice] at h₂
    split_ifs at h₂ with hmem
    · obtain ⟨outs', rfl, h₃⟩ := Party.takes_write_iff.mp h₂
      obtain ⟨cmd, reserved, t, port, hcmd, ht, hport, rfl, rfl, rfl⟩ := takes_readSocks5Request h₃
      have hhello : [5, count] ++ (methods ++ socks5RequestBytes cmd reserved t) =
          socks5Hello methods ++ socks5RequestBytes cmd reserved t := by
        rw [socks5Hello, hcount, UInt8.ofNat_toNat, List.append_assoc]
      have hlt := count.toNat_lt
      rw [hhello]
      exact .intro (by omega) hmem hcmd ht hport
    · obtain ⟨outs', -, h₃⟩ := Party.takes_write_iff.mp h₂
      exact absurd h₃ Party.not_takes_fail
  · rintro ⟨hlen, hmem, hcmd, ht, hport⟩
    exact (handleSocks5Connection_takes stream reply localIp boundPort _ hlen hmem).trans
      (readSocks5Request_takes stream reply localIp boundPort hcmd _ ht hport)

/-- **What the inbound takes up**, over any stream and in whatever pieces it arrives: a greeting that offers no
authentication, and a request for a target. What follows is left, and nothing else is confirmed. -/
theorem negotiation_iff (stream reply : κ) (localIp : IpAddr) (boundPort : Except String UInt16)
    (arrivals : List (Arrival UInt8)) (rest written : List UInt8) (q : Socks5Request) :
    (∃ arrivals', content arrivals' = rest ∧
      (handleSocks5Connection stream reply localIp boundPort).serve "early eof" arrivals = ⟨.ok q, arrivals', written⟩) ↔
    ∃ ins, content arrivals = ins ++ rest ∧ Socks5Accepts localIp boundPort ins written q := by
  rw [Party.serve_ok_iff (handleSocks5Connection_within stream reply localIp boundPort)]
  exact exists_congr fun ins => and_congr_right fun _ => takes_iff_accepts

end

end RXCore
