import RXCore.Dispatcher.Containment
import RXCore.Inbound.Negotiation
import RXCore.Net.Text

/-!
# From the SOCKS5 inbound to the VLESS inbound of a server

An application asks an engine over SOCKS5, the engine dispatches the request to a handler for a VLESS server, and the
server reads the header that the handler writes. Three parties and four channels, on which everything arrives in
pieces of any size.

* `vlessInbound`: the inbound of the server as a party; `vlessInbound_serve`: it is `parseVlessInbound`;
* `vlessClient`: the handler; `socks5Connection`: the SOCKS5 inbound with its dispatcher and the handler;
* `chain`: the network of the three; `chain_asks`, `chain_tunnels`: what two of them say is a run of it;
* `vlessInbound_takes`, `vlessClient_takes`: what the server and the handler read and write;
* **`chain_settles`**: under every schedule the server takes up what the application asks for.
-/

set_option autoImplicit false

namespace RXCore

open Arrivals Dialogue Encoding

variable {κ : Type}

/-! ## The VLESS inbound as a party -/

/-- The destination of a request whose address starts at `destAddrStart`. -/
def readVlessDest (stream : κ) (buf : List UInt8) (addrType : UInt8) (destAddrStart : ℕ) :
    Party κ UInt8 String String :=
  if addrType = 1 then do
    let buf ← readExactToBuf stream buf (destAddrStart + 4)
    return (IpAddr.v4 (.ofOctets (slice buf destAddrStart 4))).display
  else if addrType = 2 then do
    let buf ← readExactToBuf stream buf (destAddrStart + 1)
    let domainLen := (buf.getD destAddrStart 0).toNat
    let buf ← readExactToBuf stream buf (destAddrStart + 1 + domainLen)
    match fromUtf8 (slice buf (destAddrStart + 1) domainLen) with
    | some domain => return domain
    | none => .fail "invalid utf-8 sequence"
  else if addrType = 3 then do
    let buf ← readExactToBuf stream buf (destAddrStart + 16)
    return (IpAddr.v6 (.ofOctets (slice buf destAddrStart 16))).display
  else .fail "Invalid VLESS target address type"

/-- `parse_vless_inbound` at the time `now`. -/
def vlessInbound (stream reply : κ) (engineState : EngineState) (now : ℤ) : Party κ UInt8 String VlessRequest := do
  let buf ← readExactToBuf stream [] 18
  .refuse (buf.getD 0 0 ≠ 0) "Unsupported VLESS version"
  let uuid : Uuid := Vector.ofFn fun i => buf.getD (1 + i) 0
  .refuse (engineState.isUserAllowed now uuid = false) "Invalid client UUID"
  let cmdPortTypeStart := 18 + (buf.getD 17 0).toNat
  let buf ← readExactToBuf stream buf (cmdPortTypeStart + 4)
  let cmd := buf.getD cmdPortTypeStart 0
  .refuse (cmd ≠ 1 ∧ cmd ≠ 2) "Invalid VLESS request command"
  let port := portAt buf (cmdPortTypeStart + 1)
  let destAddr ← readVlessDest stream buf (buf.getD (cmdPortTypeStart + 3) 0) (cmdPortTypeStart + 4)
  .send reply [0, 0]
  return ⟨destAddr, port, uuid, cmd⟩

/-- What comes of the inbound, as what comes of a party. -/
def VlessOutcome.served (o : VlessOutcome) : Served UInt8 String VlessRequest := ⟨o.result, o.stream, o.written⟩

section

variable {stream : κ} {α : Type}

theorem serve_readExactToBuf {f : List UInt8 → Party κ UInt8 String VlessRequest} {next : VlessReader → VlessOutcome}
    (h : ∀ s : VlessReader, (f s.buf).serve "read" s.stream = (next s).served) (s : VlessReader) (needed : ℕ) :
    (readExactToBuf stream s.buf needed >>= f).serve "read" s.stream = (s.readExactToBuf needed next).served := by
  unfold readExactToBuf VlessReader.readExactToBuf
  split_ifs with hlt
  · show Party.serve "read" (.read stream (needed - s.buf.length) fun bs => f (s.buf ++ bs)) s.stream = _
    rw [Party.serve]
    rcases recvExact (needed - s.buf.length) s.stream with ⟨_ | bs, rest⟩
    · rfl
    · exact h ⟨rest, s.buf ++ bs⟩
  · exact h s

theorem serve_refuse {c : Prop} [Decidable c] {e : String} {f : Unit → Party κ UInt8 String VlessRequest}
    {s : VlessReader} {o : VlessOutcome} (h : ¬ c → (f ()).serve "read" s.stream = o.served) :
    (Party.refuse c e >>= f).serve "read" s.stream = (if c then s.refuse e else o).served := by
  unfold Party.refuse
  split_ifs with hc
  · rfl
  · exact h hc

theorem serve_readVlessDest {f : String → Party κ UInt8 String VlessRequest} {next : VlessReader → String → VlessOutcome}
    (h : ∀ (s : VlessReader) (d : String), (f d).serve "read" s.stream = (next s d).served) (s : VlessReader)
    (addrType : UInt8) (start : ℕ) :
    (readVlessDest stream s.buf addrType start >>= f).serve "read" s.stream =
      (s.readDestAddr addrType start next).served := by
  unfold readVlessDest VlessReader.readDestAddr
  split_ifs
  · rw [Party.bind_assoc]
    exact serve_readExactToBuf (fun s => h s _) s _
  · rw [Party.bind_assoc]
    refine serve_readExactToBuf (fun s => ?_) s _
    rw [Party.bind_assoc]
    refine serve_readExactToBuf (fun s' => ?_) s _
    cases fromUtf8 (slice s'.buf (start + 1) (s.buf.getD start 0).toNat) with
    | none => rfl
    | some domain => exact h s' domain
  · rw [Party.bind_assoc]
    exact serve_readExactToBuf (fun s => h s _) s _
  · rfl

end

/-- **The party is the inbound**, over a stream that takes what is written. -/
theorem vlessInbound_serve (stream reply : κ) (engineState : EngineState) (now : ℤ) (arrivals : List (Arrival UInt8)) :
    (vlessInbound stream reply engineState now).serve "read" arrivals =
      (parseVlessInbound engineState now true arrivals).served := by
  refine serve_readExactToBuf (fun s => ?_) ⟨arrivals, []⟩ 18
  refine serve_refuse fun _ => serve_refuse fun _ => serve_readExactToBuf (fun s => ?_) s _
  refine serve_refuse fun _ => serve_readVlessDest (fun s destAddr => ?_) s _ _
  rfl

theorem vlessInbound_within (stream reply : κ) (engineState : EngineState) (now : ℤ) :
    (vlessInbound stream reply engineState now).Within (· = stream) (· = reply) := by
  refine .bind (readExactToBuf_within stream reply _ _) fun buf => .bind (.refuse _ _) fun _ => .bind (.refuse _ _) fun _ =>
    .bind (readExactToBuf_within stream reply _ _) fun buf' => .bind (.refuse _ _) fun _ => .bind ?_ fun destAddr =>
    .bind (.send (by rfl) _) fun _ => trivial
  unfold readVlessDest
  split_ifs
  · exact .bind (readExactToBuf_within stream reply _ _) fun _ => trivial
  · refine .bind (readExactToBuf_within stream reply _ _) fun buf => .bind (readExactToBuf_within stream reply _ _) ?_
    intro buf'
    cases fromUtf8 (slice buf' _ _) <;> trivial
  · exact .bind (readExactToBuf_within stream reply _ _) fun _ => trivial
  · trivial

/-- **The destination of a header.** -/
theorem readVlessDest_takes (stream reply : κ) {γ : Type} {destAddr : String}
    (hlen : (parseIpAddr destAddr).isSome ∨ (utf8 destAddr).length ≤ 255) (buf : List UInt8)
    (f : String → Party κ UInt8 String γ) :
    Party.Takes stream reply (readVlessDest stream buf (vlessAddress destAddr).1 buf.length >>= f)
      (vlessAddress destAddr).2 [] (f (canonicalDest destAddr)) := by
  have hslice : ∀ bytes, slice (buf ++ bytes) buf.length bytes.length = bytes := fun bytes => by
    simpa using slice_append buf bytes []
  unfold canonicalDest readVlessDest
  cases hip : parseIpAddr destAddr with
  | some ip =>
    cases ip with
    | v4 ipv4 =>
      have haddr : vlessAddress destAddr = (1, ipv4.octets.toList) := by simp [vlessAddress, hip]
      have h4 := hslice ipv4.octets.toList
      rw [Vector.length_toList] at h4
      rw [haddr, if_pos rfl, Party.bind_assoc]
      have h := readExactToBuf_takes stream reply buf ipv4.octets.toList (buf.length + 4) (by simp)
        fun buf' => f (IpAddr.v4 (.ofOctets (slice buf' buf.length 4))).display
      rwa [h4, Ipv4Addr.ofOctets_octets] at h
    | v6 ipv6 =>
      have haddr : vlessAddress destAddr = (3, ipv6.octets) := by simp [vlessAddress, hip]
      have h6 := hslice ipv6.octets
      rw [Ipv6Addr.octets_length] at h6
      rw [haddr, if_neg (by simp), if_neg (by simp), if_pos rfl, Party.bind_assoc]
      have h := readExactToBuf_takes stream reply buf ipv6.octets (buf.length + 16) (by simp)
        fun buf' => f (IpAddr.v6 (.ofOctets (slice buf' buf.length 16))).display
      rwa [h6, Ipv6Addr.ofOctets_octets] at h
  | none =>
    simp only [hip, Option.isSome_none, Bool.false_eq_true, false_or] at hlen
    have haddr : vlessAddress destAddr = (2, [UInt8.ofNat (utf8 destAddr).length] ++ utf8 destAddr) := by
      simp [vlessAddress, hip]
    have hbyte : (UInt8.ofNat (utf8 destAddr).length).toNat = (utf8 destAddr).length := by
      rw [UInt8.toNat_ofNat']
      omega
    rw [haddr, if_neg (by simp), if_pos rfl, Party.bind_assoc]
    dsimp only
    generalize UInt8.ofNat (utf8 destAddr).length = lenByte at hbyte
    -- the length byte first, then the name
    refine (readExactToBuf_takes stream reply buf [lenByte] _ rfl _).trans ?_
    have hget : (buf ++ [lenByte]).getD buf.length 0 = lenByte := by simp
    rw [hget, hbyte, Party.bind_assoc]
    have h := readExactToBuf_takes stream reply (buf ++ [lenByte]) (utf8 destAddr)
      (buf.length + 1 + (utf8 destAddr).length) (by simp) fun buf' =>
      (match fromUtf8 (slice buf' (buf.length + 1) (utf8 destAddr).length) with
        | some domain => pure domain
        | none => Party.fail "invalid utf-8 sequence") >>= f
    have hname := slice_append (buf ++ [lenByte]) (utf8 destAddr) []
    rw [List.append_nil, List.length_append, List.length_singleton] at hname
    rw [hname, fromUtf8_utf8] at h
    exact h

/-- **A header is taken** as what it was written for. -/
theorem vlessInbound_takes (stream reply : κ) {engineState : EngineState} {now : ℤ} {uuid : Uuid} {t : Target} {cmd : UInt8}
    {header : List UInt8} (hw : WritesHeader uuid t cmd header)
    (hdest : (parseIpAddr t.destAddr).isSome ∨ (utf8 t.destAddr).length ≤ 255)
    (hallowed : (engineState.authenticateClient now uuid).isSome) :
    Party.Takes stream reply (vlessInbound stream reply engineState now) header [0, 0]
      (.done ⟨canonicalDest t.destAddr, t.destPort, uuid, cmd⟩) := by
  have hcmd : ¬ (cmd ≠ 1 ∧ cmd ≠ 2) := by
    cases hw with
    | outbound h => split_ifs <;> simp
    | tunnel => simp
    | desktop => simp
  have huuid : (Vector.ofFn fun i : Fin 16 => ([] ++ (0 :: uuid.toList ++ [0])).getD (1 + i) 0) = uuid := by
    refine Vector.ext fun i hi => ?_
    rw [Vector.getElem_ofFn, Nat.add_comm]
    simp [List.getElem?_append_left, hi]
  have hlast : ([] ++ (0 :: uuid.toList ++ [0])).getD 17 0 = 0 := by simp
  have hpre : ([] ++ (0 :: uuid.toList ++ [0])).length = 18 := by simp
  obtain ⟨hlen, hcmdAt, hportAt, htypeAt⟩ := requestFields hpre cmd (vlessAddress t.destAddr).1 t.destPort
  rw [requestHeader_eq hw, requestHeader, List.append_assoc, vlessInbound]
  generalize houts : ([0, 0] : List UInt8) = outs
  refine (readExactToBuf_takes stream reply [] (0 :: uuid.toList ++ [0]) 18 (by simp) _).trans ?_
  have hversion : (Party.refuse (([] ++ (0 :: uuid.toList ++ [0])).getD 0 0 ≠ (0 : UInt8)) "Unsupported VLESS version" :
      Party κ UInt8 String Unit) = .done () := Party.refuse_of_not (by simp) _
  have huser : (Party.refuse (engineState.isUserAllowed now uuid = false) "Invalid client UUID" :
      Party κ UInt8 String Unit) = .done () := Party.refuse_of_not (by simp [EngineState.isUserAllowed, hallowed]) _
  have hzero : (0 : UInt8).toNat = 0 := rfl
  dsimp only
  rw [hversion, Party.done_bind, huuid, huser, Party.done_bind, hlast, hzero, Nat.add_zero]
  generalize [] ++ (0 :: uuid.toList ++ [0]) = pre at hpre hlen hcmdAt hportAt htypeAt
  refine (readExactToBuf_takes stream reply pre _ 22 (by simp [hpre]) _).trans ?_
  generalize pre ++ (cmd :: u16Bytes t.destPort.toNat ++ [(vlessAddress t.destAddr).1]) = buf at hlen hcmdAt hportAt htypeAt
  have hknown : (Party.refuse (buf.getD 18 0 ≠ 1 ∧ buf.getD 18 0 ≠ 2) "Invalid VLESS request command" :
      Party κ UInt8 String Unit) = .done () := Party.refuse_of_not (by rwa [hcmdAt]) _
  have hstart : 18 + 4 = buf.length := hlen.symm
  rw [hknown, Party.done_bind, htypeAt, hportAt, hcmdAt, ← houts, hstart]
  have hread := readVlessDest_takes stream reply hdest buf fun destAddr => do
    .send reply [0, 0]
    return (⟨destAddr, t.destPort, uuid, cmd⟩ : VlessRequest)
  have hrespond := hread.trans (Party.takes_write stream reply [0, 0] _)
  rwa [List.append_nil] at hrespond

/-! ## The handler between the two -/

/-- A result that was there before. -/
def ofExcept {α : Type} : Except String α → Party κ UInt8 String α
  | .ok a => .done a
  | .error e => .fail e

/-- `VlessClientOutbound::handle` over its connection, up to its copy loops. -/
def vlessClient (X : Crates) (stream reply : κ) (config : VlessClientConfig) (isUdp ipv4Only : Bool) (t : Target) :
    Party κ UInt8 String Unit := do
  let uuid ← ofExcept (parseUuidOrErr X config.uuid)
  let header ← ofExcept (vlessRequestHeader uuid isUdp ipv4Only t)
  .send stream header
  let response ← .recv reply 2
  .refuse (response.getD 0 0 ≠ 0) "Invalid response protocol version from server"

/-- What is known of a client of the SOCKS5 inbound besides its request. -/
structure Socks5Client where
  inboundTag : String
  clientAddr : String
  sni : Option String
  connId : Uuid

/-- A CONNECT request as it is dispatched. -/
def Socks5Client.dispatched (c : Socks5Client) (q : Socks5Request) : InboundRequest where
  target := ⟨q.destAddr, q.destPort⟩
  cmd := 1
  inboundTag := c.inboundTag
  clientAddr := c.clientAddr
  sni := c.sni
  connId := c.connId
  client := []

/-- The UUID with which the SOCKS5 inbound dispatches. -/
def dummyUuid : Uuid := Vector.replicate 16 0

/-- How far a connection of the SOCKS5 inbound has come. -/
inductive Socks5Progress where
  | associated (q : Socks5Request)
  /-- The dispatcher has dropped the connection. -/
  | dropped
  /-- The tunnel to a VLESS server is open. -/
  | tunnelled (t : Target)
  /-- Another handler runs. -/
  | handed (relay : Relay)

/-- A CONNECT request is dispatched, and a handler for a VLESS server opens its tunnel. -/
def dispatchSocks5 (X : Crates) (s : EngineState) (c : Socks5Client) (up down : κ) (q : Socks5Request) :
    Party κ UInt8 String Socks5Progress :=
  match dispatchConnection X s dummyUuid (c.dispatched q) with
  | .error e => .fail e
  | .ok none => .done .dropped
  | .ok (some (_, .starting (.vless config isUdp _ _) t _ _)) => do
    vlessClient X up down config isUdp s.config.network.ipv4Only t
    return .tunnelled t
  | .ok (some (_, relay)) => .done (.handed relay)

/-- A connection of the SOCKS5 inbound. -/
def socks5Connection (X : Crates) (s : EngineState) (c : Socks5Client) (ask answer up down : κ) (localIp : IpAddr)
    (boundPort : Except String UInt16) : Party κ UInt8 String Socks5Progress := do
  let q ← handleSocks5Connection ask answer localIp boundPort
  if q.cmd = 1 then dispatchSocks5 X s c up down q else return .associated q

/-! ## The chain -/

/-- An application, the engine with the SOCKS5 inbound, and the server with the VLESS inbound. -/
inductive Node where
  | app
  | near
  | far
deriving DecidableEq

inductive Link where
  | ask
  | answer
  | up
  | down
deriving DecidableEq

def chainLinks : Links Node Link where
  reader
    | .ask => .near
    | .answer => .app
    | .up => .far
    | .down => .near
  writer
    | .ask => .app
    | .answer => .near
    | .up => .near
    | .down => .far

/-- The results of the three parties. -/
def ChainResults : Node → Type
  | .app => Unit
  | .near => Socks5Progress
  | .far => VlessRequest

/-- The three parties, with what is on its way. -/
def chain (app : Party Link UInt8 String Unit) (near : Party Link UInt8 String Socks5Progress)
    (far : Party Link UInt8 String VlessRequest) (ask answer up down : List UInt8) :
    Net Node Link UInt8 String ChainResults where
  parties
    | .app => app
    | .near => near
    | .far => far
  chans
    | .ask => ask
    | .answer => answer
    | .up => up
    | .down => down

section

variable {app app' : Party Link UInt8 String Unit} {near near' : Party Link UInt8 String Socks5Progress}
  {far far' : Party Link UInt8 String VlessRequest} {ask answer up down : List UInt8}

theorem chain_ext {s : Net Node Link UInt8 String ChainResults} (happ : s.parties .app = app)
    (hnear : s.parties .near = near) (hfar : s.parties .far = far) (hask : s.chans .ask = ask)
    (hanswer : s.chans .answer = answer) (hup : s.chans .up = up) (hdown : s.chans .down = down) :
    s = chain app near far ask answer up down := by
  apply Net.ext
  · funext i
    cases i with
    | app => exact happ
    | near => exact hnear
    | far => exact hfar
  · funext c
    cases c with
    | ask => exact hask
    | answer => exact hanswer
    | up => exact hup
    | down => exact hdown

/-- What the application and the inbound say to each other. -/
theorem chain_asks {ask' answer' : List UInt8} (h : Party.Exchange .ask .answer app near ask answer app' near' ask' answer')
    (far : Party Link UInt8 String VlessRequest) (up down : List UInt8) : Run.Reachable Net.step
      (chain app near far ask answer up down) (chain app' near' far ask' answer' up down) := by
  convert Net.reach_exchange (s := chain app near far ask answer up down) (i := .app) (j := .near) (by decide) (by decide)
    h rfl rfl rfl rfl using 1
  symm
  apply chain_ext <;> rfl

/-- What the handler and the server say to each other. -/
theorem chain_tunnels {up' down' : List UInt8} (h : Party.Exchange .up .down near far up down near' far' up' down')
    (app : Party Link UInt8 String Unit) (ask answer : List UInt8) : Run.Reachable Net.step
      (chain app near far ask answer up down) (chain app near' far' ask answer up' down') := by
  convert Net.reach_exchange (s := chain app near far ask answer up down) (i := .near) (j := .far) (by decide) (by decide)
    h rfl rfl rfl rfl using 1
  symm
  apply chain_ext <;> rfl

end

/-! ## The channels of the parties -/

theorem ofExcept_within {α : Type} {reads writes : κ → Prop} (x : Except String α) :
    (ofExcept x : Party κ UInt8 String α).Within reads writes := by
  cases x <;> trivial

theorem vlessClient_within (X : Crates) (stream reply : κ) (config : VlessClientConfig) (isUdp ipv4Only : Bool)
    (t : Target) : (vlessClient X stream reply config isUdp ipv4Only t).Within (· = reply) (· = stream) :=
  .bind (ofExcept_within _) fun _ => .bind (ofExcept_within _) fun _ => .bind (.send (by rfl) _) fun _ =>
    .bind (.recv (by rfl) 2) fun _ => .refuse _ _

theorem dispatchSocks5_within (X : Crates) (s : EngineState) (c : Socks5Client) (up down : κ) (q : Socks5Request) :
    (dispatchSocks5 X s c up down q).Within (· = down) (· = up) := by
  unfold dispatchSocks5
  split
  · trivial
  · trivial
  · exact .bind (vlessClient_within X up down _ _ _ _) fun _ => trivial
  · trivial

theorem socks5Connection_within (X : Crates) (s : EngineState) (c : Socks5Client) (ask answer up down : κ)
    (localIp : IpAddr) (boundPort : Except String UInt16) :
    (socks5Connection X s c ask answer up down localIp boundPort).Within (fun k => k = ask ∨ k = down)
      (fun k => k = answer ∨ k = up) := by
  refine .bind ((handleSocks5Connection_within ask answer localIp boundPort).imp (fun _ => .inl) fun _ => .inl) fun q => ?_
  split_ifs
  · exact (dispatchSocks5_within X s c up down q).imp (fun _ => .inr) fun _ => .inr
  · trivial

theorem chain_private {app : Party Link UInt8 String Unit} {near : Party Link UInt8 String Socks5Progress}
    {far : Party Link UInt8 String VlessRequest} (happ : app.Within (· = .answer) (· = .ask))
    (hnear : near.Within (fun k => k = .ask ∨ k = .down) (fun k => k = .answer ∨ k = .up))
    (hfar : far.Within (· = .up) (· = .down)) (ask answer up down : List UInt8) :
    (chain app near far ask answer up down).Private chainLinks := by
  intro i
  cases i with
  | app =>
    apply Party.Within.imp _ _ happ
    · rintro k rfl
      rfl
    · rintro k rfl
      rfl
  | near =>
    apply Party.Within.imp _ _ hnear
    · rintro k (rfl | rfl)
      · rfl
      · rfl
    · rintro k (rfl | rfl)
      · rfl
      · rfl
  | far =>
    apply Party.Within.imp _ _ hfar
    · rintro k rfl
      rfl
    · rintro k rfl
      rfl

/-! ## Agreement -/

section

variable {X : Crates} {s engine : EngineState} {userUuid uuid : Uuid} {q : InboundRequest} {config : VlessClientConfig}
  {isUdp : Bool} {outboundProxy bindAddress clientEmail : Option String} {target : Target}
  {client : List (Arrival UInt8)}

/-- A VLESS handler is for the transport that was asked for. -/
theorem handlerOf_vless {outbound : Option OutboundConfig} {udp : Bool}
    (h : handlerOf outbound udp = .ok (.vless config isUdp outboundProxy bindAddress)) : isUdp = udp := by
  unfold handlerOf getOutboundHandler at h
  cases outbound with
  | none =>
    cases udp
    · cases h
    · cases h
  | some o =>
    by_cases hvless : o.protocol = "vless"
    · rw [if_pos (by simpa using hvless)] at h
      dsimp only at h
      rw [if_neg (by rw [hvless]; decide), if_neg (by rw [hvless]; decide), if_pos hvless] at h
      cases hsettings : o.settings.bind (·.vless) with
      | none =>
        rw [hsettings] at h
        cases h
      | some settings =>
        rw [hsettings] at h
        exact (Handler.vless.inj (Except.ok.inj h)).2.1.symm
    · rw [if_neg (by simpa using hvless)] at h
      dsimp only at h
      rw [if_neg hvless] at h
      split_ifs at h <;> cases h

/-- What is known of a connection that is handed to a VLESS server. -/
theorem dispatchConnection_vless (h : dispatchConnection X s userUuid q =
    .ok (some (engine, .starting (.vless config isUdp outboundProxy bindAddress) target client clientEmail))) :
    target = q.target ∧ isUdp = (q.cmd == 2) ∧
      ¬ (s.config.network.ipv4Only ∧ (parseIpAddr q.target.destAddr).map (·.isIpv6) = some true) := by
  unfold dispatchConnection at h
  split_ifs at h with hv6
  cases hroute : routeOf X s userUuid q with
  | none =>
    rw [hroute] at h
    cases h
  | some tag =>
    rw [hroute] at h
    simp only [launch] at h
    cases hconfig : outboundConfigOf s tag with
    | none =>
      rw [hconfig] at h
      cases h
    | some outbound =>
      rw [hconfig] at h
      obtain ⟨handler, hhandler, hstart⟩ := bind_ok.mp h
      have hsome := (Prod.mk.inj (Option.some.inj (Except.ok.inj hstart))).2
      obtain ⟨rfl, rfl, -, -⟩ := Relay.starting.inj hsome
      exact ⟨rfl, handlerOf_vless hhandler, hv6⟩

/-- A destination that is not refused has a header. -/
theorem vlessRequestHeader_ok {ipv4Only : Bool}
    (h : ¬ (ipv4Only ∧ (parseIpAddr target.destAddr).map (·.isIpv6) = some true)) (uuid : Uuid) (isUdp : Bool) :
    ∃ header, vlessRequestHeader uuid isUdp ipv4Only target = .ok header := by
  unfold vlessRequestHeader
  cases hip : parseIpAddr target.destAddr with
  | none => exact ⟨_, rfl⟩
  | some ip =>
    cases ip with
    | v4 a => exact ⟨_, rfl⟩
    | v6 a =>
      have hboth : ¬ (ipv4Only = true) := fun hv4 => h ⟨hv4, by rw [hip]; rfl⟩
      exact ⟨_, if_neg hboth⟩

/-- **The handshake with a VLESS server.** -/
theorem vlessClient_takes (stream reply : κ) {ipv4Only : Bool} {header : List UInt8}
    (huuid : X.parseUuid config.uuid = some uuid)
    (hheader : vlessRequestHeader uuid isUdp ipv4Only target = .ok header) :
    ∃ opened, Party.Takes reply stream (vlessClient X stream reply config isUdp ipv4Only target) [] header opened ∧
      Party.Takes reply stream opened [0, 0] [] (.done ()) := by
  have hparse : parseUuidOrErr X config.uuid = .ok uuid := by rw [parseUuidOrErr, huuid]
  refine ⟨.read reply 2 fun response =>
    .refuse (response.getD 0 0 ≠ 0) "Invalid response protocol version from server", ?_, ?_⟩
  · rw [vlessClient, hparse]
    show Party.Takes reply stream (ofExcept (vlessRequestHeader uuid isUdp ipv4Only target) >>= _) _ _ _
    rw [hheader]
    exact Party.takes_write _ _ _ _
  · have hsplit : ([0, 0] : List UInt8) = [0, 0] ++ [] := rfl
    rw [hsplit]
    exact .read rfl (.refl _)

/-- The destination of a request can be written into a header. -/
theorem UdpTarget.Short.fits {t : UdpTarget} (ht : t.Short) (cmd : UInt8) :
    (parseIpAddr (t.request cmd).destAddr).isSome ∨ (utf8 (t.request cmd).destAddr).length ≤ 255 := by
  cases t with
  | ip addr port =>
    left
    show (parseIpAddr addr.display).isSome = true
    rw [parseIpAddr_display]
    rfl
  | domain name port => exact .inr ht

/-- **A connection through both inbounds.** In whatever order the three parties go on, and in whatever pieces what they
write arrives, the server takes up the destination that the application asks for, under the account of the
handler, and what the application and the server write next is left for the copy loops. -/
theorem chain_settles {far : EngineState} {now : ℤ} {t : UdpTarget} (ht : t.Short) (c : Socks5Client)
    (hroute : dispatchConnection X s dummyUuid (c.dispatched (t.request 1)) =
      .ok (some (engine, .starting (.vless config isUdp outboundProxy bindAddress) target client clientEmail)))
    (huuid : X.parseUuid config.uuid = some uuid) (hallowed : (far.authenticateClient now uuid).isSome)
    (localIp : IpAddr) (boundPort : Except String UInt16) (payload answer : List UInt8) :
    Settles Net.step
      (chain (dialSocks5 .ask .answer (socks5RequestBytes 1 0 t) >>= fun _ => .send .ask payload)
        (socks5Connection X s c .ask .answer .up .down localIp boundPort)
        (vlessInbound .up .down far now >>= fun q => .send .down answer >>= fun _ => pure q) [] [] [] [])
      (chain (.done ()) (.done (.tunnelled ⟨(t.request 1).destAddr, (t.request 1).destPort⟩))
        (.done ⟨canonicalDest (t.request 1).destAddr, (t.request 1).destPort, uuid, 1⟩) payload [] [] answer) := by
  obtain ⟨rfl, rfl, hv6⟩ := dispatchConnection_vless hroute
  obtain ⟨header, hheader⟩ := vlessRequestHeader_ok hv6 uuid false
  obtain ⟨opened, hopens, hopened⟩ := vlessClient_takes Link.up Link.down huuid hheader
  have htaken := vlessInbound_takes Link.up Link.down (.outbound hheader) (ht.fits 1) hallowed
  generalize hserve : (fun q => if q.cmd = 1 then dispatchSocks5 X s c Link.up Link.down q else
    (pure (.associated q) : Party Link UInt8 String Socks5Progress)) = serve
  have hnear : socks5Connection X s c .ask .answer .up .down localIp boundPort =
      handleSocks5Connection .ask .answer localIp boundPort >>= serve := by
    rw [← hserve]
    rfl
  have hdispatch : serve (t.request 1) =
      vlessClient X .up .down config false s.config.network.ipv4Only (c.dispatched (t.request 1)).target >>=
        fun _ => pure (.tunnelled (c.dispatched (t.request 1)).target) := by
    rw [← hserve]
    show (if (t.request 1).cmd = 1 then _ else _) = _
    rw [if_pos (by cases t <;> rfl)]
    unfold dispatchSocks5
    rw [hroute]
    rfl
  apply Net.settles (L := chainLinks)
  · refine chain_private ?_ (socks5Connection_within X s c _ _ _ _ localIp boundPort) ?_ [] [] [] []
    · exact (dialSocks5_within Link.ask Link.answer _).bind fun _ => .send (by rfl) _
    · exact (vlessInbound_within _ _ far now).bind fun _ => .bind (.send (by rfl) _) fun _ => trivial
  · have hasked := handshake_exchange Link.ask Link.answer (.inl rfl) ht localIp boundPort 0 (fun h => absurd h (by decide))
      "SOCKS5 auth failed" (awaitConnect .answer >>= fun _ => .send .ask payload) serve
    rw [dialSocks5, proxyHandshake_bind, hnear]
    refine .trans (chain_asks hasked _ [] []) ?_
    rw [hdispatch]
    -- the request and the response, and what the server writes behind it
    have hanswer := Party.takes_write Link.up Link.down answer
      (.done ⟨canonicalDest (t.request 1).destAddr, (t.request 1).destPort, uuid, 1⟩ : Party Link UInt8 String VlessRequest)
    refine .trans (chain_tunnels ((Party.Exchange.ask (hopens.bind _) _ []).trans (.reply (htaken.bind _) _ [])) _ _ _) ?_
    refine .trans (chain_tunnels ((Party.Exchange.reply hanswer _ _).trans (.client (hopened.bind _) (.refl _ _ _ _)))
      _ _ _) ?_
    -- the application's turn
    have hread := (awaitConnect_takes Link.ask Link.answer).bind fun _ => Party.send Link.ask payload
    exact chain_asks ((Party.Exchange.ask hread _ []).trans (.ask (Party.takes_write _ _ payload (.done ())) _ [])) _ _ _
  · intro i
    cases i <;> trivial

end

/-- An engine that sends everything on to a VLESS server, under the account with five bytes. -/
def forwardingEngine : EngineState :=
  .new Sample.crates sampleDraws (ruledConfig "exit" [⟨"exit", "vless", some ⟨none, some exitServer, none⟩, none, none⟩])
where
  exitServer : VlessClientConfig := ⟨"192.0.2.7", 443, fiveBytes.id, none⟩

def browser : Socks5Client := ⟨"socks-inbound", "127.0.0.1:50000", none, Vector.replicate 16 9⟩

theorem forwardingEngine_dispatches : ∃ engine clientEmail, dispatchConnection Sample.crates forwardingEngine dummyUuid
    (browser.dispatched (UdpTarget.request 1 (.domain "example.com" 443))) =
      .ok (some (engine, .starting (.vless forwardingEngine.exitServer false none none) ⟨"example.com", 443⟩ []
        clientEmail)) := by
  have hroute : routeOf Sample.crates forwardingEngine dummyUuid
      (browser.dispatched (UdpTarget.request 1 (.domain "example.com" 443))) = some "exit" := by decide
  unfold dispatchConnection
  rw [if_neg (by decide), hroute]
  exact ⟨_, _, rfl⟩

/-- The theorem on a request for a name. -/
theorem chain_settles_browser :
    Settles Net.step
      (chain (dialSocks5 .ask .answer (socks5RequestBytes 1 0 (.domain "example.com" 443)) >>= fun _ => .send .ask [71])
        (socks5Connection Sample.crates forwardingEngine browser .ask .answer .up .down (.v4 .unspecified) (.error "bind"))
        (vlessInbound .up .down fiveBytesEngine 0 >>= fun q => .send .down [72] >>= fun _ => pure q) [] [] [] [])
      (chain (.done ()) (.done (.tunnelled ⟨"example.com", 443⟩)) (.done ⟨"example.com", 443, fiveBytes.uuid, 1⟩)
        [71] [] [] [72]) := by
  have hshort : (UdpTarget.domain "example.com" 443).Short := by
    show (Encoding.utf8 "example.com").length ≤ 255
    decide
  have hdest : canonicalDest "example.com" = "example.com" := by decide
  obtain ⟨engine, clientEmail, hroute⟩ := forwardingEngine_dispatches
  have hallowed : (fiveBytesEngine.authenticateClient 0 fiveBytes.uuid).isSome := by decide +kernel
  have h := chain_settles hshort browser hroute (by decide) hallowed (.v4 .unspecified) (.error "bind") [71] [72]
  have htext : (UdpTarget.request 1 (.domain "example.com" 443)).destAddr = "example.com" := rfl
  rw [htext, hdest] at h
  exact h

end RXCore
