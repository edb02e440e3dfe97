import RXCore.Dispatcher.Ipv4
import RXCore.Outbound.Wire
import RXCore.Transport.Resolver

/-!
# Names of destinations

Where the name of a destination is looked up while the connections of a server take their steps in any order,
and what keeps the answers of the two routes apart.

* `dialTcpLookups`, `UdpReader.lookups`, `Relay.lookups`: the requests to the resolver, next to the functions that
  make them; `dialTcp_congr`, `UdpReader.next_congr`: nothing else is asked;
* `ResolveRequest.Private`: a request that is answered by DNS over the proxy;
* `Resolver.setRoute`: the cache and the flight of a route; **`resolverStep_setRoute`**: calls of the other route
  neither see nor change them;
* **`lookups_private_iff`**: behind a proxy all lookups are private if and only if no multiplexed frame names a host;
* **`multiplexed_name_leaks`**: one that does.
-/

set_option autoImplicit false

namespace RXCore

open Encoding

/-! ## What is asked -/

/-- A request to the resolver, unless its host is an address. -/
def named (req : ResolveRequest) : List ResolveRequest :=
  if (parseIpAddr req.hostname).isSome then [] else [req]

/-- The lookups of the name of a destination in `dial_tcp`; that of its proxy is not among them. -/
def dialTcpLookups (A : Answers) (ipv4Only : Bool) (destHost : String) (destPort : UInt16) :
    Option String → List ResolveRequest
  | some proxyAddr => match parseEndpoint proxyAddr 1080 with
    | .error _ => []
    | .ok (proxyHost, proxyPort) => match A.resolve proxyHost proxyPort .direct with
      | .error _ => []
      | .ok _ => if ipv4Only then named ⟨destHost, destPort, .warp, ipv4Only, some proxyAddr⟩ else []
  | none => named ⟨destHost, destPort, .direct, ipv4Only, none⟩

/-- The lookups of the name of a destination in `create_outbound_udp`. -/
def createLookups (ipv4Only : Bool) (destHost : String) (destPort : UInt16) : Option String → List ResolveRequest
  | some _ => []
  | none => named ⟨destHost, destPort, .direct, ipv4Only, none⟩

/-- The target of the next multiplexed frame. -/
def nextTarget (ipv4Only : Bool) (reader : List UInt8) : Option UdpTarget := do
  let (headerBuf, reader) ← readExact 4 reader
  let totalLen := u16At headerBuf 0
  if totalLen < 2 then none
  else
    let (frame, _) ← readExact (totalLen - 2) reader
    (bodyTarget ipv4Only frame).map Prod.fst

/-- The host and the port of the next packet, once it is read as a whole. -/
def PacketAddr.nextDest (s : PacketAddr) : Option (String × UInt16) := do
  let (s, destHost, destPort, nextOffset) ← s.readDest
  let s ← s.readExactToBuf (nextOffset + 2)
  let _ ← s.readExactToBuf (nextOffset + 2 + u16At s.buf nextOffset)
  destHost.map fun host => (host, destPort)

/-- The lookups while an upload loop reads a frame. -/
def UdpReader.lookups (u : UdpOutbound) (ipv4Only : Bool) : UdpReader → List ResolveRequest
  | standard _ _ _ => []
  | multiplexed reader _ => match nextTarget ipv4Only reader with
    | some (.domain name port) => named ⟨name, port, .direct, ipv4Only, none⟩
    | _ => []
  | packetAddr s => match s.nextDest with
    | some (host, port) => if u.outboundProxy.isSome then [] else named ⟨host, port, .direct, ipv4Only, none⟩
    | none => []

/-- The lookups of a turn of an upload loop. -/
def UdpRelay.turnLookups (r : UdpRelay) (ipv4Only : Bool) (t : UdpTurn) : List ResolveRequest :=
  (match r.reader with
    | some reader => reader.lookups r.outbound ipv4Only
    | none => []) ++
  match r.frame t.answers ipv4Only with
  | some f => if (r.sessions.lookup f.key).isSome then []
    else createLookups ipv4Only f.host f.port r.outbound.outboundProxy
  | none => []

/-- The lookups of a handler before its loops. -/
def Handler.lookups (A : Answers) (ipv4Only : Bool) (t : Target) : Handler → List ResolveRequest
  | freedom outboundProxy _ => dialTcpLookups A ipv4Only t.destAddr t.destPort outboundProxy
  | fragment _ => named ⟨t.destAddr, t.destPort, .direct, ipv4Only, none⟩
  | vless config _ outboundProxy _ => dialTcpLookups A ipv4Only config.server config.port outboundProxy
  | udp outbound =>
    if t.destAddr = "sp.packet-addr.v2fly.arpa" ∨ (t.destAddr = "0.0.0.0" ∧ t.destPort = 0) then []
    else createLookups ipv4Only t.destAddr t.destPort outbound.outboundProxy
  | blackhole => []

/-- **The lookups of a step of a handler.** -/
def Relay.lookups (ipv4Only : Bool) : Relay → RelayEvent → List ResolveRequest
  | .starting h t _ _, .connect c => h.lookups c.answers ipv4Only t
  | .udp r, .turn t => r.turnLookups ipv4Only t
  | _, _ => []

/-! ## Nothing else is asked -/

section

variable {A : Answers} {f : String → UInt16 → SelectedRoute → Except String (List SocketAddrV4)} {ipv4Only : Bool}
  {destHost : String} {destPort : UInt16} {bindIp : Option String}

/-- The other answers agree about the requests, and about hosts that are addresses. -/
def Answers.AgreesOn (A : Answers) (f : String → UInt16 → SelectedRoute → Except String (List SocketAddrV4))
    (reqs : List ResolveRequest) : Prop :=
  (∀ req ∈ reqs, f req.hostname req.port req.route = A.resolve req.hostname req.port req.route) ∧
    ∀ host port route, (parseIpAddr host).isSome → f host port route = A.resolve host port route

theorem Answers.AgreesOn.named {req : ResolveRequest} (h : A.AgreesOn f (named req)) :
    f req.hostname req.port req.route = A.resolve req.hostname req.port req.route := by
  by_cases hip : (parseIpAddr req.hostname).isSome
  · exact h.2 _ _ _ hip
  · exact h.1 req (by simp [RXCore.named, hip])

theorem dialSocks_resolve (proxy : String) (proxyAddrs : List SocketAddrV4) (n : ℕ) (lastErr : Option String)
    (ips : List Ipv4Addr) : dialSocks { A with resolve := f } proxy proxyAddrs bindIp n lastErr ips =
      dialSocks A proxy proxyAddrs bindIp n lastErr ips := by
  induction ips generalizing n lastErr with
  | nil => rfl
  | cons ip ips ih =>
    simp only [dialSocks, ih]
    rfl

theorem dialSocksByName_resolve (proxy : String) (lastErr : Option String) (attempts : List (ℕ × SocketAddrV4)) :
    dialSocksByName { A with resolve := f } proxy bindIp lastErr attempts =
      dialSocksByName A proxy bindIp lastErr attempts := by
  induction attempts generalizing lastErr with
  | nil => rfl
  | cons attempt rest ih => simp only [dialSocksByName, ih]

theorem dialDirect_resolve (lastErr : Option String) (addrs : List SocketAddrV4) :
    dialDirect { A with resolve := f } ipv4Only bindIp lastErr addrs = dialDirect A ipv4Only bindIp lastErr addrs := by
  induction addrs generalizing lastErr with
  | nil => rfl
  | cons addr addrs ih => simp only [dialDirect, ih]

/-- **`dial_tcp` asks for its proxy and what is listed.** -/
theorem dialTcp_congr {outboundProxy : Option String}
    (h : A.AgreesOn f (dialTcpLookups A ipv4Only destHost destPort outboundProxy))
    (hproxy : ∀ proxyAddr ∈ outboundProxy, ∀ host port, parseEndpoint proxyAddr 1080 = .ok (host, port) →
      f host port .direct = A.resolve host port .direct) :
    dialTcp { A with resolve := f } ipv4Only destHost destPort bindIp outboundProxy =
      dialTcp A ipv4Only destHost destPort bindIp outboundProxy := by
  cases outboundProxy with
  | none =>
    have hdest : destAddrs { A with resolve := f } ipv4Only destHost destPort =
        destAddrs A ipv4Only destHost destPort := by
      unfold destAddrs
      cases parseIpAddr destHost with
      | some ip => rfl
      | none => exact h.named
    simp only [dialTcp, hdest, dialDirect_resolve]
  | some proxyAddr =>
    simp only [dialTcp, dialSocks_resolve, dialSocksByName_resolve]
    cases hp : parseEndpoint proxyAddr 1080 with
    | error e => rfl
    | ok endpoint =>
      obtain ⟨host, port⟩ := endpoint
      have hfirst := hproxy proxyAddr rfl host port hp
      cases hr : A.resolve host port .direct with
      | error e =>
        rw [hr] at hfirst
        simp only [bind, Except.bind, hfirst, hr]
      | ok addrs =>
        rw [hr] at hfirst
        have hips : destIpsForProxy { A with resolve := f } ipv4Only destHost destPort =
            destIpsForProxy A ipv4Only destHost destPort := by
          unfold destIpsForProxy
          cases parseIpAddr destHost with
          | some ip => rfl
          | none =>
            cases ipv4Only with
            | false => rfl
            | true =>
              simp only [dialTcpLookups, hp, hr, if_true] at h
              exact congrArg (Except.map fun addrs => addrs.map Prod.fst) h.named
        simp only [bind, Except.bind, hfirst, hr, hips]

theorem UdpTarget.locate_congr {t : UdpTarget}
    (h : ∀ name port, t = .domain name port → f name port .direct = A.resolve name port .direct) :
    t.locate { A with resolve := f } = t.locate A := by
  cases t with
  | ip addr port => rfl
  | domain name port => simp only [UdpTarget.locate, h name port rfl]

/-- What is next in a multiplexed stream, by the body of the frame. -/
theorem multiplexedFrame_eq (A : Answers) (ipv4Only : Bool) (reader payloadBuf : List UInt8) :
    multiplexedFrame A ipv4Only reader payloadBuf = (do
      let (headerBuf, reader) ← readExact 4 reader
      let totalLen := u16At headerBuf 0
      if totalLen < 2 then none
      else
        let (frame, reader) ← readExact (totalLen - 2) reader
        let payloadBuf := frame ++ payloadBuf.drop frame.length
        return (reader, payloadBuf, (bodyTarget ipv4Only frame).bind fun (t, offset) =>
          (t.locate A).map fun (host, port, addr) =>
            ⟨.assoc (portAt headerBuf 2), host, port, some addr, payloadBuf.take offset,
              slice payloadBuf offset (frame.length - offset)⟩)) := by
  simp only [multiplexedFrame, multiplexedTarget_body]
  cases readExact 4 reader with
  | none => rfl
  | some e =>
    simp only [Option.bind_eq_bind, Option.bind_some]
    split_ifs
    · rfl
    · cases readExact (u16At e.1 0 - 2) e.2 with
      | none => rfl
      | some e' =>
        simp only [Option.bind_some]
        cases bodyTarget ipv4Only e'.1 with
        | none => rfl
        | some t =>
          cases ht : t.1.locate A with
          | none => simp [ht]
          | some located => simp [ht]

/-- **An upload loop asks for what is listed.** -/
theorem UdpReader.next_congr {u : UdpOutbound} {reader : UdpReader} (h : A.AgreesOn f (reader.lookups u ipv4Only)) :
    reader.next u { A with resolve := f } ipv4Only = reader.next u A ipv4Only := by
  cases reader with
  | standard destAddr destPort bytes => rfl
  | multiplexed bytes payloadBuf =>
    simp only [UdpReader.next, multiplexedFrame_eq]
    simp only [UdpReader.lookups, nextTarget] at h
    cases hheader : readExact 4 bytes with
    | none => rfl
    | some e =>
      simp only [hheader, Option.bind_eq_bind, Option.bind_some] at h ⊢
      split_ifs at h ⊢ with hlen
      · rfl
      · cases hframe : readExact (u16At e.1 0 - 2) e.2 with
        | none => rfl
        | some e' =>
          simp only [hframe, Option.bind_some] at h ⊢
          cases hbody : bodyTarget ipv4Only e'.1 with
          | none => rfl
          | some t =>
            rw [hbody] at h
            have hlocate : t.1.locate { A with resolve := f } = t.1.locate A := by
              refine UdpTarget.locate_congr fun name port ht => ?_
              simp only [Option.map_some, ht] at h
              exact h.named
            simp only [Option.bind_some, hlocate]
  | packetAddr s =>
    simp only [UdpReader.next, packetAddrFrame]
    simp only [UdpReader.lookups, PacketAddr.nextDest] at h
    cases hdest : s.readDest with
    | none => rfl
    | some e =>
      obtain ⟨s₁, destHost, destPort, nextOffset⟩ := e
      simp only [hdest, Option.bind_eq_bind, Option.bind_some] at h ⊢
      cases hlen : s₁.readExactToBuf (nextOffset + 2) with
      | none => rfl
      | some s₂ =>
        simp only [hlen, Option.bind_some] at h ⊢
        cases hpayload : s₂.readExactToBuf (nextOffset + 2 + u16At s₂.buf nextOffset) with
        | none => rfl
        | some s₃ =>
          simp only [hpayload, Option.bind_some] at h ⊢
          cases destHost with
          | none => rfl
          | some host =>
            have haddr : u.destSocketAddr { A with resolve := f } ipv4Only host destPort =
                u.destSocketAddr A ipv4Only host destPort := by
              unfold UdpOutbound.destSocketAddr
              cases parseIpAddr host with
              | some ip => rfl
              | none =>
                by_cases hproxy : u.outboundProxy.isSome
                · simp only [hproxy, if_true]
                · simp only [Option.map_some, hproxy, Bool.false_eq_true, if_false] at h ⊢
                  simp only [h.named]
            simp only [Option.bind_some, haddr]

end

/-! ## Behind a proxy -/

/-- A request that is answered by DNS over the proxy. -/
def ResolveRequest.Private (proxy : String) (req : ResolveRequest) : Prop :=
  req.route = .warp ∧ req.outboundProxy = some proxy

/-- The proxy that the connections of a handler go through. -/
def Handler.proxy : Handler → Option String
  | freedom outboundProxy _ => outboundProxy
  | fragment _ => none
  | vless _ _ outboundProxy _ => outboundProxy
  | udp outbound => outbound.outboundProxy
  | blackhole => none

/-- The proxy of the handler of a relay, as far as it may look up a name. -/
def Relay.proxy : Relay → Option String
  | .starting h _ _ _ => h.proxy
  | .udp r => r.outbound.outboundProxy
  | _ => none

/-- The name in the multiplexed frame that the next turn reads. -/
def Relay.nextName (ipv4Only : Bool) : Relay → RelayEvent → Option String
  | .udp r, .turn _ => match r.reader with
    | some (.multiplexed reader _) => match nextTarget ipv4Only reader with
      | some (.domain name _) => if (parseIpAddr name).isSome then none else some name
      | _ => none
    | _ => none
  | _, _ => none

section

variable {proxy : String} {ipv4Only : Bool}

theorem private_of_mem_named {req req' : ResolveRequest} (h : req.Private proxy) (hmem : req' ∈ named req) :
    req'.Private proxy := by
  unfold named at hmem
  split_ifs at hmem
  · exact absurd hmem List.not_mem_nil
  · rwa [List.mem_singleton.mp hmem]

theorem private_of_mem_dialTcpLookups {A : Answers} {destHost : String} {destPort : UInt16} {req : ResolveRequest}
    (h : req ∈ dialTcpLookups A ipv4Only destHost destPort (some proxy)) : req.Private proxy := by
  unfold dialTcpLookups at h
  dsimp only at h
  split at h
  · exact absurd h List.not_mem_nil
  · split at h
    · exact absurd h List.not_mem_nil
    · split_ifs at h
      · exact private_of_mem_named ⟨rfl, rfl⟩ h
      · exact absurd h List.not_mem_nil

theorem private_of_mem_handlerLookups {A : Answers} {t : Target} {h : Handler} {req : ResolveRequest}
    (hproxy : h.proxy = some proxy) (hmem : req ∈ h.lookups A ipv4Only t) : req.Private proxy := by
  cases h with
  | freedom outboundProxy bindAddress =>
    obtain rfl : outboundProxy = some proxy := hproxy
    rw [Handler.lookups] at hmem
    exact private_of_mem_dialTcpLookups hmem
  | fragment settings => cases hproxy
  | vless config isUdp outboundProxy bindAddress =>
    obtain rfl : outboundProxy = some proxy := hproxy
    rw [Handler.lookups] at hmem
    exact private_of_mem_dialTcpLookups hmem
  | udp outbound =>
    have houtbound : outbound.outboundProxy = some proxy := hproxy
    simp only [Handler.lookups, houtbound, createLookups] at hmem
    split_ifs at hmem <;> exact absurd hmem List.not_mem_nil
  | blackhole => cases hproxy

/-- **A turn of an upload loop behind a proxy** looks up the name in a multiplexed frame, and no other. -/
theorem turnLookups_private_iff {r : UdpRelay} (hproxy : r.outbound.outboundProxy = some proxy) (t : UdpTurn) :
    (∀ req ∈ r.turnLookups ipv4Only t, req.Private proxy) ↔ (Relay.udp r).nextName ipv4Only (.turn t) = none := by
  have hcreate : (match r.frame t.answers ipv4Only with
      | some f => if (r.sessions.lookup f.key).isSome then []
        else createLookups ipv4Only f.host f.port r.outbound.outboundProxy
      | none => []) = [] := by
    rw [hproxy]
    cases r.frame t.answers ipv4Only with
    | none => rfl
    | some f => exact ite_self _
  rw [UdpRelay.turnLookups, hcreate, List.append_nil, Relay.nextName]
  cases r.reader with
  | none => simp
  | some reader =>
    cases reader with
    | standard destAddr destPort bytes => simp [UdpReader.lookups]
    | multiplexed bytes payloadBuf =>
      simp only [UdpReader.lookups]
      cases nextTarget ipv4Only bytes with
      | none => simp
      | some target =>
        cases target with
        | ip addr port => simp
        | domain name port =>
          simp only [named]
          split_ifs <;> simp [ResolveRequest.Private]
    | packetAddr s =>
      simp only [UdpReader.lookups, hproxy, Option.isSome_some, if_true]
      cases s.nextDest <;> simp

/-- **A step of a handler behind a proxy** keeps its lookups private exactly if no multiplexed frame names a host. -/
theorem Relay.lookups_nameless_iff {r : Relay} (hproxy : r.proxy = some proxy) (e : RelayEvent) :
    (∀ req ∈ r.lookups ipv4Only e, req.Private proxy) ↔ r.nextName ipv4Only e = none := by
  unfold Relay.lookups
  split
  · exact iff_of_true (fun req hreq => private_of_mem_handlerLookups hproxy hreq) rfl
  · exact turnLookups_private_iff hproxy _
  · next hstart hturn =>
    refine iff_of_true (fun req hreq => absurd hreq List.not_mem_nil) ?_
    unfold Relay.nextName
    split
    · next r' t => exact (hturn r' t rfl rfl).elim
    · rfl

end

/-! ## The two routes of the resolver -/

/-- The cache and the single flight of a route are others. -/
def Resolver.setRoute (R : Resolver) (route : SelectedRoute) (entries : DnsEntries)
    (flight : Coalesce.State String SingleFlight.Answer) : Resolver :=
  { R with
    cache := Function.update R.cache route entries
    flight := Function.update R.flight route flight }

/-- The route of the call that a step belongs to. -/
def Resolver.routeOf (R : Resolver) : ResolverAct → Option SelectedRoute
  | .call req _ => some req.route
  | .observe i | .lookup i _ | .remove i | .publish i | .conclude i _ _ => R.calls[i]?.map (·.req.route)

section

variable {X : Crates} {R : Resolver} {route : SelectedRoute} {entries : DnsEntries}
  {flight : Coalesce.State String SingleFlight.Answer}

theorem Resolver.fly_setRoute {i : ℕ} {act : ResolveRequest → ℕ → Coalesce.Action String SingleFlight.Answer}
    (h : R.calls[i]?.map (·.req.route) ≠ some route) :
    (R.setRoute route entries flight).fly i act = (R.fly i act).map (·.setRoute route entries flight) := by
  have hcalls : (R.setRoute route entries flight).calls = R.calls := rfl
  unfold Resolver.fly
  rw [hcalls]
  split
  · next req k hi =>
    have hne : req.route ≠ route := fun hroute => h (by rw [hi, Option.map_some, hroute])
    simp only [Resolver.setRoute, Function.update_of_ne hne, Option.map_map]
    refine congrArg (fun g => Option.map g (Coalesce.step (R.flight req.route) (act req k))) (funext fun f => ?_)
    simp only [Function.comp, Function.update_comm hne]
  · rfl

/-- **A call neither sees nor changes the cache and the single flight of the other route.** -/
theorem resolverStep_setRoute {a : ResolverAct} (h : R.routeOf a ≠ some route) :
    resolverStep X (R.setRoute route entries flight) a =
      (resolverStep X R a).map (·.setRoute route entries flight) := by
  have hcalls : (R.setRoute route entries flight).calls = R.calls := rfl
  cases a with
  | call req now =>
    have hne : req.route ≠ route := fun hroute => h (congrArg some hroute)
    simp only [resolverStep]
    split
    · rfl
    · have hcache : (R.setRoute route entries flight).cache req.route = R.cache req.route :=
        Function.update_of_ne hne _ _
      simp only [hcache, Option.map_some]
      rcases dnsGet X (R.cache req.route) now req.hostname req.port with ⟨_ | res, found⟩
      · simp only [Resolver.start, Resolver.setRoute, Function.update_of_ne hne, Function.update_comm hne]
      · simp only [Resolver.start, Resolver.setRoute, Function.update_comm hne]
  | observe i => exact Resolver.fly_setRoute h
  | lookup i N =>
    simp only [resolverStep, hcalls]
    split
    · rw [Resolver.fly_setRoute h, Option.map_map, Option.map_map]
      rfl
    · rfl
  | remove i => exact Resolver.fly_setRoute h
  | publish i => exact Resolver.fly_setRoute h
  | conclude i now n =>
    simp only [resolverStep, hcalls]
    split
    · next req k hi =>
      have hne : req.route ≠ route := fun hroute => h (by simp only [Resolver.routeOf, hi, Option.map_some, hroute])
      have hflight : (R.setRoute route entries flight).flight req.route = R.flight req.route :=
        Function.update_of_ne hne _ _
      have hcache : (R.setRoute route entries flight).cache req.route = R.cache req.route :=
        Function.update_of_ne hne _ _
      rw [hflight, hcache]
      split
      · simp only [Option.map_some, Resolver.setRoute, Function.update_comm hne]
      · rfl
    · rfl

/-- **A private lookup asks the servers behind the proxy**, and nothing else. -/
theorem lookupIpv4_private {proxy : String} {req : ResolveRequest} (h : req.Private proxy) (N : LookupAnswers) :
    (∀ net, lookupIpv4 { N with net := net } req = lookupIpv4 N req) ∧
    ∀ found, lookupIpv4 N req = .ok found → ∃ dns, N.dnsOverTcp req.hostname dns proxy = .ok found := by
  obtain ⟨hroute, hproxy⟩ := h
  constructor
  · intro net
    have hask : ∀ (servers : List String) (lastErr : Option String),
        askServers { N with net := net } req.hostname proxy lastErr servers =
          askServers N req.hostname proxy lastErr servers := by
      intro servers
      induction servers with
      | nil => exact fun lastErr => rfl
      | cons dns servers ih => exact fun lastErr => by simp only [askServers, ih]
    simp only [lookupIpv4, hroute, hproxy, hask]
  · intro found hfound
    simp only [lookupIpv4, hroute, hproxy] at hfound
    split_ifs at hfound
    exact askServers_ok hfound

/-- **What a call on the WARP route gets was answered behind a proxy**, for its host up to letter case. -/
theorem warpCall_private {as : List ResolverAct} (h : Run.exec (resolverStep X) .init as = some R) {c : ResolveCall}
    (hc : c ∈ R.calls) (hroute : c.req.route = .warp) {addrs : List SocketAddrV4}
    (haddrs : c.phase = .returned (.ok addrs)) : resolveLiteral c.req = some (.ok addrs) ∨
      ∃ p ∈ R.lookups, ∃ proxy, p.1.Private proxy ∧ X.toLowercase p.1.hostname = X.toLowercase c.req.hostname ∧
        ∃ dns ips ttl, p.2.dnsOverTcp p.1.hostname dns proxy = .ok (ips, ttl) ∧ addrs = withPort c.req.port ips := by
  have hhonest : R.Honest X := Run.exec_invariant (fun _ _ _ hI => hI.step) Resolver.init_honest h
  obtain ⟨i, hi⟩ := List.getElem?_of_mem hc
  obtain ⟨req, phase⟩ := c
  dsimp only at haddrs hroute
  subst haddrs
  rcases hhonest.answers i req addrs hi with hliteral | ⟨ips, ⟨p, hp, hproute, hhost, ttl, hlookup⟩, rfl⟩
  · exact .inl hliteral
  · refine .inr ⟨p, hp, ?_⟩
    cases hproxy : p.1.outboundProxy with
    | none => simp [lookupIpv4, hproute, hroute, hproxy] at hlookup
    | some proxy =>
      have hprivate : p.1.Private proxy := ⟨hproute.trans hroute, hproxy⟩
      obtain ⟨dns, hdns⟩ := (lookupIpv4_private hprivate p.2).2 _ hlookup
      exact ⟨proxy, hprivate, hhost, dns, ips, ttl, hdns, rfl⟩

end

/-! ## Runs -/

namespace Server

/-- A step of a handler behind a proxy looks up names by DNS over that proxy only. -/
def EventPrivate (v : Server) (i : ℕ) (e : RelayEvent) : Prop :=
  ∀ relay ∈ v.relayOf i, ∀ proxy ∈ relay.proxy,
    ∀ req ∈ relay.lookups v.engine.config.network.ipv4Only e, req.Private proxy

/-- Behind a proxy it reads no multiplexed frame that names a host. -/
def EventNameless (v : Server) (i : ℕ) (e : RelayEvent) : Prop :=
  ∀ relay ∈ v.relayOf i, relay.proxy.isSome → relay.nextName v.engine.config.network.ipv4Only e = none

/-- Every step of a handler in a poll satisfies a property. -/
def PollMeets (X : Crates) (C : ℕ → Server → RelayEvent → Prop) (v : Server) : NetworkAct → Prop
  | .server (.poll i shutdownFirst events) => ∀ connId ∈ v.idOf i,
    ¬ (v.engine.signalled connId ∧ shutdownFirst) → Run.Meets (handlerStep X i) (C i) v events
  | _ => True

/-- No name of a destination behind a proxy is looked up but by DNS over the proxy. -/
def LookupsPrivate (X : Crates) : Server → NetworkAct → Prop := PollMeets X fun i v e => v.EventPrivate i e

/-- No multiplexed frame that is read behind a proxy names a host. -/
def Nameless (X : Crates) : Server → NetworkAct → Prop := PollMeets X fun i v e => v.EventNameless i e

theorem eventPrivate_iff (v : Server) (i : ℕ) (e : RelayEvent) : v.EventPrivate i e ↔ v.EventNameless i e := by
  refine forall₂_congr fun relay _ => ?_
  cases hproxy : relay.proxy with
  | none => simp
  | some proxy => simpa using Relay.lookups_nameless_iff hproxy e

theorem lookupsPrivate_iff (X : Crates) (v : Server) (a : NetworkAct) : v.LookupsPrivate X a ↔ v.Nameless X a := by
  unfold LookupsPrivate Nameless PollMeets
  split
  · next i first events =>
    refine forall₂_congr fun connId _ => imp_congr_right fun _ => ?_
    exact Run.meets_iff_of_invariant (I := fun _ => True) (fun _ _ _ _ _ => trivial)
      (fun w e _ _ _ => w.eventPrivate_iff i e) trivial events
  · rfl

end Server

/-- **Names of destinations behind a proxy.** In every run of a server, in IPv4-only mode or not, they are looked up
by DNS over the proxy only, if and only if no multiplexed frame that is read behind a proxy names a host. A lookup on
the WARP route asks nobody else; a call on either route neither sees nor changes what is cached or in flight on the
other; and what a call on the WARP route gets was answered over a proxy. -/
theorem lookups_private_iff (X : Crates) (g : Draws) (config : Config) :
    (∀ as, Run.Meets (networkStep X) (Server.LookupsPrivate X) (.fresh X g config) as ↔
      Run.Meets (networkStep X) (Server.Nameless X) (.fresh X g config) as) ∧
    (∀ proxy (req : ResolveRequest), req.Private proxy → ∀ N : LookupAnswers,
      (∀ net, lookupIpv4 { N with net := net } req = lookupIpv4 N req) ∧
        ∀ found, lookupIpv4 N req = .ok found → ∃ dns, N.dnsOverTcp req.hostname dns proxy = .ok found) ∧
    (∀ (R : Resolver) route entries flight a, R.routeOf a ≠ some route →
      resolverStep X (R.setRoute route entries flight) a =
        (resolverStep X R a).map (·.setRoute route entries flight)) ∧
    ∀ as R, Run.exec (resolverStep X) .init as = some R → ∀ c ∈ R.calls, c.req.route = .warp →
      ∀ addrs, c.phase = .returned (.ok addrs) → resolveLiteral c.req = some (.ok addrs) ∨
        ∃ p ∈ R.lookups, ∃ proxy, p.1.Private proxy ∧ X.toLowercase p.1.hostname = X.toLowercase c.req.hostname ∧
          ∃ dns ips ttl, p.2.dnsOverTcp p.1.hostname dns proxy = .ok (ips, ttl) ∧
            addrs = withPort c.req.port ips := by
  refine ⟨fun as => ?_, fun proxy req h N => lookupIpv4_private h N,
    fun R route entries flight a h => resolverStep_setRoute h,
    fun as R h c hc hroute addrs haddrs => warpCall_private h hc hroute haddrs⟩
  exact Run.meets_iff_of_invariant (I := fun _ => True) (fun _ _ _ _ _ => trivial)
    (fun v a _ _ _ => v.lookupsPrivate_iff X a) trivial as

/-! ## A name in a multiplexed frame -/

/-- The built-in configuration with one outbound for everything, which has a proxy. -/
def proxiedConfig : Config :=
  { builtInConfig with
    outbounds := [⟨"relay", "socks", none, some "127.0.0.1:1080", none⟩]
    routing := ⟨[⟨none, none, none, none, "relay"⟩]⟩ }

/-- A client of that server sends a datagram to a name. -/
def toName : InboundRequest :=
  ⟨⟨"0.0.0.0", 0⟩, 2, "vless-inbound", "192.0.2.1:50000", none, Vector.replicate 16 9,
    [.data (upstreamFrame ⟨1, .domain "example.com" 53, [7]⟩)]⟩

def nameRun : List NetworkAct :=
  [.server .accept, .server (.authenticate 0 testUserUuid 0), .server (.request 0 toName),
    .server (.poll 0 false [.connect ⟨networkWith (.v4 (.new 1 1 1 1)), false, .ok (), .ok [0, 0], [], 0⟩])]

/-- The next turn of its handler. -/
def nameTurn : RelayEvent := .turn ⟨networkWith (.v4 (.new 1 1 1 1)), true, fun _ => false⟩

/-- **A name in a multiplexed frame is looked up by the system** although the datagram goes to a proxy. -/
theorem multiplexed_name_leaks : ∃ v relay,
    Run.exec (networkStep Sample.crates) (.fresh Sample.crates ipv4Draws proxiedConfig) nameRun = some v ∧
      v.relayOf 0 = some relay ∧ v.engine.config.network.ipv4Only = true ∧ relay.proxy = some "127.0.0.1:1080" ∧
        relay.lookups v.engine.config.network.ipv4Only nameTurn = [⟨"example.com", 53, .direct, true, none⟩] ∧
          ¬ v.EventPrivate 0 nameTurn := by
  have hrun : ∃ v relay,
      Run.exec (networkStep Sample.crates) (.fresh Sample.crates ipv4Draws proxiedConfig) nameRun = some v ∧
        v.relayOf 0 = some relay ∧ v.engine.config.network.ipv4Only = true ∧ relay.proxy = some "127.0.0.1:1080" ∧
          relay.lookups true nameTurn = [⟨"example.com", 53, .direct, true, none⟩] :=
    ⟨(Run.exec (networkStep Sample.crates) (.fresh Sample.crates ipv4Draws proxiedConfig) nameRun).get (by decide),
      (Server.relayOf ((Run.exec (networkStep Sample.crates) (.fresh Sample.crates ipv4Draws proxiedConfig)
        nameRun).get (by decide)) 0).get (by decide),
      (Option.some_get _).symm, (Option.some_get _).symm, by decide, by decide, by decide⟩
  obtain ⟨v, relay, hv, hrelay, hmode, hproxy, hlookups⟩ := hrun
  refine ⟨v, relay, hv, hrelay, hmode, hproxy, by rw [hmode]; exact hlookups, fun h => ?_⟩
  obtain ⟨hroute, -⟩ := h relay hrelay _ hproxy ⟨"example.com", 53, .direct, true, none⟩ (by simp [hmode, hlookups])
  cases hroute

end RXCore
