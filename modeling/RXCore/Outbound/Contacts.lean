import RXCore.Outbound.Relay

/-!
# The addresses that an outbound contacts

Every address that a handler connects to or sends a datagram to, attempts that fail included, next to
the functions that make the connections.

* `Answers.textTried`, `dialTcpTried`, `associateTried`: the addresses that a connection tries;
  `connectText_tried`, `dialTcp_tried`, `associateDial_tried`: the one that it is made to is among them;
* `Relay.contacts`: the addresses of a step of a handler;
* `Relay.Filtered`: the operating system, where it resolves a name by itself, tries IPv4 addresses only;
* **`Relay.contacts_allIpv4_iff`**: in IPv4-only mode all addresses are IPv4 exactly when that holds.
-/

set_option autoImplicit false

namespace RXCore

open Encoding Tables

/-! ## Connections -/

/-- The candidates that are tried in turn, up to the first that is accepted. -/
def tried {α : Type} (accepts : α → Bool) : List α → List α
  | [] => []
  | a :: as => if accepts a then [a] else a :: tried accepts as

theorem tried_cons_of_pos {α : Type} {accepts : α → Bool} {a : α} (as : List α) (h : accepts a = true) :
    tried accepts (a :: as) = [a] := by
  rw [tried, if_pos h]

theorem tried_cons_of_neg {α : Type} {accepts : α → Bool} {a : α} (as : List α) (h : accepts a = false) :
    tried accepts (a :: as) = a :: tried accepts as := by
  rw [tried, if_neg (by simp [h])]

/-- The candidate that is accepted is the last one tried. -/
theorem mem_tried_of_find? {α : Type} {accepts : α → Bool} {as : List α} {a : α}
    (h : as.find? accepts = some a) : a ∈ tried accepts as := by
  induction as with
  | nil => cases h
  | cons b as ih =>
    rw [tried]
    by_cases hb : accepts b = true
    · rw [List.find?_cons_of_pos hb] at h
      obtain rfl := Option.some.inj h
      simp [hb]
    · rw [List.find?_cons_of_neg hb] at h
      simp [hb, ih h]

/-- `SocketAddr::V4`. -/
def SocketAddrV4.toSocketAddr (a : SocketAddrV4) : SocketAddr := ⟨.v4 a.1, a.2⟩

namespace Answers

variable (A : Answers)

/-- The addresses that `TcpStream::connect` tries. -/
def textTried (text : String) : List SocketAddr :=
  match A.toSocketAddrs text with
  | .ok addrs => tried (fun a => (A.accepts a).toOption.isSome) addrs
  | .error _ => []

/-- The addresses of one round of connections, or of all for a destination without a proxy. -/
def roundTried (n : ℕ) (bindIp : Option String) (addrs : List SocketAddrV4) : List SocketAddrV4 :=
  tried (fun a => (A.connect n a bindIp).toOption.isSome) addrs

end Answers

theorem connectAny_tried {A : Answers} {lastErr : Option String} {addrs : List SocketAddr} {a : SocketAddr}
    (h : connectAny A lastErr addrs = .ok a) : a ∈ tried (fun a => (A.accepts a).toOption.isSome) addrs := by
  induction addrs generalizing lastErr with
  | nil => cases h
  | cons b addrs ih =>
    rw [connectAny] at h
    cases hb : A.accepts b with
    | ok u =>
      rw [hb] at h
      obtain rfl := Except.ok.inj h
      rw [tried_cons_of_pos addrs (by simp [hb, Except.toOption])]
      exact List.mem_singleton_self b
    | error e =>
      rw [hb] at h
      rw [tried_cons_of_neg addrs (by simp [hb, Except.toOption])]
      exact List.mem_cons_of_mem _ (ih h)

/-- **`TcpStream::connect` connects to an address that it tries.** -/
theorem connectText_tried {A : Answers} {text : String} {a : SocketAddr} (h : A.connectText text = .ok a) :
    a ∈ A.textTried text := by
  simp only [Answers.connectText, bind_ok] at h
  obtain ⟨addrs, haddrs, h⟩ := h
  rw [Answers.textTried, haddrs]
  exact connectAny_tried h

/-! ## `dial_tcp` -/

/-- The addresses of a proxy that the rounds of `dial_tcp` try. -/
def dialSocksTried (A : Answers) (proxyAddrs : List SocketAddrV4) (bindIp : Option String) :
    ℕ → List Ipv4Addr → List SocketAddrV4
  | _, [] => []
  | n, _ :: ips =>
    if A.deadline n then []
    else A.roundTried n bindIp proxyAddrs ++
      if (connectFirst A n bindIp proxyAddrs).isSome ∧ (A.socksConnect n).toOption.isSome then []
      else dialSocksTried A proxyAddrs bindIp (n + 1) ips

/-- The addresses of a proxy that the attempts by name try. -/
def dialSocksByNameTried (A : Answers) (bindIp : Option String) (attempts : List (ℕ × SocketAddrV4)) :
    List SocketAddrV4 :=
  (tried (fun e => (A.connect e.1 e.2 bindIp).toOption.isSome) attempts).map (·.2)

/-- The addresses of a destination that `dial_tcp` tries. -/
def dialDirectTried (A : Answers) (ipv4Only : Bool) (bindIp : Option String) (addrs : List SocketAddrV4) :
    List SocketAddrV4 :=
  if ipv4Only ∧ ((bindIp.bind parseIpAddr).map (·.isIpv6)) = some true then []
  else A.roundTried 0 bindIp addrs

/-- The connections to the name servers of WARP, through the proxy, for a name that is not in the cache. -/
def warpDnsTried (A : Answers) (proxyAddrs : List SocketAddrV4) : List SocketAddrV4 :=
  [Ipv4Addr.new 1 1 1 1, Ipv4Addr.new 8 8 8 8].flatMap fun dns => dialSocksTried A proxyAddrs none 0 [dns]

/-- The addresses that `dial_tcp` tries once it has those of the proxy. -/
def dialProxyTried (A : Answers) (ipv4Only : Bool) (destHost : String) (destPort : UInt16)
    (bindIp : Option String) (proxyAddrs : List SocketAddrV4) : List SocketAddrV4 :=
  (if (parseIpAddr destHost).isNone ∧ ipv4Only then warpDnsTried A proxyAddrs else []) ++
    match destIpsForProxy A ipv4Only destHost destPort with
    | .error _ => []
    | .ok ips =>
      if ips = [] then
        dialSocksByNameTried A bindIp ([1, 2, 3].flatMap fun n => proxyAddrs.map fun a => (n, a))
      else dialSocksTried A proxyAddrs bindIp 0 ips

/-- The addresses that `dial_tcp` tries. -/
def dialTcpTried (A : Answers) (ipv4Only : Bool) (destHost : String) (destPort : UInt16)
    (bindIp outboundProxy : Option String) : List SocketAddrV4 :=
  match outboundProxy with
  | some proxyAddr => match parseEndpoint proxyAddr 1080 with
    | .error _ => []
    | .ok (proxyHost, proxyPort) => match A.resolve proxyHost proxyPort .direct with
      | .error _ => []
      | .ok proxyAddrs => dialProxyTried A ipv4Only destHost destPort bindIp proxyAddrs
  | none => match destAddrs A ipv4Only destHost destPort with
    | .error _ => []
    | .ok addrs => dialDirectTried A ipv4Only bindIp addrs

/-- The address at the other end. -/
def TcpPeer.addr : TcpPeer → SocketAddr
  | direct addr => addr
  | socks _ addr => addr.toSocketAddr

theorem dialSocks_tried {A : Answers} {proxy : String} {addrs : List SocketAddrV4} {bindIp : Option String}
    {n : ℕ} {lastErr : Option String} {ips : List Ipv4Addr} {peer : TcpPeer}
    (h : dialSocks A proxy addrs bindIp n lastErr ips = .ok peer) :
    ∃ a ∈ dialSocksTried A addrs bindIp n ips, peer.addr = a.toSocketAddr := by
  induction ips generalizing n lastErr with
  | nil => cases h
  | cons ip ips ih =>
    rw [dialSocks] at h
    rw [dialSocksTried]
    split_ifs at h ⊢ with hd hdone
    · cases hfirst : connectFirst A n bindIp addrs with
      | none => simp [hfirst] at hdone
      | some a =>
        cases hsocks : A.socksConnect n with
        | error e => simp [hsocks, Except.toOption] at hdone
        | ok u =>
          simp only [hfirst, hsocks] at h
          obtain rfl := Except.ok.inj h
          exact ⟨a, List.mem_append_left _ (mem_tried_of_find? hfirst), rfl⟩
    · obtain ⟨lastErr', h⟩ : ∃ lastErr', dialSocks A proxy addrs bindIp (n + 1) lastErr' ips = .ok peer := by
        cases hfirst : connectFirst A n bindIp addrs with
        | none =>
          simp only [hfirst] at h
          exact ⟨_, h⟩
        | some a =>
          cases hsocks : A.socksConnect n with
          | error e =>
            simp only [hfirst, hsocks] at h
            exact ⟨_, h⟩
          | ok u => simp [hfirst, hsocks, Except.toOption] at hdone
      obtain ⟨a, ha, hpeer⟩ := ih h
      exact ⟨a, List.mem_append_right _ ha, hpeer⟩

theorem dialSocksByName_tried {A : Answers} {proxy : String} {bindIp lastErr : Option String}
    {attempts : List (ℕ × SocketAddrV4)} {peer : TcpPeer}
    (h : dialSocksByName A proxy bindIp lastErr attempts = .ok peer) :
    ∃ a ∈ dialSocksByNameTried A bindIp attempts, peer.addr = a.toSocketAddr := by
  induction attempts generalizing lastErr with
  | nil => cases h
  | cons attempt rest ih =>
    obtain ⟨n, addr⟩ := attempt
    rw [dialSocksByName] at h
    cases hc : A.connect n addr bindIp with
    | error e =>
      simp only [hc] at h
      obtain ⟨a, ha, hpeer⟩ := ih h
      refine ⟨a, ?_, hpeer⟩
      rw [dialSocksByNameTried, tried_cons_of_neg rest (by simp [hc, Except.toOption])]
      exact List.mem_cons_of_mem _ ha
    | ok u =>
      simp only [hc] at h
      cases hs : A.socksConnect 0 with
      | error e =>
        rw [hs] at h
        cases h
      | ok u =>
        rw [hs] at h
        obtain rfl := Except.ok.inj h
        exact ⟨addr, by simp [dialSocksByNameTried, tried, hc, Except.toOption], rfl⟩

theorem dialDirect_tried {A : Answers} {ipv4Only : Bool} {bindIp lastErr : Option String}
    {addrs : List SocketAddrV4} {peer : TcpPeer} (h : dialDirect A ipv4Only bindIp lastErr addrs = .ok peer) :
    ∃ a ∈ dialDirectTried A ipv4Only bindIp addrs, peer.addr = a.toSocketAddr := by
  induction addrs generalizing lastErr with
  | nil => cases h
  | cons addr addrs ih =>
    rw [dialDirect] at h
    split_ifs at h with hbind
    · obtain ⟨a, ha, -⟩ := ih h
      simp [dialDirectTried, hbind] at ha
    · cases hc : A.connect 0 addr bindIp with
      | error e =>
        simp only [hc] at h
        obtain ⟨a, ha, hpeer⟩ := ih h
        refine ⟨a, ?_, hpeer⟩
        rw [dialDirectTried, if_neg hbind, Answers.roundTried] at ha ⊢
        rw [tried_cons_of_neg addrs (by simp [hc, Except.toOption])]
        exact List.mem_cons_of_mem _ ha
      | ok u =>
        simp only [hc] at h
        obtain rfl := Except.ok.inj h
        refine ⟨addr, ?_, rfl⟩
        rw [dialDirectTried, if_neg hbind, Answers.roundTried,
          tried_cons_of_pos addrs (by simp [hc, Except.toOption])]
        exact List.mem_singleton_self addr

/-- **`dial_tcp` connects to an address that it tries.** -/
theorem dialTcp_tried {A : Answers} {ipv4Only : Bool} {destHost : String} {destPort : UInt16}
    {bindIp outboundProxy : Option String} {peer : TcpPeer}
    (h : dialTcp A ipv4Only destHost destPort bindIp outboundProxy = .ok peer) :
    ∃ a ∈ dialTcpTried A ipv4Only destHost destPort bindIp outboundProxy, peer.addr = a.toSocketAddr := by
  cases outboundProxy with
  | some proxyAddr =>
    simp only [dialTcp, bind_ok] at h
    obtain ⟨⟨proxyHost, proxyPort⟩, hp, proxyAddrs, hr, ips, hips, h⟩ := h
    simp only [dialTcpTried, hp, hr, dialProxyTried, hips]
    by_cases hnil : ips = []
    · rw [if_pos hnil] at h ⊢
      obtain ⟨a, ha, hpeer⟩ := dialSocksByName_tried h
      exact ⟨a, List.mem_append_right _ ha, hpeer⟩
    · rw [if_neg hnil] at h ⊢
      obtain ⟨a, ha, hpeer⟩ := dialSocks_tried h
      exact ⟨a, List.mem_append_right _ ha, hpeer⟩
  | none =>
    simp only [dialTcp, bind_ok] at h
    obtain ⟨addrs, haddrs, h⟩ := h
    simp only [dialTcpTried, haddrs]
    exact dialDirect_tried h

/-! ## UDP sockets -/

/-- The addresses that the loop of `dial_tcp_with_bind` tries. -/
def dialBoundTried (A : Answers) (bindIp : String) : ℕ → List SocketAddrV4 → List SocketAddrV4
  | _, [] => []
  | n, addr :: addrs =>
    if A.deadline n then []
    else addr :: if (A.connect n addr (some bindIp)).toOption.isSome then []
      else dialBoundTried A bindIp (n + 1) addrs

/-- The addresses that `dial_tcp_with_bind` tries in IPv4-only mode. -/
def bindTried (A : Answers) (targetAddr bindIp : String) : List SocketAddrV4 :=
  match parseEndpoint targetAddr 80 with
  | .error _ => []
  | .ok (host, port) => match A.resolve host port .direct with
    | .error _ => []
    | .ok resolved => dialBoundTried A bindIp 0 resolved

/-- The addresses that `dial_tcp_with_bind` tries. -/
def dialTcpWithBindTried (A : Answers) (ipv4Only : Bool) (targetAddr bindIp : String) : List SocketAddr :=
  match parseIpAddr bindIp with
  | none => []
  | some bind =>
    if ipv4Only then
      if bind.isIpv6 then [] else (bindTried A targetAddr bindIp).map SocketAddrV4.toSocketAddr
    else match A.toSocketAddrs targetAddr with
      | .error _ => []
      | .ok addrs => tried (fun a => (A.accepts a).toOption.isSome)
          (addrs.filter (·.ip.isIpv6) ++ addrs.filter (·.ip.isIpv4))

/-- The addresses of a proxy that `socks5_udp_associate` tries. -/
def associateTried (A : Answers) (ipv4Only : Bool) (proxyAddr : String) (bindIp : Option String) :
    List SocketAddr :=
  match bindIp with
  | some ip => dialTcpWithBindTried A ipv4Only (associateEndpoint proxyAddr) ip
  | none => A.textTried (associateEndpoint proxyAddr)

/-- The addresses that `create_outbound_udp` connects to. -/
def UdpOutbound.createTried (u : UdpOutbound) (A : Answers) (ipv4Only : Bool) : List SocketAddr :=
  match u.outboundProxy with
  | some proxy => associateTried A ipv4Only proxy u.bindAddress
  | none => []

theorem dialBound_tried {A : Answers} {bindIp : String} {n : ℕ} {lastErr : Option String}
    {addrs : List SocketAddrV4} {a : SocketAddr} (h : dialBound A bindIp n lastErr addrs = .ok a) :
    ∃ b ∈ dialBoundTried A bindIp n addrs, a = b.toSocketAddr := by
  induction addrs generalizing n lastErr with
  | nil => cases h
  | cons addr addrs ih =>
    rw [dialBound] at h
    rw [dialBoundTried]
    by_cases hd : A.deadline n = true
    · rw [if_pos hd] at h
      cases h
    · rw [if_neg hd] at h ⊢
      cases hc : A.connect n addr (some bindIp) with
      | ok u =>
        simp only [hc] at h
        exact ⟨addr, List.mem_cons_self, (Except.ok.inj h).symm⟩
      | error e =>
        simp only [hc] at h
        obtain ⟨b, hb, ha⟩ := ih h
        exact ⟨b, by simp [Except.toOption, hb], ha⟩

/-- **`socks5_udp_associate` connects to an address that it tries.** -/
theorem associateDial_tried {A : Answers} {ipv4Only : Bool} {proxyAddr : String} {bindIp : Option String}
    {a : SocketAddr} (h : associateDial A ipv4Only proxyAddr bindIp = .ok a) :
    a ∈ associateTried A ipv4Only proxyAddr bindIp := by
  cases bindIp with
  | none => exact connectText_tried h
  | some ip =>
    simp only [associateDial, dialTcpWithBind] at h
    simp only [associateTried, dialTcpWithBindTried]
    cases hbind : parseIpAddr ip with
    | none => simp [hbind] at h
    | some bind =>
      simp only [hbind] at h ⊢
      split_ifs at h ⊢ with hmode hv6
      · obtain ⟨⟨host, port⟩, hp, h⟩ := bind_ok.mp h
        obtain ⟨resolved, hr, h⟩ := bind_ok.mp h
        obtain ⟨b, hb, rfl⟩ := dialBound_tried h
        simp only [bindTried, hp, hr]
        exact List.mem_map_of_mem hb
      · obtain ⟨addrs, haddrs, h⟩ := bind_ok.mp h
        rw [haddrs]
        exact connectAny_tried h

/-! ## Handlers -/

/-- The addresses that a UDP handler contacts before its loop. -/
def UdpOutbound.startContacts (u : UdpOutbound) (A : Answers) (ipv4Only : Bool) (t : Target) :
    List SocketAddr :=
  if t.destAddr = "sp.packet-addr.v2fly.arpa" ∨ (t.destAddr = "0.0.0.0" ∧ t.destPort = 0) then []
  else u.createTried A ipv4Only ++
    match createOutboundUdp A ipv4Only t.destAddr t.destPort u.outboundProxy u.bindAddress with
    | .ok peer => [peer.sendTarget]
    | .error _ => []

/-- The addresses that a handler contacts before its loops. -/
def Handler.contacts (A : Answers) (ipv4Only : Bool) (t : Target) : Handler → List SocketAddr
  | freedom outboundProxy bindAddress =>
    (dialTcpTried A ipv4Only t.destAddr t.destPort bindAddress outboundProxy).map SocketAddrV4.toSocketAddr
  | fragment _ => A.textTried (hostPort t.destAddr t.destPort)
  | vless config _ outboundProxy bindAddress =>
    (dialTcpTried A ipv4Only config.server config.port bindAddress outboundProxy).map
      SocketAddrV4.toSocketAddr
  | udp outbound => outbound.startContacts A ipv4Only t
  | blackhole => []

/-- The frame that one turn of an upload loop reads. -/
def UdpRelay.frame (r : UdpRelay) (A : Answers) (ipv4Only : Bool) : Option Frame :=
  (r.reader.bind fun reader => reader.next r.outbound A ipv4Only).bind (·.2)

/-- The addresses that one turn of an upload loop contacts: those of a new session, and that of the
datagram. -/
def UdpRelay.turnContacts (r : UdpRelay) (ipv4Only : Bool) (t : UdpTurn) : List SocketAddr :=
  match r.frame t.answers ipv4Only with
  | none => []
  | some f =>
    (if (r.sessions.lookup f.key).isNone then r.outbound.createTried t.answers ipv4Only else []) ++
      match r.session t.answers ipv4Only f with
      | some (peer, _) => [(r.outbound.datagram peer f).target]
      | none => []

/-- The addresses that a step of a handler contacts. -/
def Relay.contacts (ipv4Only : Bool) : Relay → RelayEvent → List SocketAddr
  | .starting h t _ _, .connect c => h.contacts c.answers ipv4Only t
  | .udp r, .turn t => r.turnContacts ipv4Only t
  | _, _ => []

/-! ## IPv4-only mode -/

/-- All addresses are IPv4. -/
def AllIpv4 (addrs : List SocketAddr) : Prop := ∀ a ∈ addrs, a.ip.isIpv4 = true

instance (addrs : List SocketAddr) : Decidable (AllIpv4 addrs) :=
  inferInstanceAs (Decidable (∀ a ∈ addrs, a.ip.isIpv4 = true))

/-- The operating system tries IPv4 addresses only for the proxy, where it resolves it by itself. -/
def UdpOutbound.Filtered (u : UdpOutbound) (A : Answers) : Prop :=
  match u.outboundProxy, u.bindAddress with
  | some proxy, none => AllIpv4 (A.textTried (associateEndpoint proxy))
  | _, _ => True

/-- The operating system tries IPv4 addresses only for a destination that is fragmented, or for the proxy
of a UDP handler. -/
def Handler.Filtered (A : Answers) (t : Target) : Handler → Prop
  | fragment _ => AllIpv4 (A.textTried (hostPort t.destAddr t.destPort))
  | udp outbound => t.destAddr ≠ "sp.packet-addr.v2fly.arpa" → ¬ (t.destAddr = "0.0.0.0" ∧ t.destPort = 0) →
    outbound.Filtered A
  | _ => True

/-- The same for a step of a handler. -/
def Relay.Filtered : Relay → RelayEvent → Prop
  | .starting h t _ _, .connect c => h.Filtered c.answers t
  | .udp r, .turn t => ∀ f ∈ r.frame t.answers true, r.sessions.lookup f.key = none →
    r.outbound.Filtered t.answers
  | _, _ => True

/-- The sessions of a relay send to IPv4 addresses. -/
def UdpRelay.SendsIpv4 (r : UdpRelay) : Prop :=
  ∀ k s, r.sessions.lookup k = some s → s.peer.sendTarget.ip.isIpv4 = true

def Relay.SendsIpv4 : Relay → Prop
  | .udp r => r.SendsIpv4
  | _ => True

@[simp] theorem allIpv4_nil : AllIpv4 [] := fun _ h => absurd h List.not_mem_nil

@[simp] theorem allIpv4_append {as bs : List SocketAddr} :
    AllIpv4 (as ++ bs) ↔ AllIpv4 as ∧ AllIpv4 bs := by
  simp only [AllIpv4, List.mem_append, or_imp, forall_and]

@[simp] theorem allIpv4_singleton {a : SocketAddr} : AllIpv4 [a] ↔ a.ip.isIpv4 = true := by
  simp [AllIpv4]

@[simp] theorem allIpv4_map (addrs : List SocketAddrV4) :
    AllIpv4 (addrs.map SocketAddrV4.toSocketAddr) := by
  intro a ha
  obtain ⟨b, -, rfl⟩ := List.mem_map.mp ha
  rfl

section

variable {A : Answers} {r r' : UdpRelay}

theorem UdpOutbound.createTried_iff (u : UdpOutbound) (A : Answers) :
    AllIpv4 (u.createTried A true) ↔ u.Filtered A := by
  unfold createTried Filtered
  cases u.outboundProxy with
  | none => simp
  | some proxy =>
    cases u.bindAddress with
    | none => rfl
    | some ip =>
      simp only [associateTried, dialTcpWithBindTried, if_true, iff_true]
      cases parseIpAddr ip with
      | none => simp
      | some bind =>
        dsimp only
        split_ifs <;> simp

/-- **A UDP socket sends to an IPv4 address.** -/
theorem createOutboundUdp_isIpv4 {destHost : String} {destPort : UInt16}
    {outboundProxy bindIp : Option String} {peer : UdpPeer}
    (h : createOutboundUdp A true destHost destPort outboundProxy bindIp = .ok peer) :
    peer.sendTarget.ip.isIpv4 = true := by
  cases outboundProxy with
  | some proxy =>
    simp only [createOutboundUdp, bind_ok] at h
    obtain ⟨addr, -, _, hv6, -, -, h⟩ := h
    obtain rfl := Except.ok.inj h
    simpa [IpAddr.isIpv6] using refuseIf_ok.mp hv6
  | none =>
    simp only [createOutboundUdp, bind_ok] at h
    obtain ⟨addr, haddr, -, -, h⟩ := h
    obtain rfl := Except.ok.inj h
    unfold udpTargetAddr at haddr
    split at haddr
    · next ip _ =>
      cases ip with
      | v4 ip =>
        obtain rfl := Except.ok.inj haddr
        rfl
      | v6 ip => cases haddr
    · rw [if_pos rfl] at haddr
      split at haddr
      · cases haddr
      · cases haddr
      · obtain rfl := Except.ok.inj haddr
        rfl

theorem multiplexedTarget_isIpv4 {buf : List UInt8} {len : ℕ} {host : String} {port : UInt16}
    {addr : SocketAddr} {offset : ℕ} (h : multiplexedTarget A true buf len = some (host, port, addr, offset)) :
    addr.ip.isIpv4 = true := by
  unfold multiplexedTarget at h
  dsimp only at h
  split_ifs at h with h1 _ h4 hmode h3
  · simp only [Option.some.injEq, Prod.mk.injEq] at h
    obtain ⟨-, -, rfl, -⟩ := h
    rfl
  · exact absurd (Or.inl rfl) hmode
  · split at h
    · cases h
    · split at h
      · simp only [Option.some.injEq, Prod.mk.injEq] at h
        obtain ⟨-, -, rfl, -⟩ := h
        rfl
      · cases h

theorem UdpOutbound.destSocketAddr_isIpv4 {u : UdpOutbound} {host : String} {port : UInt16}
    {addr : SocketAddr} (h : u.destSocketAddr A true host port = some addr) : addr.ip.isIpv4 = true := by
  unfold destSocketAddr at h
  split at h
  · next ip _ =>
    cases ip with
    | v4 ip =>
      obtain rfl := Option.some.inj h
      rfl
    | v6 ip => cases h
  · split_ifs at h
    · obtain rfl := Option.some.inj h
      rfl
    · split at h
      · obtain rfl := Option.some.inj h
        rfl
      · cases h

/-- The frame of a client has an IPv4 target, if it has one. -/
theorem UdpReader.next_isIpv4 {reader reader' : UdpReader} {u : UdpOutbound} {f : Frame}
    (h : reader.next u A true = some (reader', some f)) : ∀ a ∈ f.target, a.ip.isIpv4 = true := by
  cases reader with
  | standard destAddr destPort bytes =>
    obtain ⟨⟨bytes', f'⟩, hf, h⟩ := Option.map_eq_some_iff.mp h
    obtain ⟨-, rfl⟩ := by simpa using h
    obtain ⟨⟨header, bytes₁⟩, -, hf⟩ := Option.bind_eq_some_iff.mp hf
    obtain ⟨⟨payload, bytes₂⟩, -, hf⟩ := Option.bind_eq_some_iff.mp hf
    dsimp only at hf
    split_ifs at hf
    obtain ⟨-, rfl⟩ := by simpa using hf
    exact fun a ha => nomatch ha
  | multiplexed bytes buf =>
    obtain ⟨⟨bytes', buf', f'⟩, hf, h⟩ := Option.map_eq_some_iff.mp h
    obtain ⟨-, rfl⟩ := by simpa using h
    obtain ⟨⟨header, bytes₁⟩, -, hf⟩ := Option.bind_eq_some_iff.mp hf
    dsimp only at hf
    split_ifs at hf
    obtain ⟨⟨frame, bytes₂⟩, -, hf⟩ := Option.bind_eq_some_iff.mp hf
    obtain ⟨-, -, hf⟩ := by simpa using hf
    obtain ⟨host, port, addr, offset, htarget, rfl⟩ := hf
    intro a ha
    obtain rfl := Option.some.inj ha
    exact multiplexedTarget_isIpv4 htarget
  | packetAddr s =>
    obtain ⟨⟨s', f'⟩, hf, h⟩ := Option.map_eq_some_iff.mp h
    obtain ⟨-, rfl⟩ := by simpa using h
    obtain ⟨⟨s₁, host, port, offset⟩, -, hf⟩ := Option.bind_eq_some_iff.mp hf
    obtain ⟨s₂, -, hf⟩ := Option.bind_eq_some_iff.mp hf
    obtain ⟨s₃, -, hf⟩ := Option.bind_eq_some_iff.mp hf
    obtain ⟨-, hf⟩ := Prod.mk.inj (Option.some.inj hf)
    obtain ⟨host', -, hf⟩ := Option.bind_eq_some_iff.mp hf
    obtain ⟨addr, haddr, rfl⟩ := Option.map_eq_some_iff.mp hf
    intro a ha
    obtain rfl := Option.some.inj ha
    exact UdpOutbound.destSocketAddr_isIpv4 haddr

theorem UdpRelay.frame_isIpv4 {f : Frame} (h : r.frame A true = some f) :
    ∀ a ∈ f.target, a.ip.isIpv4 = true := by
  obtain ⟨⟨reader', f'⟩, hnext, hf⟩ := Option.bind_eq_some_iff.mp h
  obtain ⟨reader, -, hnext⟩ := Option.bind_eq_some_iff.mp hnext
  obtain rfl : f' = some f := hf
  exact UdpReader.next_isIpv4 hnext

theorem UdpOutbound.datagram_isIpv4 (u : UdpOutbound) {peer : UdpPeer} {f : Frame}
    (hpeer : peer.sendTarget.ip.isIpv4 = true) (hf : ∀ a ∈ f.target, a.ip.isIpv4 = true) :
    (u.datagram peer f).target.ip.isIpv4 = true := by
  unfold datagram
  split_ifs
  · exact hpeer
  · cases htarget : f.target with
    | none => exact hpeer
    | some a => exact hf a htarget

theorem UdpRelay.SendsIpv4.insert {key : SessionKey} {s : OutboundSession} (h : r.SendsIpv4)
    (hs : s.peer.sendTarget.ip.isIpv4 = true) :
    UdpRelay.SendsIpv4 { r with sessions := r.sessions.insert key s } := by
  intro k t ht
  rcases lookup_insert_cases ht with ⟨-, rfl⟩ | ⟨-, ht⟩
  · exact hs
  · exact h k t ht

theorem UdpRelay.SendsIpv4.session {f : Frame} {peer : UdpPeer} (h : r.SendsIpv4)
    (hs : r.session A true f = some (peer, r')) : peer.sendTarget.ip.isIpv4 = true ∧ r'.SendsIpv4 := by
  unfold UdpRelay.session at hs
  split at hs
  · next s hlookup =>
    obtain ⟨rfl, rfl⟩ := Prod.mk.inj (Option.some.inj hs)
    exact ⟨h _ s hlookup, h⟩
  · split at hs
    · cases hs
    · next peer' hpeer =>
      obtain ⟨rfl, rfl⟩ := Prod.mk.inj (Option.some.inj hs)
      have hv4 := createOutboundUdp_isIpv4 hpeer
      exact ⟨hv4, h.insert hv4⟩

/-- A turn of an upload loop contacts IPv4 addresses only, as far as the operating system does. -/
theorem UdpRelay.SendsIpv4.turnContacts_iff (h : r.SendsIpv4) (t : UdpTurn) :
    AllIpv4 (r.turnContacts true t) ↔
      ∀ f ∈ r.frame t.answers true, r.sessions.lookup f.key = none → r.outbound.Filtered t.answers := by
  unfold UdpRelay.turnContacts
  cases hf : r.frame t.answers true with
  | none => simp
  | some f =>
    have hsent : AllIpv4 (match r.session t.answers true f with
        | some (peer, _) => [(r.outbound.datagram peer f).target]
        | none => []) := by
      cases hs : r.session t.answers true f with
      | none => exact allIpv4_nil
      | some e =>
        have hpeer := (h.session (show r.session t.answers true f = some (e.1, e.2) from hs)).1
        exact allIpv4_singleton.mpr (r.outbound.datagram_isIpv4 hpeer (UdpRelay.frame_isIpv4 hf))
    simp only [allIpv4_append, hsent, and_true, Option.mem_some_iff, forall_eq']
    cases r.sessions.lookup f.key with
    | none => simp [r.outbound.createTried_iff]
    | some s => simp

theorem UdpOutbound.startContacts_iff (u : UdpOutbound) (A : Answers) (t : Target) :
    AllIpv4 (u.startContacts A true t) ↔ (Handler.udp u).Filtered A t := by
  unfold startContacts Handler.Filtered
  split_ifs with hpath
  · simp only [allIpv4_nil, true_iff]
    exact fun h1 h2 => (hpath.elim h1 h2).elim
  · have hsent : AllIpv4 (match createOutboundUdp A true t.destAddr t.destPort u.outboundProxy u.bindAddress with
        | .ok peer => [peer.sendTarget]
        | .error _ => []) := by
      split
      · next peer hpeer => exact allIpv4_singleton.mpr (createOutboundUdp_isIpv4 hpeer)
      · exact allIpv4_nil
    rw [not_or] at hpath
    simp only [allIpv4_append, hsent, and_true, u.createTried_iff]
    exact ⟨fun h _ _ => h, fun h => h hpath.1 hpath.2⟩

/-- **In IPv4-only mode a step of a handler contacts IPv4 addresses only, exactly when the operating
system does** where it resolves a name by itself. -/
theorem Relay.contacts_allIpv4_iff {r : Relay} (h : r.SendsIpv4) (e : RelayEvent) :
    AllIpv4 (r.contacts true e) ↔ r.Filtered e := by
  unfold Relay.contacts Relay.Filtered
  split
  · next handler t client email c =>
    cases handler with
    | udp outbound => exact outbound.startContacts_iff c.answers t
    | fragment settings => rfl
    | _ => simp [Handler.contacts, Handler.Filtered]
  · exact UdpRelay.SendsIpv4.turnContacts_iff h _
  · simp

/-! ## Sessions stay on IPv4 -/

theorem UdpRelay.SendsIpv4.turn {t : UdpTurn} {sent : Option Datagram} (h : r.SendsIpv4)
    (ht : r.turn true t = some (r', sent)) : r'.SendsIpv4 := by
  unfold UdpRelay.turn at ht
  split at ht
  · cases ht
  · split at ht
    · obtain ⟨rfl, -⟩ := Prod.mk.inj (Option.some.inj ht)
      exact fun k s hs => nomatch hs
    · obtain ⟨rfl, -⟩ := Prod.mk.inj (Option.some.inj ht)
      exact h
    · split at ht
      · obtain ⟨rfl, -⟩ := Prod.mk.inj (Option.some.inj ht)
        exact h
      · next peer r₁ hs =>
        obtain ⟨-, hr⟩ := h.session hs
        obtain ⟨rfl, -⟩ := Prod.mk.inj (Option.some.inj ht)
        exact fun k s hk => hr k s (lookup_of_lookup_foldl_erase hk)

theorem UdpOutbound.start_sendsIpv4 {u : UdpOutbound} {destAddr : String} {destPort : UInt16}
    {reader : List UInt8} {stats : Option ℕ} (h : u.start A true destAddr destPort reader stats = .ok r) :
    r.SendsIpv4 := by
  have hempty : ∀ (l : UdpReader) (w : Bool), UdpRelay.SendsIpv4 ⟨u, stats, some l, ∅, [], w⟩ :=
    fun l w k s hs => nomatch hs
  unfold UdpOutbound.start at h
  split_ifs at h
  · obtain rfl := Except.ok.inj h
    exact hempty _ _
  · obtain rfl := Except.ok.inj h
    exact hempty _ _
  · simp only [bind_ok] at h
    obtain ⟨peer, hpeer, -, -, h⟩ := h
    obtain rfl := Except.ok.inj h
    exact (hempty _ _).insert (createOutboundUdp_isIpv4 hpeer)

theorem UdpRelay.SendsIpv4.receive {key : SessionKey} {udpBuf : List UInt8} {remoteAddr : SocketAddr}
    {writeOk : Bool} {e : Option Egress} {n : ℕ} (h : r.SendsIpv4)
    (hr : r.receive key udpBuf remoteAddr writeOk = some (r', e, n)) : r'.SendsIpv4 := by
  unfold UdpRelay.receive at hr
  split at hr
  · cases hr
  · next s hs =>
    have hstop : (r.stopReceiving key s).SendsIpv4 := h.insert (h key s hs)
    split_ifs at hr
    · obtain ⟨rfl, -⟩ := by simpa using hr
      exact hstop
    · split at hr
      · obtain ⟨rfl, -⟩ := by simpa using hr
        exact h
      · next src payload _ =>
        have hd : (r.deliver key s src payload writeOk).1.SendsIpv4 := by
          unfold UdpRelay.deliver
          split_ifs
          · exact h
          · exact hstop
          · exact hstop
          · exact h
          · exact h
        rw [Option.some.inj hr] at hd
        exact hd

theorem UdpRelay.SendsIpv4.write {writeOk : Bool} {e : Option Egress} (h : r.SendsIpv4)
    (hw : r.write writeOk = some (r', e)) : r'.SendsIpv4 := by
  unfold UdpRelay.write at hw
  split at hw
  · cases hw
  · split_ifs at hw <;> (obtain ⟨rfl, -⟩ := Prod.mk.inj (Option.some.inj hw); exact h)

variable {X : Crates} {s : EngineState} {connId : Uuid} {relay : Relay} {o : Outcome}

theorem Relay.join_sendsIpv4 (heap : Heap) (peer : TcpPeer) (header : List UInt8) (stats : Option ℕ)
    (up down : Pipe) (upBytes downBytes : ℕ) (sent : List Egress) :
    (Relay.join heap peer header stats up down upBytes downBytes sent).relay.SendsIpv4 := by
  unfold Relay.join
  split <;> trivial

theorem Relay.select_sendsIpv4 (peer : TcpPeer) (user : Option ℕ) (kind : Kind) (up down : Half) :
    (Relay.select peer user kind up down).SendsIpv4 := by
  unfold Relay.select
  split <;> trivial

theorem Handler.start_sendsIpv4 {h : Handler} {c : Connect} {t : Target} {client : List (Arrivals.Arrival UInt8)}
    {email : Option String} (hmode : s.config.network.ipv4Only = true)
    (hs : h.start X s connId c t client email = .ok relay) : relay.SendsIpv4 := by
  cases h with
  | freedom outboundProxy bindAddress =>
    simp only [Handler.start, bind_ok] at hs
    obtain ⟨peer, -, hs⟩ := hs
    obtain rfl := Except.ok.inj hs
    trivial
  | fragment settings =>
    simp only [Handler.start, bind_ok] at hs
    obtain ⟨-, -, addr, -, hs⟩ := hs
    obtain rfl := Except.ok.inj hs
    trivial
  | vless config isUdp outboundProxy bindAddress =>
    simp only [Handler.start, bind_ok] at hs
    obtain ⟨-, -, peer, -, header, -, hs⟩ := hs
    obtain rfl := Except.ok.inj hs
    trivial
  | udp outbound =>
    simp only [Handler.start, bind_ok, hmode] at hs
    obtain ⟨u, hu, hs⟩ := hs
    obtain rfl := Except.ok.inj hs
    exact UdpOutbound.start_sendsIpv4 hu
  | blackhole =>
    obtain rfl := Except.ok.inj hs
    trivial

/-- **A step of a handler in IPv4-only mode.** -/
theorem Relay.SendsIpv4.step {e : RelayEvent} (hmode : s.config.network.ipv4Only = true)
    (h : relay.SendsIpv4) (hs : relay.step X s connId e = some o) : o.relay.SendsIpv4 := by
  unfold Relay.step at hs
  split at hs
  · split at hs
    · next r hstart =>
      obtain rfl := Option.some.inj hs
      exact Handler.start_sendsIpv4 hmode hstart
    · obtain rfl := Option.some.inj hs
      trivial
  · obtain ⟨⟨up, bytes⟩, -, rfl⟩ := Option.map_eq_some_iff.mp hs
    exact Relay.select_sendsIpv4 ..
  · obtain ⟨⟨down, bytes⟩, -, rfl⟩ := Option.map_eq_some_iff.mp hs
    exact Relay.select_sendsIpv4 ..
  · split_ifs at hs
    obtain rfl := Option.some.inj hs
    trivial
  · obtain ⟨⟨up, bytes, n⟩, -, rfl⟩ := Option.map_eq_some_iff.mp hs
    exact Relay.join_sendsIpv4 ..
  · obtain ⟨⟨down, bytes, n⟩, -, rfl⟩ := Option.map_eq_some_iff.mp hs
    exact Relay.join_sendsIpv4 ..
  · obtain ⟨⟨r', sent⟩, hturn, rfl⟩ := Option.map_eq_some_iff.mp hs
    rw [hmode] at hturn
    exact UdpRelay.SendsIpv4.turn h hturn
  · split at hs
    · obtain rfl := Option.some.inj hs
      trivial
    · cases hs
  · cases hs

theorem Relay.SendsIpv4.task {e : TaskEvent} (h : relay.SendsIpv4) (hs : relay.task s e = some o) :
    o.relay.SendsIpv4 := by
  unfold Relay.task at hs
  split at hs
  · obtain ⟨⟨up, bytes, n⟩, -, rfl⟩ := Option.map_eq_some_iff.mp hs
    trivial
  · obtain ⟨⟨down, bytes, n⟩, -, rfl⟩ := Option.map_eq_some_iff.mp hs
    trivial
  · obtain ⟨⟨r', sent, n⟩, hr, rfl⟩ := Option.map_eq_some_iff.mp hs
    exact UdpRelay.SendsIpv4.receive h hr
  · obtain ⟨⟨r', sent⟩, hr, rfl⟩ := Option.map_eq_some_iff.mp hs
    exact UdpRelay.SendsIpv4.write h hr
  · cases hs

end

end RXCore
