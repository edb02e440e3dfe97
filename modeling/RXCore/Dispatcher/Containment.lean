import RXCore.Dispatcher

/-!
# Where a route leads

What the route of a request means for all the traffic of its connection, in every run of the server.

* **`blackhole_forwards_nothing`**: a TCP connection to a blackhole outbound forwards nothing, and one to
  a tag without an outbound is a direct connection;
* **`warp_contained`**: a connection to WARP forwards nothing while WARP is down, and keeps to the proxy
  of the WARP outbound if that keeps it for the command (`OutboundConfig.KeepsProxy`);
* **`unknown_tag_forwards`**, **`warp_datagram_leaks`**: a tag without an outbound, and a datagram to
  WARP by the outbound that is made up when none is configured.
-/

set_option autoImplicit false

namespace RXCore

open Arrivals

/-- A relay that forwards nothing. -/
def Relay.Silent : Relay → Prop
  | starting .blackhole _ _ _ => True
  | ended => True
  | _ => False

variable {X : Crates} {i : ℕ} {v v' : Server} {userUuid : Uuid} {account : Identity} {q : InboundRequest}
  {outboundTag : String} {as : List ServerAct}

theorem preserved_silent : Preserved X Relay.Silent fun _ => False where
  step {s connId r e o} hr hs := by
    cases r with
    | starting h t client email =>
      cases h with
      | blackhole =>
        cases e with
        | connect c =>
          obtain rfl := Option.some.inj hs
          exact ⟨trivial, by simp⟩
        | _ => cases hs
      | _ => cases hr
    | ended => cases hs
    | _ => cases hr
  task {s r e o} hr hs := by
    cases r with
    | starting => cases hs
    | ended => cases hs
    | _ => cases hr
  detach {r} hr := by
    cases r with
    | starting => trivial
    | ended => trivial
    | _ => cases hr

theorem preserved_through (proxy : Option String) :
    Preserved X (Relay.Through proxy) (Egress.Through proxy) where
  step := Relay.step_through
  task := Relay.task_through
  detach := Relay.detach_through

/-- What the handler that is started for a route satisfies, the traffic of its connection follows. -/
theorem sentBy_of_launch {P : Relay → Prop} {Q : Egress → Prop} (hP : Preserved X P Q)
    (hi : v.conns[i]? = some (.authenticated userUuid account))
    (hroute : routeOf X v.engine userUuid q = some outboundTag)
    (hlaunch : ∀ engine relay, launch X v.engine userUuid q outboundTag = .ok (some (engine, relay)) →
      P relay)
    (h : Run.exec (serverStep X) v (.request i q :: as) = some v') :
    ∃ new, sentBy i v'.log = new ++ sentBy i v.log ∧ ∀ x ∈ new, Q x := by
  obtain ⟨w, hw, h⟩ := Run.exec_cons_some h
  obtain ⟨hlog, hstage⟩ := request_stage hi hw
  rw [← hlog]
  rcases hstage with ⟨engine, relay, hd, hstage⟩ | hstage
  · refine sentBy_of_preserved hP hstage ?_ h
    unfold dispatchConnection at hd
    split at hd
    · cases hd
    · rw [hroute] at hd
      exact hlaunch engine relay hd
  · exact sentBy_of_preserved hP hstage trivial h

/-- The handler that is started, from the outbound of the route. -/
theorem launch_some {engine : EngineState} {relay : Relay}
    (h : launch X v.engine userUuid q outboundTag = .ok (some (engine, relay))) :
    ∃ config handler email, outboundConfigOf v.engine outboundTag = some config ∧
      handlerOf config (q.cmd == 2) = .ok handler ∧ relay = .starting handler q.target q.client email := by
  rw [launch] at h
  split at h
  · cases h
  · next config hconfig =>
    obtain ⟨handler, hhandler, h⟩ := bind_ok.mp h
    obtain ⟨-, rfl⟩ := Prod.mk.inj (Option.some.inj (Except.ok.inj h))
    exact ⟨config, handler, _, hconfig, hhandler, rfl⟩

/-- An outbound that is configured for the tag is the one of the route. -/
theorem outboundConfigOf_found {o : OutboundConfig} {config : Option OutboundConfig}
    (ho : v.engine.config.outbounds.find? (·.tag == outboundTag) = some o)
    (h : outboundConfigOf v.engine outboundTag = some config) : config = some o := by
  simp only [outboundConfigOf, ho, Option.getD_some] at h
  split_ifs at h
  · exact (Option.some.inj h).symm
  · exact (Option.some.inj h).symm

/-- The outbound of WARP, if WARP is not down. -/
theorem outboundConfigOf_warp {config : Option OutboundConfig}
    (h : outboundConfigOf v.engine "warp" = some config) :
    config = some ((v.engine.config.outbounds.find? (·.tag == "warp")).getD defaultWarp) := by
  simp only [outboundConfigOf, if_true] at h
  split_ifs at h
  exact (Option.some.inj h).symm

theorem handlerOf_blackhole {o : OutboundConfig} (ho : o.protocol = "blackhole") :
    handlerOf (some o) false = .ok .blackhole := by
  simp [handlerOf, getOutboundHandler, ho]

variable (X userUuid) in
/-- The launch of a TCP connection to a tag without an outbound. -/
theorem launch_none (hwarp : outboundTag ≠ "warp") (htcp : (q.cmd == 2) = false)
    (ho : v.engine.config.outbounds.find? (·.tag == outboundTag) = none) :
    launch X v.engine userUuid q outboundTag =
      .ok (some (v.engine.registerConnection (connectionInfo X v.engine userUuid outboundTag q),
        .starting (.freedom none none) q.target q.client
          ((owner v.engine.users userUuid).bind fun r => (v.engine.heap r).email))) := by
  simp only [launch, outboundConfigOf, if_neg hwarp, ho, htcp]
  rfl

/-- **A TCP connection to a blackhole outbound forwards nothing**, and one to a tag without an
outbound gets the handler of a direct connection: all that it forwards leaves without a proxy. -/
theorem blackhole_forwards_nothing (hi : v.conns[i]? = some (.authenticated userUuid account))
    (htcp : q.cmd ≠ 2) (hroute : routeOf X v.engine userUuid q = some outboundTag)
    (h : Run.exec (serverStep X) v (.request i q :: as) = some v') :
    (∀ o, v.engine.config.outbounds.find? (·.tag == outboundTag) = some o → o.protocol = "blackhole" →
      sentBy i v'.log = sentBy i v.log) ∧
    (v.engine.config.outbounds.find? (·.tag == outboundTag) = none → outboundTag ≠ "warp" →
      (∃ engine email, launch X v.engine userUuid q outboundTag =
        .ok (some (engine, .starting (.freedom none none) q.target q.client email))) ∧
      ∃ new, sentBy i v'.log = new ++ sentBy i v.log ∧ ∀ x ∈ new, x.Through none) := by
  have hcmd : (q.cmd == 2) = false := by simpa using htcp
  constructor
  · intro o ho hblackhole
    obtain ⟨new, hnew, hsilent⟩ := sentBy_of_launch preserved_silent hi hroute (fun engine relay hl => by
      obtain ⟨config, handler, email, hconfig, hhandler, rfl⟩ := launch_some hl
      rw [outboundConfigOf_found ho hconfig, hcmd, handlerOf_blackhole hblackhole] at hhandler
      obtain rfl := Except.ok.inj hhandler
      trivial) h
    rw [hnew, List.eq_nil_iff_forall_not_mem.mpr hsilent, List.nil_append]
  · intro ho hwarp
    have hlaunch := launch_none X userUuid hwarp hcmd ho
    refine ⟨⟨_, _, hlaunch⟩,
      sentBy_of_launch (preserved_through none) hi hroute (fun engine relay hl => ?_) h⟩
    rw [hlaunch] at hl
    obtain ⟨-, rfl⟩ := Prod.mk.inj (Option.some.inj (Except.ok.inj hl))
    rfl

/-- The handler for a connection to an outbound is given the proxy of the outbound, or forwards
nothing. -/
def OutboundConfig.KeepsProxy (o : OutboundConfig) (cmd : UInt8) : Prop :=
  if cmd = 2 then o.protocol ≠ "freedom"
  else o.protocol = "freedom" ∨ o.protocol = "vless" ∨ o.protocol = "blackhole"

instance (o : OutboundConfig) (cmd : UInt8) : Decidable (o.KeepsProxy cmd) :=
  inferInstanceAs (Decidable (if cmd = 2 then o.protocol ≠ "freedom"
    else o.protocol = "freedom" ∨ o.protocol = "vless" ∨ o.protocol = "blackhole"))

/-- The proxy of the connections to an outbound. -/
def proxyOf (o : OutboundConfig) (cmd : UInt8) : Option String :=
  if o.KeepsProxy cmd then o.outboundProxy else none

theorem handlerOf_through_udp {o : OutboundConfig} {handler : Handler} (hvless : o.protocol ≠ "vless")
    (h : handlerOf (some o) true = .ok handler) : handler.Through (proxyOf o 2) := by
  simp only [handlerOf, Option.map_some, Option.some.injEq, hvless, if_false, if_true] at h
  obtain rfl := Except.ok.inj h
  by_cases hfreedom : o.protocol = "freedom" <;>
    simp [Handler.Through, proxyOf, OutboundConfig.KeepsProxy, udpProxy, hfreedom]

theorem handlerOf_through_tcp {o : OutboundConfig} {cmd : UInt8} {handler : Handler} (htcp : cmd ≠ 2)
    (hvless : o.protocol ≠ "vless") (h : handlerOf (some o) false = .ok handler) :
    handler.Through (proxyOf o cmd) := by
  by_cases hblackhole : o.protocol = "blackhole"
  · rw [handlerOf_blackhole hblackhole] at h
    obtain rfl := Except.ok.inj h
    trivial
  by_cases hfreedom : o.protocol = "freedom"
  · simp [handlerOf, getOutboundHandler, hfreedom] at h
    subst h
    simp [Handler.Through, proxyOf, OutboundConfig.KeepsProxy, hfreedom, htcp]
  have hproxy : proxyOf o cmd = none := by
    simp [proxyOf, OutboundConfig.KeepsProxy, htcp, hfreedom, hvless, hblackhole]
  rw [hproxy]
  by_cases hfragment : o.protocol = "fragment"
  · simp [handlerOf, getOutboundHandler, hfragment] at h
    subst h
    rfl
  · simp [handlerOf, getOutboundHandler, hfragment, hfreedom, hvless, hblackhole] at h
    subst h
    rfl

/-- Every handler for an outbound makes its connections through `proxyOf`. -/
theorem handlerOf_through {o : OutboundConfig} {cmd : UInt8} {handler : Handler}
    (h : handlerOf (some o) (cmd == 2) = .ok handler) : handler.Through (proxyOf o cmd) := by
  by_cases hvless : o.protocol = "vless"
  · simp [handlerOf, getOutboundHandler, hvless] at h
    split at h
    · cases h
    · obtain rfl := Except.ok.inj h
      simp [Handler.Through, proxyOf, OutboundConfig.KeepsProxy, hvless]
  by_cases hudp : cmd = 2
  · subst hudp
    exact handlerOf_through_udp hvless h
  · rw [beq_false_of_ne hudp] at h
    exact handlerOf_through_tcp hudp hvless h

/-- What goes back to the client. -/
def Egress.Returned : Egress → Prop
  | client _ _ => True
  | _ => False

theorem Egress.through_some_iff_returned {x : Egress} {p : String} (h : x.Through none) :
    x.Through (some p) ↔ x.Returned := by
  cases x with
  | client => exact Iff.rfl
  | tcp peer bytes => simp_all [Egress.Through, Egress.Returned]
  | udp datagram => simp_all [Egress.Through, Egress.Returned]

/-- **A connection to WARP.** While WARP is down it forwards nothing. Otherwise everything it forwards
leaves through `proxyOf`, which is the proxy of the WARP outbound exactly when that outbound keeps it for
the command: else it keeps to the proxy only in a run that sends nothing to the network. -/
theorem warp_contained (hi : v.conns[i]? = some (.authenticated userUuid account))
    (hroute : routeOf X v.engine userUuid q = some "warp")
    (h : Run.exec (serverStep X) v (.request i q :: as) = some v') :
    (v.engine.isWarpAllowed = false → sentBy i v'.log = sentBy i v.log) ∧
    ∀ o, o = (v.engine.config.outbounds.find? (·.tag == "warp")).getD defaultWarp →
      ∃ new, sentBy i v'.log = new ++ sentBy i v.log ∧ (∀ x ∈ new, x.Through (proxyOf o q.cmd)) ∧
        ∀ p, o.outboundProxy = some p →
          ((∀ x ∈ new, x.Through (some p)) ↔ o.KeepsProxy q.cmd ∨ ∀ x ∈ new, x.Returned) := by
  constructor
  · intro hdown
    obtain ⟨new, hnew, hsilent⟩ := sentBy_of_launch preserved_silent hi hroute (fun engine relay hl => by
      simp [launch, outboundConfigOf, hdown] at hl) h
    rw [hnew, List.eq_nil_iff_forall_not_mem.mpr hsilent, List.nil_append]
  · rintro o rfl
    obtain ⟨new, hnew, hthrough⟩ := sentBy_of_launch (preserved_through _) hi hroute
      (fun engine relay hl => by
        obtain ⟨config, handler, email, hconfig, hhandler, rfl⟩ := launch_some hl
        rw [outboundConfigOf_warp hconfig] at hhandler
        exact handlerOf_through hhandler) h
    refine ⟨new, hnew, hthrough, fun p hp => ?_⟩
    unfold proxyOf at hthrough
    split_ifs at hthrough with hkeeps
    · exact ⟨fun _ => .inl hkeeps, fun _ => hp ▸ hthrough⟩
    · simp only [hkeeps, false_or]
      exact forall₂_congr fun x hx => Egress.through_some_iff_returned (hthrough x hx)

/-! ## Runs of the built-in server -/

/-- A network in which every connection is made. -/
def openNetwork : Answers where
  resolve _ port _ := .ok [(.new 8 8 8 8, port)]
  lookupHost _ port := .ok [⟨.v4 (.new 8 8 8 8), port⟩]
  accepts _ := .ok ()
  connect _ _ _ := .ok ()
  deadline _ := false
  socksConnect _ := .ok ()
  socksAssociate _ _ := .ok ⟨.v4 .localhost, 40001⟩
  bindUdp := .ok ()
  udpConnect _ := .ok ()

/-- The identifiers that are drawn when the built-in configuration is migrated. -/
def sampleDraws : Draws := ⟨fun n => Vector.replicate 16 (UInt8.ofNat (n + 1)), 0⟩

/-- A server on a configuration, without connections. -/
def Server.start (config : Config) : Server := ⟨.new Sample.crates sampleDraws config, [], []⟩

/-- A request that sends the given bytes, and then nothing more. -/
def sampleRequest (destAddr : String) (destPort : UInt16) (cmd : UInt8) (bytes : List UInt8) :
    InboundRequest :=
  ⟨⟨destAddr, destPort⟩, cmd, "vless-inbound", "192.0.2.1:50000", none, Vector.replicate 16 9, [.data bytes]⟩

def sampleConnect : Connect := ⟨openNetwork, false, .ok (), .ok [0, 0], [], 0⟩

/-- A connection is authenticated, dispatched and polled once. -/
def oneConnection (userUuid : Uuid) (q : InboundRequest) (events : List RelayEvent) : List ServerAct :=
  [.accept, .authenticate 0 userUuid 0, .request 0 q, .poll 0 false (.connect sampleConnect :: events)]

/-- A relay forwards what it reads first. -/
def forwardOnce : List RelayEvent := [.half .tx .check, .half .tx .read, .half .tx (.write 0 none false)]

/-- The traffic of the first connection after a run. -/
def trafficOf (v : Server) (as : List ServerAct) : Option (List Egress) :=
  (Run.exec (serverStep Sample.crates) v as).map fun v => sentBy 0 v.log

/-- The built-in configuration with a rule for every destination. -/
def ruledConfig (outboundTag : String) (outbounds : List OutboundConfig) : Config :=
  { builtInConfig with
    outbounds := outbounds
    routing := ⟨[⟨none, none, none, none, outboundTag⟩]⟩ }

def toWeb : InboundRequest := sampleRequest "8.8.8.8" 443 1 [65]

/-- A server whose only outbound is a blackhole, with an authenticated connection. -/
def blackholeServer : Server :=
  { Server.start (ruledConfig "blocked" [⟨"blocked", "blackhole", none, none, none⟩]) with
    conns := [.authenticated builtInUuid ⟨0, "ad60c2b2-cc0c-492a-89aa-c92330a10cc9"⟩] }

/-- The request of that connection, and a poll of its handler. -/
def blackholeRun : Server :=
  (Run.exec (serverStep Sample.crates) blackholeServer
    [.request 0 toWeb, .poll 0 false [.connect sampleConnect]]).get (by decide)

/-- The same server without the outbound. -/
def unknownServer : Server :=
  { Server.start (ruledConfig "blocked" []) with
    conns := [.authenticated builtInUuid ⟨0, "ad60c2b2-cc0c-492a-89aa-c92330a10cc9"⟩] }

/-- The request of its connection, and a poll in which its handler forwards a byte. -/
def unknownRun : Server :=
  (Run.exec (serverStep Sample.crates) unknownServer
    [.request 0 toWeb, .poll 0 false (.connect sampleConnect :: forwardOnce)]).get (by decide)

theorem blackhole_forwards_nothing_run :
    sentBy 0 blackholeRun.log = sentBy 0 blackholeServer.log ∧
    ∃ new, sentBy 0 unknownRun.log = new ++ sentBy 0 unknownServer.log ∧ ∀ x ∈ new, x.Through none :=
  have hblackhole : routeOf Sample.crates blackholeServer.engine builtInUuid toWeb = some "blocked" := by
    decide
  have hunknown : routeOf Sample.crates unknownServer.engine builtInUuid toWeb = some "blocked" := by
    decide
  ⟨(blackhole_forwards_nothing rfl (by decide) hblackhole (Option.some_get _).symm).1 _ rfl rfl,
    ((blackhole_forwards_nothing rfl (by decide) hunknown (Option.some_get _).symm).2 rfl (by decide)).2⟩

/-- **A tag without an outbound is forwarded directly.** -/
theorem unknown_tag_forwards :
    routeOf Sample.crates (Server.start (ruledConfig "blocked" [])).engine builtInUuid toWeb =
      some "blocked" ∧
    (Server.start (ruledConfig "blocked" [])).engine.config.outbounds.find? (·.tag == "blocked") = none ∧
    trafficOf (Server.start (ruledConfig "blocked" [])) (oneConnection builtInUuid toWeb forwardOnce) =
      some [.tcp (.direct ⟨.v4 (.new 8 8 8 8), 443⟩) [65]] := by
  decide

/-- The alias of the built-in account whose connections go to WARP. -/
def browsingUuid : Uuid := Vector.replicate 16 5

/-- The built-in server with a connection that is authenticated under this alias. -/
def warpServer : Server :=
  { Server.start builtInConfig with
    conns := [.authenticated browsingUuid ⟨0, "ad60c2b2-cc0c-492a-89aa-c92330a10cc9"⟩] }

/-- Its request, and a poll in which its handler forwards a byte. -/
def warpRun : Server :=
  (Run.exec (serverStep Sample.crates) warpServer
    [.request 0 toWeb, .poll 0 false (.connect sampleConnect :: forwardOnce)]).get (by decide)

/-- The theorem on a TCP connection to WARP, whose byte leaves through the proxy. -/
theorem warp_contained_run :
    (warpServer.engine.isWarpAllowed = false → sentBy 0 warpRun.log = sentBy 0 warpServer.log) ∧
    ∀ o, o = (warpServer.engine.config.outbounds.find? (·.tag == "warp")).getD defaultWarp →
      ∃ new, sentBy 0 warpRun.log = new ++ sentBy 0 warpServer.log ∧
        (∀ x ∈ new, x.Through (proxyOf o toWeb.cmd)) ∧
        ∀ p, o.outboundProxy = some p →
          ((∀ x ∈ new, x.Through (some p)) ↔ o.KeepsProxy toWeb.cmd ∨ ∀ x ∈ new, x.Returned) :=
  warp_contained (X := Sample.crates) rfl (by decide) (Option.some_get _).symm

/-- A datagram of one byte, in the framing of the standard handler. -/
def toDns : InboundRequest := sampleRequest "1.1.1.1" 53 2 [0, 1, 65]

/-- **A datagram to WARP leaves directly**, when no outbound for WARP is configured. -/
theorem warp_datagram_leaks :
    routeOf Sample.crates (Server.start builtInConfig).engine browsingUuid toDns = some "warp" ∧
    (Server.start builtInConfig).engine.isWarpAllowed = true ∧
    defaultWarp.outboundProxy = some "127.0.0.1:40000" ∧
    trafficOf (Server.start builtInConfig)
      (oneConnection browsingUuid toDns [.turn ⟨openNetwork, true, fun _ => false⟩]) =
      some [.udp ⟨none, ⟨.v4 (.new 1 1 1 1), 53⟩, [65], [65]⟩] := by
  decide

end RXCore
