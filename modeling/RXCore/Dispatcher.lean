import RXCore.Api
import RXCore.Lib.Run
import RXCore.Lib.Parties
import RXCore.Outbound.Relay

/-!
# The dispatcher and its connections

`dispatch_connection` chooses a route and a handler; the handler then runs as a task of its own until
it returns or its shutdown signal arrives. All connections of a server run in one thread, so a step is
what one task does between two waits, in any order with the steps of the others and with deletions of
accounts.

* `outboundConfigOf`, `handlerOf`, `dispatchConnection`;
* `Server`, `serverStep`: connections from their first bytes to the end of their last task, with the
  log of all that is forwarded;
* `Part`, **`serverStep_invariant`**: a step in parts, and the rule for invariants that goes with it;
* `Server.Registered`: running connections have entries of their own in the registry;
* `Preserved`, **`sentBy_of_preserved`**: what the steps of a relay preserve holds of its connection
  in every run.
-/

set_option autoImplicit false

namespace RXCore

open Arrivals Parties

/-- A request, once its header is read, with what is drawn and sniffed for it. -/
structure InboundRequest where
  target : Target
  cmd : UInt8
  inboundTag : String
  clientAddr : String
  sni : Option String
  connId : Uuid
  /-- What the client sends after the header. -/
  client : List (Arrival UInt8)

/-- The outbound for WARP when none is configured. -/
def defaultWarp : OutboundConfig := ⟨"warp", "freedom", none, some "127.0.0.1:40000", none⟩

/-- The route of a request of a user. -/
def routeOf (X : Crates) (s : EngineState) (userUuid : Uuid) (q : InboundRequest) : Option String :=
  let mode := match s.users.lookup userUuid with
    | some (_, mode) => mode
    | none => .smart
  resolveRoute X mode q.target.destAddr q.target.destPort q.inboundTag q.sni s.routingTables

/-- The outbound of a route, if there is one, or `none` when the connection is dropped because WARP is
down. -/
def outboundConfigOf (s : EngineState) (outboundTag : String) : Option (Option OutboundConfig) :=
  let config := s.config.outbounds.find? (·.tag == outboundTag)
  if outboundTag = "warp" then
    if s.isWarpAllowed then some (some (config.getD defaultWarp)) else none
  else some config

/-- The proxy of a UDP connection. -/
def udpProxy (config : Option OutboundConfig) : Option String :=
  config.bind fun c => if c.protocol = "freedom" then none else c.outboundProxy

/-- The handler for an outbound. -/
def handlerOf (config : Option OutboundConfig) (isUdp : Bool) : Except String Handler :=
  if config.map (·.protocol) = some "vless" then getOutboundHandler config isUdp
  else if isUdp then .ok (.udp ⟨udpProxy config, config.bind (·.bindAddress)⟩)
  else getOutboundHandler config false

/-- The entry of a connection in the registry. -/
def connectionInfo (X : Crates) (s : EngineState) (userUuid : Uuid) (outboundTag : String)
    (q : InboundRequest) : ConnectionInfo where
  id := q.connId
  inboundTag := q.inboundTag
  clientIp := q.clientAddr
  destAddress := q.target.destAddr ++ ":" ++ toString q.target.destPort.toNat
  sni := q.sni
  outboundTag := outboundTag
  rx := 0
  tx := 0
  userUuid := (owner s.users userUuid).bind fun r => X.parseUuid (s.heap r).id
  shutdownTx := true

/-- The rest of `dispatch_connection`, for a route. -/
def launch (X : Crates) (s : EngineState) (userUuid : Uuid) (q : InboundRequest) (outboundTag : String) :
    Except String (Option (EngineState × Relay)) :=
  match outboundConfigOf s outboundTag with
  | none => .ok none
  | some config => do
    let handler ← handlerOf config (q.cmd == 2)
    let clientEmail := (owner s.users userUuid).bind fun r => (s.heap r).email
    return some (s.registerConnection (connectionInfo X s userUuid outboundTag q),
      .starting handler q.target q.client clientEmail)

/-- `dispatch_connection`: the handler that is started, or `none` when the connection is dropped. A
panic of the router drops it as well. -/
def dispatchConnection (X : Crates) (s : EngineState) (userUuid : Uuid) (q : InboundRequest) :
    Except String (Option (EngineState × Relay)) :=
  if s.config.network.ipv4Only ∧ (parseIpAddr q.target.destAddr).map (·.isIpv6) = some true then
    .error "IPv6 destination is rejected under IPv4-only mode"
  else match routeOf X s userUuid q with
    | none => .ok none
    | some outboundTag => launch X s userUuid q outboundTag

/-! ## The server -/

/-- The account that a connection was authenticated as. -/
structure Identity where
  ref : ℕ
  id : String
deriving DecidableEq

inductive Stage where
  /-- The header is awaited. -/
  | header
  /-- The UUID is accepted, and the rest of the header awaited. -/
  | authenticated (userUuid : Uuid) (account : Identity)
  | relaying (connId : Uuid) (account : Identity) (relay : Relay)
  /-- Only tasks of the handler are left. -/
  | detached (account : Identity) (relay : Relay)
  | closed

inductive Entry where
  | forwarded (conn : ℕ) (account : Identity) (e : Egress)
  | deleted (id : String)

structure Server where
  engine : EngineState
  conns : List Stage
  /-- What has happened, the latest first. -/
  log : List Entry

inductive ServerAct where
  | accept
  /-- The first 18 bytes of a header are read at the time `now`. -/
  | authenticate (i : ℕ) (userUuid : Uuid) (now : ℤ)
  | request (i : ℕ) (q : InboundRequest)
  /-- The task of a handler is polled. The two branches of its `select` are tried in either order. -/
  | poll (i : ℕ) (shutdownFirst : Bool) (events : List RelayEvent)
  | task (i : ℕ) (e : TaskEvent)
  | deleteUser (id : String)

/-- The shutdown signal of a connection was sent, or its sender is gone. -/
def EngineState.signalled (s : EngineState) (connId : Uuid) : Bool :=
  match s.connectionOf connId with
  | some c => !c.shutdownTx
  | none => true

namespace Server

/-- A step of a relay takes effect. -/
def apply (v : Server) (i : ℕ) (account : Identity) (stage : Relay → Stage) (o : Outcome) : Server where
  engine := { v.engine with
    heap := o.heap
    dirty := v.engine.dirty || o.dirty }
  conns := v.conns.set i (stage o.relay)
  log := (o.sent.map (.forwarded i account)).reverse ++ v.log

/-- A step of the handler of a connection. -/
def handlerStep (X : Crates) (i : ℕ) (v : Server) (e : RelayEvent) : Option Server :=
  match v.conns[i]? with
  | some (.relaying connId account relay) =>
    (relay.step X v.engine connId e).map (v.apply i account (.relaying connId account))
  | _ => none

/-- A step of a task of a connection. -/
def taskStep (i : ℕ) (v : Server) (e : TaskEvent) : Option Server :=
  match v.conns[i]? with
  | some (.relaying connId account relay) =>
    (relay.task v.engine e).map (v.apply i account (.relaying connId account))
  | some (.detached account relay) => (relay.task v.engine e).map (v.apply i account (.detached account))
  | _ => none

/-- The handler of a connection is gone. -/
def close (v : Server) (i : ℕ) : Server :=
  match v.conns[i]? with
  | some (.relaying connId account relay) => { v with
      engine := v.engine.deregisterConnection connId
      conns := v.conns.set i (.detached account relay.detach) }
  | _ => v

/-- The handler of a connection has returned, or its shutdown signal is seen. -/
def done (v : Server) (i : ℕ) : Bool :=
  match v.conns[i]? with
  | some (.relaying connId _ relay) => relay.returned || v.engine.signalled connId
  | _ => true

/-- The task of a handler is polled. -/
def poll (X : Crates) (v : Server) (i : ℕ) (connId : Uuid) (shutdownFirst : Bool)
    (events : List RelayEvent) : Option Server :=
  if v.engine.signalled connId ∧ shutdownFirst then some (v.close i)
  else (Run.exec (handlerStep X i) v events).map fun v => if v.done i then v.close i else v

/-- A request is dispatched. The identifier of its connection is not in use. -/
def request (X : Crates) (v : Server) (i : ℕ) (userUuid : Uuid) (account : Identity) (q : InboundRequest) :
    Option Server :=
  if (v.engine.connectionOf q.connId).isSome then none
  else match dispatchConnection X v.engine userUuid q with
    | .ok (some (engine, relay)) => some { v with
        engine := engine
        conns := v.conns.set i (.relaying q.connId account relay) }
    | _ => some { v with conns := v.conns.set i .closed }

end Server

/-- A step of the server. -/
def serverStep (X : Crates) (v : Server) : ServerAct → Option Server
  | .accept => some { v with conns := v.conns ++ [.header] }
  | .authenticate i userUuid now => match v.conns[i]? with
    | some .header => match v.engine.authenticateClient now userUuid with
      | some (r, _) =>
        some { v with conns := v.conns.set i (.authenticated userUuid ⟨r, (v.engine.heap r).id⟩) }
      | none => some { v with conns := v.conns.set i .closed }
    | _ => none
  | .request i q => match v.conns[i]? with
    | some (.authenticated userUuid account) => v.request X i userUuid account q
    | _ => none
  | .poll i shutdownFirst events => match v.conns[i]? with
    | some (.relaying connId _ _) => v.poll X i connId shutdownFirst events
    | _ => none
  | .task i e => v.taskStep i e
  | .deleteUser id =>
    match deleteUser X v.engine id with
    | (engine, .done true) => some { v with
        engine := engine
        log := .deleted id :: v.log }
    | (engine, _) => some { v with engine := engine }

/-! ## Steps in parts -/

/-- A stage before the dispatch of a request. -/
def Stage.Early : Stage → Prop
  | header => True
  | authenticated _ _ => True
  | _ => False

/-- What a step does at once; a poll is several parts, all others are one. -/
inductive Part (X : Crates) (v : Server) : ServerAct → Server → Prop
  | accept : Part X v .accept { v with conns := v.conns ++ [.header] }
  | reject {a : ServerAct} {i : ℕ} {stage : Stage} (hi : v.conns[i]? = some stage) (hs : stage.Early) :
    Part X v a { v with conns := v.conns.set i .closed }
  | authenticate {i : ℕ} {userUuid : Uuid} {now : ℤ} {r : ℕ} {mode : ClientRouteMode}
    (hi : v.conns[i]? = some .header) (hr : v.engine.authenticateClient now userUuid = some (r, mode)) :
    Part X v (.authenticate i userUuid now) { v with
      conns := v.conns.set i (.authenticated userUuid ⟨r, (v.engine.heap r).id⟩) }
  | launch {i : ℕ} {q : InboundRequest} {userUuid : Uuid} {account : Identity} {engine : EngineState}
    {relay : Relay} (hi : v.conns[i]? = some (.authenticated userUuid account))
    (hfresh : v.engine.connectionOf q.connId = none)
    (hd : dispatchConnection X v.engine userUuid q = .ok (some (engine, relay))) :
    Part X v (.request i q) { v with
      engine := engine
      conns := v.conns.set i (.relaying q.connId account relay) }
  | handler {i : ℕ} {shutdownFirst : Bool} {connId : Uuid} {account : Identity} {relay : Relay}
    {e : RelayEvent} {o : Outcome} (hi : v.conns[i]? = some (.relaying connId account relay))
    (hsignal : v.engine.signalled connId = true → shutdownFirst = false)
    (ho : relay.step X v.engine connId e = some o) :
    Part X v (.poll i shutdownFirst [e]) (v.apply i account (.relaying connId account) o)
  | close {i : ℕ} {shutdownFirst : Bool} {events : List RelayEvent} {connId : Uuid} {account : Identity}
    {relay : Relay} (hi : v.conns[i]? = some (.relaying connId account relay)) :
    Part X v (.poll i shutdownFirst events) { v with
      engine := v.engine.deregisterConnection connId
      conns := v.conns.set i (.detached account relay.detach) }
  | task {i : ℕ} {e : TaskEvent} {connId : Uuid} {account : Identity} {relay : Relay} {o : Outcome}
    (hi : v.conns[i]? = some (.relaying connId account relay)) (ho : relay.task v.engine e = some o) :
    Part X v (.task i e) (v.apply i account (.relaying connId account) o)
  | taskDetached {i : ℕ} {e : TaskEvent} {account : Identity} {relay : Relay} {o : Outcome}
    (hi : v.conns[i]? = some (.detached account relay)) (ho : relay.task v.engine e = some o) :
    Part X v (.task i e) (v.apply i account (.detached account) o)
  | deleted {id : String} {engine : EngineState} (hd : deleteUser X v.engine id = (engine, .done true)) :
    Part X v (.deleteUser id) { v with
      engine := engine
      log := .deleted id :: v.log }
  | refused {id : String} : Part X v (.deleteUser id) v

/-- The identifier of a connection whose handler runs. -/
def Server.idOf (v : Server) (i : ℕ) : Option Uuid :=
  match v.conns[i]? with
  | some (.relaying connId _ _) => some connId
  | _ => none

/-- The same handlers run, with the same entries in the registry. -/
structure Server.SameIds (v w : Server) : Prop where
  registry : w.engine.activeConnections = v.engine.activeConnections
  ids : ∀ i, w.idOf i = v.idOf i

section

variable {X : Crates} {v v' : Server} {i : ℕ}

theorem Server.idOf_relaying {connId : Uuid} {account : Identity} {relay : Relay}
    (hi : v.conns[i]? = some (.relaying connId account relay)) : v.idOf i = some connId := by
  simp [idOf, hi]

theorem Server.relaying_of_idOf {connId : Uuid} (h : v.idOf i = some connId) :
    ∃ account relay, v.conns[i]? = some (.relaying connId account relay) := by
  unfold idOf at h
  split at h
  · next c account relay hi =>
    obtain rfl := Option.some.inj h
    exact ⟨account, relay, hi⟩
  · cases h

theorem deleteUser_reply {s s' : EngineState} {id : String} {reply : Reply}
    (h : deleteUser X s id = (s', reply)) : reply = .done true ∨ s' = s := by
  unfold deleteUser at h
  dsimp only at h
  split at h
  · exact .inr (Prod.mk.inj h).1.symm
  · exact .inl (Prod.mk.inj h).2.symm

/-- A step of the handler keeps the registry and the running handlers. -/
theorem Server.handlerStep_sameIds {w : Server} {e : RelayEvent} (h : v.SameIds w)
    (hs : w.handlerStep X i e = some v') : v.SameIds v' := by
  unfold Server.handlerStep at hs
  split at hs
  · next connId account relay hi =>
    obtain ⟨o, -, rfl⟩ := Option.map_eq_some_iff.mp hs
    refine ⟨h.registry, fun j => ?_⟩
    rw [← h.ids j]
    by_cases hji : j = i
    · subst hji
      rw [idOf_relaying hi]
      simp [idOf, apply, lt_of_getElem? hi]
    · simp [idOf, apply, List.getElem?_set_ne (Ne.symm hji)]
  · cases hs

/-- The parts of a poll while the signal is not seen. -/
theorem Server.handlerRun_invariant {I : Server → Prop} {C : Server → ServerAct → Prop} {connId : Uuid}
    {first : Bool} (hid : v.idOf i = some connId) (hsignal : v.engine.signalled connId = true → first = false)
    (hpart : ∀ w w' a, I w → C w a → Part X w a w' → I w')
    (hpoll : ∀ i first e events w w', C w (.poll i first (e :: events)) → w.handlerStep X i e = some w' →
      C w (.poll i first [e]) ∧ C w' (.poll i first events)) {events : List RelayEvent} {w w' : Server}
    (hids : v.SameIds w) (hI : I w) (hC : C w (.poll i first events))
    (h : Run.exec (handlerStep X i) w events = some w') : I w' ∧ C w' (.poll i first []) := by
  induction events generalizing w with
  | nil =>
    obtain rfl := Option.some.inj h
    exact ⟨hI, hC⟩
  | cons e events ih =>
    obtain ⟨u, hu, h⟩ := Run.exec_cons_some h
    obtain ⟨hCe, hCu⟩ := hpoll i first e events w u hC hu
    refine ih (handlerStep_sameIds hids hu) ?_ hCu h
    unfold Server.handlerStep at hu
    split at hu
    · next connId' account relay hi =>
      obtain ⟨o, ho, rfl⟩ := Option.map_eq_some_iff.mp hu
      refine hpart w _ _ hI hCe (.handler hi (fun hsig => hsignal ?_) ho)
      have hsame := hids.ids i
      rw [hid, idOf_relaying hi] at hsame
      rw [← Option.some.inj hsame]
      simpa [EngineState.signalled, EngineState.connectionOf, hids.registry] using hsig
    · cases hu

/-- **The rule for invariants of the server.** It is enough that every part of a step keeps the
invariant; a condition on a poll has to hold for its parts. -/
theorem serverStep_invariant {I : Server → Prop} {C : Server → ServerAct → Prop} {a : ServerAct}
    (hpart : ∀ w w' a, I w → C w a → Part X w a w' → I w')
    (hpoll : ∀ i first e events w w', C w (.poll i first (e :: events)) → w.handlerStep X i e = some w' →
      C w (.poll i first [e]) ∧ C w' (.poll i first events))
    (hI : I v) (hC : C v a) (hs : serverStep X v a = some v') : I v' := by
  cases a with
  | accept =>
    obtain rfl := Option.some.inj hs
    exact hpart v _ _ hI hC .accept
  | authenticate i userUuid now =>
    simp only [serverStep] at hs
    split at hs
    · next hi =>
      split at hs
      · next hr =>
        obtain rfl := Option.some.inj hs
        exact hpart v _ _ hI hC (.authenticate hi hr)
      · obtain rfl := Option.some.inj hs
        exact hpart v _ _ hI hC (.reject hi trivial)
    · cases hs
  | request i q =>
    simp only [serverStep] at hs
    split at hs
    · next hi =>
      unfold Server.request at hs
      split at hs
      · cases hs
      · next hfresh =>
        split at hs
        · next hd =>
          obtain rfl := Option.some.inj hs
          exact hpart v _ _ hI hC (.launch hi (by simpa using hfresh) hd)
        · obtain rfl := Option.some.inj hs
          exact hpart v _ _ hI hC (.reject hi trivial)
    · cases hs
  | poll i first events =>
    have hclose : ∀ w es, I w → C w (.poll i first es) → I (w.close i) := by
      intro w es hIw hCw
      unfold Server.close
      split
      · next hi => exact hpart w _ _ hIw hCw (.close hi)
      · exact hIw
    simp only [serverStep] at hs
    split at hs
    · next connId account relay hi =>
      unfold Server.poll at hs
      split at hs
      · obtain rfl := Option.some.inj hs
        exact hclose v _ hI hC
      · next hsignal =>
        obtain ⟨w, hw, rfl⟩ := Option.map_eq_some_iff.mp hs
        have hfirst : v.engine.signalled connId = true → first = false := fun h => by simpa [h] using hsignal
        obtain ⟨hIw, hCw⟩ := Server.handlerRun_invariant (Server.idOf_relaying hi) hfirst hpart hpoll
          ⟨rfl, fun _ => rfl⟩ hI hC hw
        split_ifs
        · exact hclose w _ hIw hCw
        · exact hIw
    · cases hs
  | task i e =>
    simp only [serverStep, Server.taskStep] at hs
    split at hs
    · next hi =>
      obtain ⟨o, ho, rfl⟩ := Option.map_eq_some_iff.mp hs
      exact hpart v _ _ hI hC (.task hi ho)
    · next hi =>
      obtain ⟨o, ho, rfl⟩ := Option.map_eq_some_iff.mp hs
      exact hpart v _ _ hI hC (.taskDetached hi ho)
    · cases hs
  | deleteUser id =>
    simp only [serverStep] at hs
    split at hs
    · next hd =>
      obtain rfl := Option.some.inj hs
      exact hpart v _ _ hI hC (.deleted hd)
    · next hno hd =>
      obtain rfl := Option.some.inj hs
      rcases deleteUser_reply hd with rfl | rfl
      · exact (hno rfl).elim
      · exact hpart v _ _ hI hC .refused

/-! ## The registry -/

theorem persistConfigToDisk_activeConnections (s : EngineState) :
    s.persistConfigToDisk.activeConnections = s.activeConnections := by
  unfold EngineState.persistConfigToDisk
  dsimp only
  split_ifs <;> rfl

/-- An account that was deleted. -/
theorem deleteUser_done {s s' : EngineState} {id : String} (h : deleteUser X s id = (s', .done true)) :
    ∃ config runtimes, config.clients = s.config.clients.filter (·.id != id) ∧
      s' = ((s.install X config runtimes).disconnectUser X id).persistConfigToDisk := by
  unfold deleteUser at h
  dsimp only at h
  split at h
  · cases h
  · next t ht =>
    obtain ⟨runtimes, -, rfl⟩ := EngineState.updateConfig_ok ht
    obtain ⟨rfl, -⟩ := Prod.mk.inj h
    refine ⟨_, runtimes, ?_, rfl⟩
    simp only [Config.clients, List.flatMap_map, List.filter_flatMap]
    refine List.flatMap_congr fun j _ => ?_
    cases hj : j.settings.clients <;> simp [InboundConfig.removeClient, InboundConfig.clients, hj]

/-- The registry after a deletion: entries lose their senders and stay otherwise. -/
theorem deleteUser_connectionOf {s s' : EngineState} {id : String}
    (h : deleteUser X s id = (s', .done true)) (connId : Uuid) :
    s'.connectionOf connId = (s.connectionOf connId).map fun c =>
      if (X.parseUuid id).isSome ∧ c.userUuid = X.parseUuid id then { c with shutdownTx := false } else c := by
  obtain ⟨config, runtimes, -, rfl⟩ := deleteUser_done h
  have hpersist : ∀ t : EngineState,
      t.persistConfigToDisk.connectionOf connId = t.connectionOf connId := fun t => by
    simp [EngineState.connectionOf, persistConfigToDisk_activeConnections]
  rw [hpersist, EngineState.connectionOf_disconnectUser]
  rfl

/-- The maps that a deletion builds from the clients that are left. -/
def mapsWithout (X : Crates) (s : EngineState) (id : String) : UserMaps :=
  buildUserMaps X (fun _ u => u.email) s.users (.start s.heap s.nextRef)
    (s.config.clients.filter (·.id != id))

/-- The accounts after a deletion. -/
theorem deleteUser_maps {s s' : EngineState} {id : String} (h : deleteUser X s id = (s', .done true)) :
    s'.config.clients = s.config.clients.filter (·.id != id) ∧
      s'.users = (mapsWithout X s id).users ∧ s'.heap = (mapsWithout X s id).heap ∧
      s'.nextRef = (mapsWithout X s id).nextRef := by
  obtain ⟨config, runtimes, hclients, rfl⟩ := deleteUser_done h
  have hdisconnect : ∀ t : EngineState, (t.disconnectUser X id).users = t.users ∧
      (t.disconnectUser X id).heap = t.heap ∧ (t.disconnectUser X id).nextRef = t.nextRef ∧
      (t.disconnectUser X id).config = t.config := by
    intro t
    unfold EngineState.disconnectUser
    split <;> exact ⟨rfl, rfl, rfl, rfl⟩
  obtain ⟨husers, hheap, hnext, hconfig⟩ := hdisconnect (s.install X config runtimes)
  obtain ⟨husers', hheap', hnext', hconfig'⟩ :=
    ((s.install X config runtimes).disconnectUser X id).persistConfigToDisk_frame
  rw [husers', hheap', hnext', hconfig', husers, hheap, hnext, hconfig, mapsWithout, ← hclients]
  exact ⟨rfl, rfl, rfl, rfl⟩

/-- The accounts that there were keep their identifiers and counters. -/
theorem deleteUser_kept {s s' : EngineState} {id : String} (h : deleteUser X s id = (s', .done true)) :
    s.nextRef ≤ s'.nextRef ∧ ∀ r < s.nextRef, (s'.heap r).id = (s.heap r).id ∧
      (s'.heap r).snapshot = (s.heap r).snapshot := by
  obtain ⟨-, -, hheap, hnext⟩ := deleteUser_maps h
  rw [hheap, hnext]
  exact buildUserMaps_kept (.start s.heap s.nextRef) _

/-- Every running handler has an entry in the registry, and no two have the same. -/
structure Server.Registered (v : Server) : Prop where
  present : ∀ i connId, v.idOf i = some connId → (v.engine.connectionOf connId).isSome = true
  distinct : ∀ i j connId, v.idOf i = some connId → v.idOf j = some connId → i = j

theorem dispatchConnection_engine {s engine : EngineState} {userUuid : Uuid} {q : InboundRequest}
    {relay : Relay} (h : dispatchConnection X s userUuid q = .ok (some (engine, relay))) :
    ∃ outboundTag config handler, routeOf X s userUuid q = some outboundTag ∧
      outboundConfigOf s outboundTag = some config ∧ handlerOf config (q.cmd == 2) = .ok handler ∧
      engine = s.registerConnection (connectionInfo X s userUuid outboundTag q) ∧
      relay = .starting handler q.target q.client ((owner s.users userUuid).bind fun r => (s.heap r).email) := by
  unfold dispatchConnection at h
  split at h
  · cases h
  · split at h
    · cases h
    · next outboundTag htag =>
      unfold launch at h
      split at h
      · cases h
      · next config hconfig =>
        obtain ⟨handler, hhandler, h⟩ := bind_ok.mp h
        obtain ⟨rfl, rfl⟩ := Prod.mk.inj (Option.some.inj (Except.ok.inj h))
        exact ⟨outboundTag, config, handler, htag, hconfig, hhandler, rfl, rfl⟩

theorem Server.Registered.of_ids {w : Server} (h : v.Registered)
    (hids : ∀ i connId, w.idOf i = some connId → v.idOf i = some connId)
    (hpresent : ∀ i connId, w.idOf i = some connId → (v.engine.connectionOf connId).isSome = true →
      (w.engine.connectionOf connId).isSome = true) : w.Registered :=
  ⟨fun i c hi => hpresent i c hi (h.present i c (hids i c hi)),
    fun i j c hi hj => h.distinct i j c (hids i c hi) (hids j c hj)⟩

/-- The running handlers once the stage of a connection is set. -/
theorem Server.idOf_set (engine : EngineState) (log : List Entry) (l : List Stage) (stage : Stage) (j : ℕ)
    (hi : i < l.length) : (Server.mk engine (l.set i stage) log).idOf j =
      if j = i then (Server.mk engine [stage] log).idOf 0 else (Server.mk engine l log).idOf j := by
  unfold idOf
  split_ifs with hji
  · subst hji
    simp [hi]
  · simp [List.getElem?_set_ne (Ne.symm hji)]

/-- A stage without a handler, or with the one that was there, makes no new handler. -/
theorem Server.idOf_of_set {engine : EngineState} {log : List Entry} {old stage : Stage} {i j : ℕ} {connId : Uuid}
    (hi : v.conns[i]? = some old)
    (hstage : ∀ c, (Server.mk engine [stage] log).idOf 0 = some c → v.idOf i = some c)
    (hj : (Server.mk engine (v.conns.set i stage) log).idOf j = some connId) : v.idOf j = some connId := by
  rw [Server.idOf_set _ _ _ _ _ (lt_of_getElem? hi)] at hj
  split_ifs at hj with hji
  · rw [hji]
    exact hstage connId hj
  · exact hj

theorem Server.Registered.part {a : ServerAct} (h : v.Registered) (hp : Part X v a v') : v'.Registered := by
  cases hp with
  | accept =>
    refine h.of_ids (fun j c hj => ?_) fun _ _ _ hc => hc
    by_cases hlt : j < v.conns.length
    · simpa [Server.idOf, List.getElem?_append_left hlt] using hj
    · rw [Server.idOf, List.getElem?_append_right (by omega)] at hj
      rcases hk : j - v.conns.length with _ | k <;> simp [hk] at hj
  | reject hi hs =>
    exact h.of_ids (fun j c => Server.idOf_of_set hi fun _ hc => nomatch hc) fun _ _ _ hc => hc
  | authenticate hi hr =>
    exact h.of_ids (fun j c => Server.idOf_of_set hi fun _ hc => nomatch hc) fun _ _ _ hc => hc
  | @launch i q userUuid account engine relay hi hfresh hd =>
    obtain ⟨tag, config, handler, -, -, -, rfl, -⟩ := dispatchConnection_engine hd
    have hself : (v.engine.registerConnection (connectionInfo X v.engine userUuid tag q)).connectionOf q.connId =
        some (connectionInfo X v.engine userUuid tag q) := EngineState.connectionOf_register_self ..
    have hother : ∀ j c, v.idOf j = some c → c ≠ q.connId := by
      rintro j c hj rfl
      have := h.present j _ hj
      simp [hfresh] at this
    have hold : ∀ {j c}, (if j = i then some q.connId else v.idOf j) = some c →
        (j = i ∧ c = q.connId) ∨ (j ≠ i ∧ v.idOf j = some c) := by
      intro j c hj
      split_ifs at hj with hji
      · exact .inl ⟨hji, (Option.some.inj hj).symm⟩
      · exact .inr ⟨hji, hj⟩
    constructor
    · intro j c hj
      rw [Server.idOf_set _ _ _ _ _ (lt_of_getElem? hi)] at hj
      rcases hold hj with ⟨-, rfl⟩ | ⟨-, hj⟩
      · simp [hself]
      · rw [EngineState.connectionOf_register_ne _ (hother j c hj)]
        exact h.present j c hj
    · intro j k c hj hk
      rw [Server.idOf_set _ _ _ _ _ (lt_of_getElem? hi)] at hj hk
      rcases hold hj with ⟨hji, rfl⟩ | ⟨hji, hj⟩ <;> rcases hold hk with ⟨hki, hc⟩ | ⟨hki, hk⟩
      · rw [hji, hki]
      · exact absurd rfl (hother k _ hk)
      · exact absurd hc (hother j _ hj)
      · exact h.distinct j k c hj hk
  | handler hi hsignal ho =>
    exact h.of_ids (fun j c => Server.idOf_of_set hi fun _ hc => (Server.idOf_relaying hi).trans hc)
      fun _ _ _ hc => hc
  | @close i first events connId account relay hi =>
    refine h.of_ids (fun j c => Server.idOf_of_set hi fun _ hc => nomatch hc) fun j c hj hc => ?_
    · rw [Server.idOf_set _ _ _ _ _ (lt_of_getElem? hi)] at hj
      split_ifs at hj with hji
      · cases hj
      · have hne : c ≠ connId := by
          rintro rfl
          exact hji (h.distinct j i c hj (Server.idOf_relaying hi))
        rw [EngineState.connectionOf_deregister_ne _ hne]
        exact hc
  | task hi ho =>
    exact h.of_ids (fun j c => Server.idOf_of_set hi fun _ hc => (Server.idOf_relaying hi).trans hc)
      fun _ _ _ hc => hc
  | taskDetached hi ho =>
    exact h.of_ids (fun j c => Server.idOf_of_set hi fun _ hc => nomatch hc) fun _ _ _ hc => hc
  | deleted hd =>
    refine h.of_ids (fun _ _ hj => hj) fun _ c _ hc => ?_
    rw [deleteUser_connectionOf hd, Option.isSome_map]
    exact hc
  | refused => exact h

end

/-! ## One connection among the others -/

/-- What has been forwarded for a connection, the latest first. -/
def sentBy (i : ℕ) : List Entry → List Egress
  | [] => []
  | .forwarded j _ e :: log => if j = i then e :: sentBy i log else sentBy i log
  | .deleted _ :: log => sentBy i log

@[simp] theorem sentBy_append (i : ℕ) (log log' : List Entry) :
    sentBy i (log ++ log') = sentBy i log ++ sentBy i log' := by
  induction log with
  | nil => rfl
  | cons e log ih =>
    cases e with
    | forwarded j a e =>
      simp only [List.cons_append, sentBy, ih]
      split_ifs <;> rfl
    | deleted id => exact ih

@[simp] theorem sentBy_forwarded (i j : ℕ) (a : Identity) (es : List Egress) :
    sentBy i (es.map (.forwarded j a)).reverse = if j = i then es.reverse else [] := by
  induction es with
  | nil => simp [sentBy]
  | cons e es ih =>
    simp only [List.map_cons, List.reverse_cons, sentBy_append, ih, sentBy]
    split_ifs <;> simp

/-- The relay of a connection satisfies `P`, or there is none any more. -/
def Stage.Holds (P : Relay → Prop) : Stage → Prop
  | relaying _ _ relay => P relay
  | detached _ relay => P relay
  | closed => True
  | _ => False

theorem Stage.Early.not_holds {P : Relay → Prop} {stage : Stage} (h : stage.Early) : ¬ stage.Holds P := by
  cases stage <;> simp_all [Stage.Early, Stage.Holds]

/-- `P` is kept by every step of a relay, and all that is forwarded satisfies `Q`. -/
structure Preserved (X : Crates) (P : Relay → Prop) (Q : Egress → Prop) : Prop where
  step : ∀ {s connId r e o}, P r → Relay.step X s connId r e = some o → P o.relay ∧ ∀ x ∈ o.sent, Q x
  task : ∀ {s r e o}, P r → Relay.task s r e = some o → P o.relay ∧ ∀ x ∈ o.sent, Q x
  detach : ∀ {r}, P r → P r.detach

/-- A connection whose relay satisfies `P`, with only new traffic that satisfies `Q` since `log`. -/
structure Server.Follows (P : Relay → Prop) (Q : Egress → Prop) (i : ℕ) (log : List Entry) (v : Server) :
    Prop where
  holds : ∃ stage, v.conns[i]? = some stage ∧ stage.Holds P
  sent : ∃ new, sentBy i v.log = new ++ sentBy i log ∧ ∀ x ∈ new, Q x

section

variable {X : Crates} {P : Relay → Prop} {Q : Egress → Prop} {i j : ℕ} {log : List Entry} {v v' : Server}

/-- The connection is in one stage only. -/
theorem Server.Follows.holds_of (h : v.Follows P Q i log) {stage : Stage} (hi : v.conns[i]? = some stage) :
    stage.Holds P := by
  obtain ⟨stage', hstage, hholds⟩ := h.holds
  obtain rfl := Option.some.inj (hi.symm.trans hstage)
  exact hholds

/-- The stage of another connection is set, or that of this one to one that satisfies `P`. -/
theorem Server.Follows.set {stage new : Stage} (engine : EngineState) (h : v.Follows P Q i log)
    (hj : v.conns[j]? = some stage) (hnew : stage.Holds P → new.Holds P) :
    Server.Follows P Q i log { v with engine := engine, conns := v.conns.set j new } := by
  refine ⟨?_, h.sent⟩
  by_cases hji : j = i
  · subst hji
    exact ⟨new, by simp [lt_of_getElem? hj], hnew (h.holds_of hj)⟩
  · obtain ⟨old, hold, hholds⟩ := h.holds
    exact ⟨old, (List.getElem?_set_ne hji).trans hold, hholds⟩

theorem Server.Follows.apply {account : Identity} {stage : Stage} {new : Relay → Stage} {o : Outcome}
    (h : v.Follows P Q i log) (hj : v.conns[j]? = some stage)
    (hP : stage.Holds P → (new o.relay).Holds P ∧ ∀ x ∈ o.sent, Q x) :
    (v.apply j account new o).Follows P Q i log := by
  have hset := h.set v.engine hj fun hs => (hP hs).1
  refine ⟨hset.holds, ?_⟩
  obtain ⟨old, hold, hQ⟩ := h.sent
  by_cases hji : j = i
  · subst hji
    refine ⟨o.sent.reverse ++ old, by simp [Server.apply, hold], fun x hx => ?_⟩
    rcases List.mem_append.mp hx with hx | hx
    · exact (hP (h.holds_of hj)).2 x (List.mem_reverse.mp hx)
    · exact hQ x hx
  · exact ⟨old, by simp [Server.apply, hji, hold], hQ⟩

theorem Server.Follows.part (hP : Preserved X P Q) {a : ServerAct} (h : v.Follows P Q i log)
    (hp : Part X v a v') : v'.Follows P Q i log := by
  cases hp with
  | accept =>
    obtain ⟨stage, hstage, hholds⟩ := h.holds
    exact ⟨⟨stage, (List.getElem?_append_left (lt_of_getElem? hstage)).trans hstage, hholds⟩, h.sent⟩
  | reject hj hs => exact h.set _ hj fun hholds => absurd hholds hs.not_holds
  | authenticate hj hr => exact h.set _ hj id
  | launch hj hfresh hd => exact h.set _ hj fun hholds => absurd hholds (Stage.Early.not_holds trivial)
  | handler hj hsignal ho => exact h.apply hj fun hholds => hP.step hholds ho
  | close hj => exact h.set _ hj hP.detach
  | task hj ho => exact h.apply hj fun hholds => hP.task hholds ho
  | taskDetached hj ho => exact h.apply hj fun hholds => hP.task hholds ho
  | deleted hd => exact ⟨h.holds, h.sent⟩
  | refused => exact h

/-- **A property that relays preserve, over a run**: all that is forwarded for the connection from
here on satisfies `Q`. -/
theorem sentBy_of_preserved (hP : Preserved X P Q) {stage : Stage} (hi : v.conns[i]? = some stage)
    (hholds : stage.Holds P) {as : List ServerAct} (h : Run.exec (serverStep X) v as = some v') :
    ∃ new, sentBy i v'.log = new ++ sentBy i v.log ∧ ∀ x ∈ new, Q x := by
  have hfollows : v.Follows P Q i v.log := ⟨⟨stage, hi, hholds⟩, [], rfl, fun x hx => nomatch hx⟩
  refine (Run.exec_invariant (fun w a w' hI hs => ?_) hfollows h).sent
  exact serverStep_invariant (C := fun _ _ => True) (fun _ _ _ hI _ hp => Server.Follows.part hP hI hp)
    (fun _ _ _ _ _ _ _ _ => ⟨trivial, trivial⟩) hI trivial hs

/-- The connection of a request that was dispatched. -/
theorem request_stage {userUuid : Uuid} {account : Identity} {q : InboundRequest}
    (hi : v.conns[i]? = some (.authenticated userUuid account))
    (h : serverStep X v (.request i q) = some v') :
    v'.log = v.log ∧
      ((∃ engine relay, dispatchConnection X v.engine userUuid q = .ok (some (engine, relay)) ∧
        v'.conns[i]? = some (.relaying q.connId account relay)) ∨ v'.conns[i]? = some .closed) := by
  have hlt := lt_of_getElem? hi
  simp only [serverStep, hi] at h
  unfold Server.request at h
  split at h
  · cases h
  · split at h
    · next engine relay hd =>
      obtain rfl := Option.some.inj h
      exact ⟨rfl, .inl ⟨engine, relay, hd, by simp [hlt]⟩⟩
    · obtain rfl := Option.some.inj h
      exact ⟨rfl, .inr (by simp [hlt])⟩

end

end RXCore
