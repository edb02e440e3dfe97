import RXCore.Dispatcher
import RXCore.Inbound.Tunnel

/-!
# IPv4-only mode

The addresses that a server contacts while its connections, updates of its configuration and the tunnel of
the SOCKS5 inbound take their steps in any order.

* `networkStep`, `Server.contacts`: the steps, and the addresses that a step connects to or sends to;
* `Server.Filtered`: the operating system tries IPv4 addresses only, for the connections that leave the
  choice to it: those of a fragmenting handler, of a UDP handler to its proxy, and of a tunnel;
* **`contacts_isIpv4_iff`**: exactly then everything that is contacted in IPv4-only mode is IPv4;
* **`fragment_contacts_ipv6`**: a destination that is fragmented and has an IPv6 address.
-/

set_option autoImplicit false

namespace RXCore

open Parties

inductive NetworkAct where
  | server (a : ServerAct)
  | update (cfg : Config)
  /-- A tunnel is established. -/
  | tunnel (c : Connect)

def networkStep (X : Crates) (v : Server) : NetworkAct → Option Server
  | .server a => serverStep X v a
  | .update cfg => match v.engine.updateConfig X cfg with
    | .ok engine => some { v with engine := engine }
    | .error _ => some v
  | .tunnel _ => some v

namespace Server

/-- The relay of a connection whose handler runs. -/
def relayOf (v : Server) (i : ℕ) : Option Relay :=
  match v.conns[i]? with
  | some (.relaying _ _ relay) => some relay
  | _ => none

/-- The addresses that a step of a handler contacts. -/
def eventContacts (v : Server) (i : ℕ) (e : RelayEvent) : List SocketAddr :=
  match v.relayOf i with
  | some relay => relay.contacts v.engine.config.network.ipv4Only e
  | none => []

/-- The addresses that the steps of a poll contact. -/
def pollContacts (X : Crates) (i : ℕ) : Server → List RelayEvent → List SocketAddr
  | _, [] => []
  | v, e :: events => v.eventContacts i e ++ match v.handlerStep X i e with
    | some w => pollContacts X i w events
    | none => []

/-- **The addresses that a step contacts.** -/
def contacts (X : Crates) (v : Server) : NetworkAct → List SocketAddr
  | .server (.poll i shutdownFirst events) => match v.idOf i with
    | some connId =>
      if v.engine.signalled connId ∧ shutdownFirst then [] else v.pollContacts X i events
    | none => []
  | .tunnel c => tunnelContacts c.answers v.engine
  | _ => []

/-- The operating system tries IPv4 addresses only, in a step of a handler. -/
def EventFiltered (v : Server) (i : ℕ) (e : RelayEvent) : Prop := ∀ relay ∈ v.relayOf i, relay.Filtered e

/-- The operating system tries IPv4 addresses only, for connections that leave the choice to it. -/
def Filtered (X : Crates) (v : Server) : NetworkAct → Prop
  | .server (.poll i shutdownFirst events) => ∀ connId ∈ v.idOf i,
    ¬ (v.engine.signalled connId ∧ shutdownFirst) →
      Run.Meets (handlerStep X i) (fun w e => w.EventFiltered i e) v events
  | .tunnel c => AllIpv4 (tunnelContacts c.answers v.engine)
  | _ => True

/-- The server is in IPv4-only mode, and the sessions of its handlers send to IPv4 addresses. -/
structure OnIpv4 (v : Server) : Prop where
  mode : v.engine.config.network.ipv4Only = true
  sends : ∀ i relay, v.relayOf i = some relay → relay.SendsIpv4

end Server

section

variable {X : Crates} {v v' : Server} {i : ℕ}

theorem Server.relayOf_eq_some {relay : Relay} :
    v.relayOf i = some relay ↔ ∃ connId account, v.conns[i]? = some (.relaying connId account relay) := by
  unfold relayOf
  constructor
  · intro h
    split at h
    · next connId account r hi =>
      obtain rfl := Option.some.inj h
      exact ⟨connId, account, hi⟩
    · cases h
  · rintro ⟨connId, account, hi⟩
    simp [hi]

/-- A stage is set to one whose relay, if its handler runs, sends to IPv4 addresses. -/
theorem Server.OnIpv4.set {engine : EngineState} {stage : Stage} {log : List Entry} (h : v.OnIpv4)
    (hmode : engine.config.network = v.engine.config.network)
    (hstage : ∀ connId account relay, stage = .relaying connId account relay → relay.SendsIpv4) :
    Server.OnIpv4 ⟨engine, v.conns.set i stage, log⟩ := by
  refine ⟨by rw [hmode]; exact h.mode, fun j relay hj => ?_⟩
  obtain ⟨connId, account, hj⟩ := relayOf_eq_some.mp hj
  rcases getElem?_set_cases hj with ⟨-, heq⟩ | ⟨-, hj⟩
  · exact hstage connId account relay heq.symm
  · exact h.sends j relay (relayOf_eq_some.mpr ⟨connId, account, hj⟩)

theorem Server.OnIpv4.handlerStep {e : RelayEvent} (h : v.OnIpv4) (hs : v.handlerStep X i e = some v') :
    v'.OnIpv4 := by
  unfold Server.handlerStep at hs
  split at hs
  · next connId account relay hi =>
    obtain ⟨o, ho, rfl⟩ := Option.map_eq_some_iff.mp hs
    refine h.set rfl fun c a r hr => ?_
    obtain ⟨-, -, rfl⟩ := by simpa using hr
    exact (h.sends i relay (relayOf_eq_some.mpr ⟨connId, account, hi⟩)).step h.mode ho
  · cases hs

theorem persistConfigToDisk_network (s : EngineState) :
    s.persistConfigToDisk.config.network = s.config.network := by
  rw [s.persistConfigToDisk_frame.2.2.2]

theorem deleteUser_network {s s' : EngineState} {id : String} {reply : Reply}
    (h : deleteUser X s id = (s', reply)) : s'.config.network = s.config.network := by
  unfold deleteUser at h
  dsimp only at h
  split at h
  · rw [← (Prod.mk.inj h).1]
  · next t ht =>
    obtain ⟨runtimes, -, rfl⟩ := EngineState.updateConfig_ok ht
    obtain ⟨conns, heq⟩ := EngineState.disconnectUser_frame X
      (s.install X { s.config with inbounds := s.config.inbounds.map (·.removeClient id) } runtimes) id
    rw [← (Prod.mk.inj h).1, persistConfigToDisk_network, heq]
    rfl

/-- A part of a step stays on IPv4. -/
theorem Server.OnIpv4.part {a : ServerAct} (h : v.OnIpv4) (hp : Part X v a v') : v'.OnIpv4 := by
  cases hp with
  | accept =>
    refine ⟨h.mode, fun j relay hj => ?_⟩
    obtain ⟨connId, account, hj⟩ := relayOf_eq_some.mp hj
    by_cases hlt : j < v.conns.length
    · rw [List.getElem?_append_left hlt] at hj
      exact h.sends j relay (relayOf_eq_some.mpr ⟨connId, account, hj⟩)
    · rw [List.getElem?_append_right (by omega)] at hj
      rcases hk : j - v.conns.length with _ | k <;> simp [hk] at hj
  | reject hi hs => exact h.set rfl fun _ _ _ hr => nomatch hr
  | authenticate hi hr => exact h.set rfl fun _ _ _ hr => nomatch hr
  | launch hi hfresh hd =>
    obtain ⟨tag, config, handler, -, -, -, rfl, rfl⟩ := dispatchConnection_engine hd
    refine h.set rfl fun c a r hr => ?_
    obtain ⟨-, -, rfl⟩ := by simpa using hr
    trivial
  | @handler i first connId account relay e o hi hsignal ho =>
    refine h.set rfl fun c a r hr => ?_
    obtain ⟨-, -, rfl⟩ := by simpa using hr
    exact (h.sends i relay (relayOf_eq_some.mpr ⟨connId, account, hi⟩)).step h.mode ho
  | close hi => exact h.set rfl fun _ _ _ hr => nomatch hr
  | @task i e connId account relay o hi ho =>
    refine h.set rfl fun c a r hr => ?_
    obtain ⟨-, -, rfl⟩ := by simpa using hr
    exact (h.sends i relay (relayOf_eq_some.mpr ⟨connId, account, hi⟩)).task ho
  | taskDetached hi ho => exact h.set rfl fun _ _ _ hr => nomatch hr
  | deleted hd => exact ⟨by rw [deleteUser_network hd]; exact h.mode, h.sends⟩
  | refused => exact h

/-- **One step.** -/
theorem Server.OnIpv4.step {a : NetworkAct} (h : v.OnIpv4) (hs : networkStep X v a = some v') :
    v'.OnIpv4 := by
  cases a with
  | server a =>
    exact serverStep_invariant (C := fun _ _ => True) (fun _ _ _ hI _ hp => Server.OnIpv4.part hI hp)
      (fun _ _ _ _ _ _ _ _ => ⟨trivial, trivial⟩) h trivial hs
  | update cfg =>
    rw [networkStep] at hs
    split at hs
    · next engine hok =>
      obtain rfl := Option.some.inj hs
      have hmode := EngineState.updateConfig_mode hok
      obtain ⟨runtimes, -, rfl⟩ := EngineState.updateConfig_ok hok
      exact ⟨hmode.trans h.mode, h.sends⟩
    · obtain rfl := Option.some.inj hs
      exact h
  | tunnel c =>
    obtain rfl := Option.some.inj hs
    exact h

/-- A step of a handler contacts IPv4 addresses only, exactly when the operating system does. -/
theorem Server.OnIpv4.eventContacts_iff (h : v.OnIpv4) (i : ℕ) (e : RelayEvent) :
    AllIpv4 (v.eventContacts i e) ↔ v.EventFiltered i e := by
  unfold Server.eventContacts Server.EventFiltered
  cases hr : v.relayOf i with
  | none => simp
  | some relay =>
    rw [h.mode]
    simpa using Relay.contacts_allIpv4_iff (h.sends i relay hr) e

theorem Server.OnIpv4.pollContacts_iff (h : v.OnIpv4) {events : List RelayEvent}
    (hs : Run.exec (Server.handlerStep X i) v events = some v') :
    AllIpv4 (v.pollContacts X i events) ↔
      Run.Meets (Server.handlerStep X i) (fun w e => w.EventFiltered i e) v events := by
  induction events generalizing v with
  | nil => exact iff_of_true allIpv4_nil trivial
  | cons e events ih =>
    obtain ⟨w, hw, hs⟩ := Run.exec_cons_some hs
    rw [Server.pollContacts, hw, Run.meets_cons hw, allIpv4_append, h.eventContacts_iff,
      ih (h.handlerStep hw) hs]

/-- The addresses of one step are IPv4 exactly when it is filtered. -/
theorem Server.OnIpv4.contacts_iff {a : NetworkAct} (h : v.OnIpv4) (hs : networkStep X v a = some v') :
    AllIpv4 (v.contacts X a) ↔ v.Filtered X a := by
  cases a with
  | server a =>
    cases a with
    | poll i first events =>
      simp only [networkStep, serverStep] at hs
      split at hs
      · next connId account relay hi =>
        unfold Server.poll at hs
        simp only [Server.contacts, Server.Filtered, Server.idOf_relaying hi, Option.mem_some_iff, forall_eq']
        split_ifs at hs ⊢ with hclosed
        · simp [hclosed]
        · obtain ⟨w, hw, -⟩ := Option.map_eq_some_iff.mp hs
          rw [h.pollContacts_iff hw]
          exact ⟨fun hm _ => hm, fun hm => hm hclosed⟩
      · cases hs
    | _ => simp [Server.contacts, Server.Filtered]
  | update cfg => simp [Server.contacts, Server.Filtered]
  | tunnel c => rfl

/-- A server on a configuration, before the first connection. -/
def Server.fresh (X : Crates) (g : Draws) (config : Config) : Server := ⟨.new X g config, [], []⟩

/-- **In IPv4-only mode every address that is contacted is IPv4 if and only if the operating system tries
IPv4 addresses only**, where the choice is left to it. -/
theorem contacts_isIpv4_iff (g : Draws) {config : Config} (hmode : config.network.ipv4Only = true)
    (as : List NetworkAct) :
    Run.Meets (networkStep X) (fun v a => AllIpv4 (v.contacts X a)) (.fresh X g config) as ↔
      Run.Meets (networkStep X) (Server.Filtered X) (.fresh X g config) as := by
  have hfresh : (Server.fresh X g config).OnIpv4 := by
    refine ⟨?_, fun i relay hr => ?_⟩
    · exact (congrArg NetworkConfig.ipv4Only (migrateIfNeeded_network X g config)).trans hmode
    · simp [Server.relayOf, Server.fresh] at hr
  exact Run.meets_iff_of_invariant (fun _ _ _ h hs => h.step hs) (fun _ _ _ h hs => h.contacts_iff hs) hfresh as

end

/-! ## A destination that is fragmented -/

/-- A network in which every name has one address. -/
def networkWith (addr : IpAddr) : Answers where
  resolve _ port _ := .ok [(.new 8 8 8 8, port)]
  lookupHost _ port := .ok [⟨addr, port⟩]
  accepts _ := .ok ()
  connect _ _ _ := .ok ()
  deadline _ := false
  socksConnect _ := .ok ()
  socksAssociate _ _ := .ok ⟨.v4 .localhost, 40001⟩
  bindUdp := .ok ()
  udpConnect _ := .ok ()

/-- The UUID of the account of the built-in configuration. -/
def testUserUuid : Uuid := builtInUuid

def toTiktok : InboundRequest :=
  ⟨⟨"tiktok.com", 443⟩, 1, "vless-inbound", "192.0.2.1:50000", none, Vector.replicate 16 9, []⟩

def ipv4Draws : Draws := ⟨fun n => Vector.replicate 16 (UInt8.ofNat (n + 1)), 0⟩

/-- The account of the built-in configuration connects to a site that is fragmented. -/
def fragmentRun (addr : IpAddr) : List NetworkAct :=
  [.server .accept, .server (.authenticate 0 testUserUuid 0), .server (.request 0 toTiktok),
    .server (.poll 0 false [.connect ⟨networkWith addr, false, .ok (), .ok [0, 0], [], 0⟩])]

/-- A site whose address is IPv4. -/
theorem contacts_isIpv4_iff_fragment :
    Run.Meets (networkStep Sample.crates) (fun v a => AllIpv4 (v.contacts Sample.crates a))
      (.fresh Sample.crates ipv4Draws builtInConfig) (fragmentRun (.v4 (.new 1 1 1 1))) ∧
    Run.Meets (networkStep Sample.crates) (Server.Filtered Sample.crates)
      (.fresh Sample.crates ipv4Draws builtInConfig) (fragmentRun (.v4 (.new 1 1 1 1))) :=
  have h : Run.Meets (networkStep Sample.crates) (fun v a => AllIpv4 (v.contacts Sample.crates a))
      (.fresh Sample.crates ipv4Draws builtInConfig) (fragmentRun (.v4 (.new 1 1 1 1))) := by
    decide
  ⟨h, (contacts_isIpv4_iff ipv4Draws rfl _).mp h⟩

/-- **A site whose first address is IPv6** is contacted there in IPv4-only mode: the handler leaves the
choice to the operating system. -/
theorem fragment_contacts_ipv6 :
    builtInConfig.network.ipv4Only = true ∧
    ¬ Run.Meets (networkStep Sample.crates) (fun v a => AllIpv4 (v.contacts Sample.crates a))
      (.fresh Sample.crates ipv4Draws builtInConfig)
      (fragmentRun (.v6 ⟨#v[0x2001, 0xdb8, 0, 0, 0, 0, 0, 1]⟩)) := by
  decide

end RXCore
