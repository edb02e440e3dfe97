import RXCore.Router
import RXCore.Transport.Reality
import RXCore.State.UserMaps

/-!
# The engine state

`EngineState` with the functions of its `impl`. A swappable runtime pointer is an index into a
heap of slots; maps are association lists, and the order of their entries stands for the unspecified
order of a hash map. The engine runs on one thread, so that only a function that waits is interrupted;
here that is `create_reality_profile_and_listener` alone, which is cut in two.

* `EngineState.new`, `updateConfig`, `applyRoutingUpdate`, `persistConfigToDisk`;
* `checkRealityProfile`, `publishRealityProfile`;
* `authenticateClient`, `getUserSpeedLimit`, `isWarpAllowed`, `disconnectUser` and the other lookups;
* `Coherent`: the user map is that of the configuration; **`new_coherent`**, **`install_coherent`**.
-/

set_option autoImplicit false

namespace RXCore

open Encoding

structure ConnectionInfo where
  id : Uuid
  inboundTag : String
  clientIp : String
  destAddress : String
  sni : Option String
  outboundTag : String
  rx : ℕ
  tx : ℕ
  userUuid : Option Uuid
  /-- The sender of the shutdown signal is still in its place. -/
  shutdownTx : Bool

structure PersistRequest where
  generation : ℕ
  config : Config
  userSnapshots : AList fun _ : String => UserSnapshot

structure EngineState where
  config : Config
  routingTables : RouteModeTables
  heap : Heap
  /-- The next free reference. -/
  nextRef : ℕ
  users : UserMap
  stats : AList fun _ : String => ℕ
  subTokens : AList fun _ : Key => ℕ
  activeConnections : List ConnectionInfo
  warpHealth : ℕ
  dirty : Bool
  persistTx : List PersistRequest
  persistGen : ℕ
  realityRuntimes : AList fun _ : Uuid => RealityRuntime
  activeListeners : AList fun _ : UInt16 => ℕ
  slots : ℕ → Option RealityRuntime
  nextSlot : ℕ

/-- The room of the persistence queue. -/
def persistCapacity : ℕ := 32

/-! ## Construction and configuration updates -/

/-- The runtimes of the profiles for which one can be built. -/
def runtimesOfProfiles (X : Crates) (ps : List RealityProfile) : AList fun _ : Uuid => RealityRuntime :=
  ps.foldl (fun m p => match RealityRuntime.new X p with
    | .ok r => m.insert p.id r
    | .error _ => m) ∅

/-- The runtimes with that of one more profile, if it can be built. -/
def addRuntime (X : Crates) (m : AList fun _ : Uuid => RealityRuntime) (p : RealityProfile) :
    AList fun _ : Uuid => RealityRuntime :=
  match RealityRuntime.new X p with
  | .ok r => m.insert p.id r
  | .error _ => m

theorem runtimesOfProfiles_eq (X : Crates) (ps : List RealityProfile) :
    runtimesOfProfiles X ps = ps.foldl (addRuntime X) ∅ := rfl

theorem addRuntime_ok {X : Crates} {p : RealityProfile} {r : RealityRuntime} (h : RealityRuntime.new X p = .ok r)
    (m : AList fun _ : Uuid => RealityRuntime) : addRuntime X m p = m.insert p.id r := by
  rw [addRuntime, h]

theorem addRuntime_error {X : Crates} {p : RealityProfile} {e : String} (h : RealityRuntime.new X p = .error e)
    (m : AList fun _ : Uuid => RealityRuntime) : addRuntime X m p = m := by
  rw [addRuntime, h]

/-- `EngineState::new`. -/
def EngineState.new (X : Crates) (g : Draws) (config : Config) : EngineState :=
  let config := config.migrateIfNeeded X g
  let b := build X config
  { config := config
    routingTables := .compile X config
    heap := b.heap
    nextRef := b.nextRef
    users := b.users
    stats := b.stats
    subTokens := b.subTokens
    activeConnections := []
    warpHealth := 0
    dirty := false
    persistTx := []
    persistGen := 0
    realityRuntimes := runtimesOfProfiles X config.realityProfiles
    activeListeners := ∅
    slots := fun _ => none
    nextSlot := 0 }
where
  /-- What an unused reference holds; nothing reads it. -/
  defaultClient : Client := ⟨"", none, none, none, none, none, none, none, none, none, none, none, none,
    none, none⟩
  build (X : Crates) (config : Config) : UserMaps :=
    buildUserMaps X (fun c _ => c.email) ∅ (.start (fun _ => .ofClient defaultClient) 0) config.clients

/-- `EngineState::build_all_runtimes`. -/
def buildAllRuntimes (X : Crates) (config : Config) :
    Except String (AList fun _ : Uuid => RealityRuntime) :=
  config.realityProfiles.foldlM (fun m p => do
    let r ← RealityRuntime.new X p
    return m.insert p.id r) ∅

/-- The new runtimes go to the slots of the listeners on their profiles' ports. -/
def hotSwap (config : Config) (listeners : AList fun _ : UInt16 => ℕ)
    (slots : ℕ → Option RealityRuntime) (entries : List (Σ _ : Uuid, RealityRuntime)) :
    ℕ → Option RealityRuntime :=
  entries.foldl (fun slots e =>
    match config.realityProfiles.find? (·.id = e.1) with
    | none => slots
    | some p => match listeners.lookup p.port with
      | none => slots
      | some slot => Function.update slots slot (some e.2)) slots

namespace EngineState

/-- The part of `update_config` that cannot fail, once the runtimes are built. -/
def install (X : Crates) (s : EngineState) (newConfig : Config)
    (newRuntimes : AList fun _ : Uuid => RealityRuntime) : EngineState :=
  let b := buildUserMaps X (fun _ u => u.email) s.users (.start s.heap s.nextRef) newConfig.clients
  { s with
    realityRuntimes := newRuntimes
    slots := hotSwap newConfig s.activeListeners s.slots newRuntimes.entries
    routingTables := .compile X newConfig
    heap := b.heap
    nextRef := b.nextRef
    users := b.users
    stats := b.stats
    subTokens := b.subTokens
    config := newConfig
    dirty := true }

/-- `EngineState::update_config`. -/
def updateConfig (X : Crates) (s : EngineState) (newConfig : Config) : Except String EngineState := do
  refuseIf (newConfig.network.ipv4Only ≠ s.config.network.ipv4Only) "restart_required"
  let newRuntimes ← buildAllRuntimes X newConfig
  return s.install X newConfig newRuntimes

/-- The snapshots of all users, under the identifiers of their statistics. -/
def userSnapshots (s : EngineState) : AList fun _ : String => UserSnapshot :=
  s.users.entries.foldl (fun m e => m.insert (s.heap e.2.1).id (s.heap e.2.1).snapshot) ∅

/-- `EngineState::persist_config_to_disk`: a request for the worker, or the dirty flag when its queue
is full. -/
def persistConfigToDisk (s : EngineState) : EngineState :=
  let req : PersistRequest := ⟨s.persistGen + 1, s.config, s.userSnapshots⟩
  if s.persistTx.length < persistCapacity then
    { s with persistGen := s.persistGen + 1, persistTx := s.persistTx ++ [req] }
  else { s with persistGen := s.persistGen + 1, dirty := true }

/-- `EngineState::apply_routing_update`. -/
def applyRoutingUpdate (X : Crates) (s : EngineState) (newConfig : Config) : EngineState :=
  let config := { s.config with
    warpDomainSets := newConfig.warpDomainSets
    directExceptionSets := newConfig.directExceptionSets }
  { s with config := config, routingTables := .compile X config, dirty := true }.persistConfigToDisk

/-- The inbound of a profile made at run time. -/
def inboundOfProfile (p : RealityProfile) (listen : IpAddr) : InboundConfig where
  tag := p.inboundTag
  listen := listen
  port := p.port
  protocol := "vless"
  settings := ⟨some []⟩
  streamSettings := some ⟨"reality", none, some ⟨p.dest, p.serverNames, p.privateKey, p.shortIds⟩⟩

/-- `EngineState::create_reality_profile_and_listener` up to its first wait: the profile is validated,
and its name, port and tag are still free. -/
def checkRealityProfile (X : Crates) (s : EngineState) (profile : RealityProfile) :
    Except String RealityProfile := do
  let p ← profile.validateAndNormalize X
  refuseIf (s.config.realityProfiles.any fun q =>
    q.name == p.name || q.port == p.port || q.inboundTag == p.inboundTag)
    "CONFLICT: Duplicate profile name, port, or tag already exists"
  refuseIf (s.config.inbounds.any fun i => i.tag == p.inboundTag || i.port == p.port)
    "CONFLICT: Duplicate inbound tag or port already exists"
  refuseIf (s.activeListeners.lookup p.port).isSome
    "CONFLICT: Port is already bound in active listeners"
  return p

/-- The rest of it, once the runtime is built and the port is bound or refused. -/
def publishRealityProfile (X : Crates) (s : EngineState) (p : RealityProfile)
    (bind : Except String Unit) : EngineState × Except String RealityRuntime :=
  match RealityRuntime.new X p, bind with
  | .error e, _ => (s, .error e)
  | .ok _, .error e => (s, .error e)
  | .ok runtime, .ok () =>
    let s := { s with
      activeListeners := s.activeListeners.insert p.port s.nextSlot
      slots := Function.update s.slots s.nextSlot (some runtime)
      nextSlot := s.nextSlot + 1
      realityRuntimes := s.realityRuntimes.insert p.id runtime
      config := { s.config with realityProfiles := s.config.realityProfiles ++ [p] } }
    match parseIpAddr p.listen with
    | none => (s, .error "invalid IP address syntax")
    | some listen =>
      let config := { s.config with inbounds := s.config.inbounds ++ [inboundOfProfile p listen] }
      ({ s with config := config }.persistConfigToDisk, .ok runtime)

/-! ## Lookups and counters -/

/-- `EngineState::authenticate_client` at the time `now`, in seconds. -/
def authenticateClient (s : EngineState) (now : ℤ) (id : Uuid) : Option (ℕ × ClientRouteMode) :=
  match s.users.lookup id with
  | none => none
  | some (r, mode) =>
    let u := s.heap r
    if 0 < u.expiryTime ∧ u.expiryTime < now then none
    else if u.remainingBytes ≠ -1 ∧ u.remainingBytes ≤ 0 then none
    else some (r, mode)

/-- `EngineState::get_user_speed_limit`: megabits per second as bytes per second. -/
def getUserSpeedLimit (s : EngineState) (id : Uuid) : Option ℕ :=
  match s.users.lookup id with
  | none => none
  | some (r, _) =>
    let limit := (s.heap r).speedLimit
    if 0 < limit then some (limit * 1000000 / 8) else none

/-- `EngineState::is_warp_allowed`: the health is neither down nor an open circuit. -/
def isWarpAllowed (s : EngineState) : Bool := s.warpHealth != 3 && s.warpHealth != 4

/-- `EngineState::get_user_stats`. -/
def getUserStats (s : EngineState) (email : Option String) : Option ℕ := email.bind s.stats.lookup

/-- The entry of a connection in the registry. -/
def connectionOf (s : EngineState) (connId : Uuid) : Option ConnectionInfo :=
  s.activeConnections.find? (·.id == connId)

/-- `EngineState::register_connection`. -/
def registerConnection (s : EngineState) (c : ConnectionInfo) : EngineState :=
  { s with activeConnections := c :: s.activeConnections.filter (·.id ≠ c.id) }

/-- `EngineState::deregister_connection`. -/
def deregisterConnection (s : EngineState) (id : Uuid) : EngineState :=
  { s with activeConnections := s.activeConnections.filter (·.id ≠ id) }

/-- `EngineState::disconnect_user`: the shutdown signal of every registered connection of the user is
sent. -/
def disconnectUser (X : Crates) (s : EngineState) (userId : String) : EngineState :=
  match X.parseUuid userId with
  | none => s
  | some u => { s with activeConnections := s.activeConnections.map fun c =>
      if c.userUuid = some u then { c with shutdownTx := false } else c }

/-- One `UserStats` changed. -/
def modifyUser (s : EngineState) (r : ℕ) (f : UserStats → UserStats) : EngineState :=
  { s with heap := Function.update s.heap r (f (s.heap r)) }

/-- `EngineState::record_rx` and `EngineState::record_tx`. -/
def recordBytes (s : EngineState) (d : Direction) (connId : Uuid) (bytes : ℕ) (user : Option ℕ) :
    EngineState :=
  let s := match user with
    | some r => s.modifyUser r fun u => u.record d bytes
    | none => s
  { s with
    activeConnections := s.activeConnections.map fun c =>
      if c.id = connId then
        match d with
        | .rx => { c with rx := c.rx + bytes }
        | .tx => { c with tx := c.tx + bytes }
      else c
    dirty := true }

theorem connectionOf_register_self (s : EngineState) (c : ConnectionInfo) :
    (s.registerConnection c).connectionOf c.id = some c := by
  simp [connectionOf, registerConnection]

theorem connectionOf_register_ne (s : EngineState) {c : ConnectionInfo} {connId : Uuid}
    (h : connId ≠ c.id) : (s.registerConnection c).connectionOf connId = s.connectionOf connId := by
  have hfilter : ∀ l : List ConnectionInfo, (l.filter (·.id ≠ c.id)).find? (·.id == connId) =
      l.find? (·.id == connId) := by
    intro l
    rw [List.find?_filter]
    refine List.find?_congr fun e _ => ?_
    by_cases he : e.id = connId <;> simp [he, h]
  simp only [connectionOf, registerConnection, List.find?_cons, beq_eq_false_iff_ne.mpr (Ne.symm h)]
  exact hfilter _

theorem connectionOf_deregister_ne (s : EngineState) {id connId : Uuid} (h : connId ≠ id) :
    (s.deregisterConnection id).connectionOf connId = s.connectionOf connId := by
  simp only [connectionOf, deregisterConnection, List.find?_filter]
  refine List.find?_congr fun e _ => ?_
  by_cases he : e.id = connId <;> simp [he, h]

/-- A disconnected user leaves its entries where they are, without their senders. -/
theorem connectionOf_disconnectUser (X : Crates) (s : EngineState) (userId : String) (connId : Uuid) :
    (s.disconnectUser X userId).connectionOf connId = (s.connectionOf connId).map fun c =>
      if (X.parseUuid userId).isSome ∧ c.userUuid = X.parseUuid userId then { c with shutdownTx := false }
      else c := by
  unfold disconnectUser
  cases hu : X.parseUuid userId with
  | none => simp
  | some u =>
    simp only [connectionOf, List.find?_map, Option.isSome_some, true_and]
    congr 1
    refine List.find?_congr fun c _ => ?_
    by_cases hc : c.userUuid = some u <;> simp [hc]

/-! ## Coherence -/

theorem updateConfig_ok {X : Crates} {s s' : EngineState} {cfg : Config}
    (h : s.updateConfig X cfg = .ok s') :
    ∃ runtimes, buildAllRuntimes X cfg = .ok runtimes ∧ s' = s.install X cfg runtimes := by
  simp only [updateConfig, bind_ok] at h
  obtain ⟨-, -, runtimes, hr, h⟩ := h
  exact ⟨runtimes, hr, (Except.ok.inj h).symm⟩

/-- An update that is accepted does not change the network mode. -/
theorem updateConfig_mode {X : Crates} {s s' : EngineState} {cfg : Config}
    (h : s.updateConfig X cfg = .ok s') : cfg.network.ipv4Only = s.config.network.ipv4Only := by
  simp only [updateConfig, bind_ok] at h
  obtain ⟨_, hsame, -⟩ := h
  exact not_not.mp (refuseIf_ok.mp hsame)

theorem modifyUser_id (s : EngineState) (user : ℕ) {f : UserStats → UserStats}
    (hf : ∀ u, (f u).id = u.id) (r : ℕ) : ((s.modifyUser user f).heap r).id = (s.heap r).id := by
  by_cases h : r = user
  · subst h
    simp only [modifyUser, Function.update_self, hf]
  · simp only [modifyUser, Function.update_of_ne h]

theorem modifyUser_remaining (s : EngineState) (user : ℕ) (f : UserStats → UserStats) (r : ℕ) :
    ((s.modifyUser user f).heap r).remainingBytes =
      if user = r then (f (s.heap r)).remainingBytes else (s.heap r).remainingBytes := by
  rw [modifyUser]
  dsimp only
  split_ifs with h
  · rw [h, Function.update_self]
  · rw [Function.update_of_ne (Ne.symm h)]

theorem persistConfigToDisk_frame (s : EngineState) :
    s.persistConfigToDisk.users = s.users ∧ s.persistConfigToDisk.heap = s.heap ∧
      s.persistConfigToDisk.nextRef = s.nextRef ∧ s.persistConfigToDisk.config = s.config := by
  rw [persistConfigToDisk]
  split_ifs <;> exact ⟨rfl, rfl, rfl, rfl⟩

end EngineState

/-- The user map is the one that the configuration gives. -/
structure Coherent (X : Crates) (s : EngineState) : Prop where
  found : ∀ c ∈ s.config.clients, ∀ u ∈ c.claims X, ∃ r, owner s.users u = some r
  owned : ∀ u r, owner s.users u = some r → ∃ c ∈ s.config.clients, u ∈ c.claims X ∧
    (s.heap r).id = c.id ∧ (X.parseUuid c.id).bind (owner s.users) = some r
  bound : ∀ u r, owner s.users u = some r → r < s.nextRef

section

variable {X : Crates} {s : EngineState}

/-- Coherence is about the map, the accounts and the identifiers of their statistics. -/
theorem Coherent.of_eq (hs : Coherent X s) {s' : EngineState} (husers : s'.users = s.users)
    (hclients : s'.config.clients = s.config.clients) (hnext : s'.nextRef = s.nextRef)
    (hid : ∀ r, (s'.heap r).id = (s.heap r).id) : Coherent X s' := by
  refine ⟨?_, ?_, ?_⟩
  · rw [husers, hclients]
    exact hs.found
  · intro u r h
    rw [husers] at h ⊢
    obtain ⟨c, hc, hcu, hcid, hr⟩ := hs.owned u r h
    rw [hclients, hid]
    exact ⟨c, hc, hcu, hcid, hr⟩
  · rw [husers, hnext]
    exact hs.bound

/-- Statistics with the identifier of a client are the ones under its UUID. -/
theorem Coherent.ref_eq (hs : Coherent X s) {u : Uuid} {r : ℕ} (h : owner s.users u = some r) :
    (X.parseUuid (s.heap r).id).bind (owner s.users) = some r := by
  obtain ⟨c, -, -, hid, h⟩ := hs.owned u r h
  rw [hid]
  exact h

/-- What is under the UUID of a client carries its identifier. -/
theorem Coherent.id_eq (hs : Coherent X s) (hd : Distinct X s.config.clients) {c : Client}
    (hc : c ∈ s.config.clients) {u : Uuid} (hu : u ∈ c.claims X) {r : ℕ}
    (h : owner s.users u = some r) : (s.heap r).id = c.id := by
  obtain ⟨d, hmem, hdu, hid, -⟩ := hs.owned u r h
  rw [hid]
  exact hd d hmem c hc u hdu hu

/-- A map built over accounts that keep their statistics is coherent. -/
theorem Built.coherent {old : UserMap} {heap : Heap} {next : ℕ} {b : UserMaps}
    (hb : Built X old heap next s.config.clients b) (hd : Distinct X s.config.clients)
    (hold : ∀ c ∈ s.config.clients, ∀ u r, X.parseUuid c.id = some u → owner old u = some r →
      (heap r).id = c.id ∧ r < next)
    (husers : s.users = b.users) (hheap : s.heap = b.heap) (hnext : s.nextRef = b.nextRef) :
    Coherent X s := by
  refine ⟨?_, fun u r h => ?_, fun u r h => ?_⟩
  · rw [husers]
    exact hb.found
  · rw [husers] at h ⊢
    obtain ⟨c, hc, hcu, hlocal⟩ := hb.owned u r h
    obtain ⟨v, hv, horigin⟩ := hb.origin c.id r hlocal
    refine ⟨c, hc, hcu, ?_, ?_⟩
    · rw [hheap]
      rcases horigin with h | ⟨-, -, d, -, hid, h⟩
      · obtain ⟨hid, hlt⟩ := hold c hc v r hv h
        exact (hb.kept r hlt).1.trans hid
      · rw [h]
        exact hid
    · -- the last client to claim the UUID has the same identifier
      rw [hv]
      change owner b.users v = some r
      have hcv := Client.mem_claims_self hv
      obtain ⟨r', hr'⟩ := hb.found c hc v hcv
      obtain ⟨d, hdmem, hdv, hlocal'⟩ := hb.owned v r' hr'
      rw [hd d hdmem c hc v hdv hcv, hlocal] at hlocal'
      rw [hr', hlocal']
  · rw [hnext]
    rw [husers] at h
    obtain ⟨c, -, -, hlocal⟩ := hb.owned u r h
    exact hb.bound c.id r hlocal

/-- The maps of a start. -/
theorem new_built (X : Crates) (g : Draws) (config : Config) :
    Built X ∅ (fun _ => .ofClient EngineState.new.defaultClient) 0 (config.migrateIfNeeded X g).clients
      (EngineState.new.build X (config.migrateIfNeeded X g)) := by
  have hnone : ∀ u r, owner ∅ u = some r → r < 0 := fun _ _ h => nomatch h
  exact buildUserMaps_built hnone _

/-- The maps of an update. -/
theorem install_built (hbound : ∀ u r, owner s.users u = some r → r < s.nextRef) (cfg : Config) :
    Built X s.users s.heap s.nextRef cfg.clients
      (buildUserMaps X (fun _ u => u.email) s.users (.start s.heap s.nextRef) cfg.clients) :=
  buildUserMaps_built hbound _

/-- After a start every reference is to statistics that exist. -/
theorem new_bound (g : Draws) (config : Config) (u : Uuid) (r : ℕ)
    (h : owner (EngineState.new X g config).users u = some r) : r < (EngineState.new X g config).nextRef := by
  obtain ⟨c, -, -, hlocal⟩ := (new_built X g config).owned u r h
  exact (new_built X g config).bound c.id r hlocal

/-- **Coherence after a start.** -/
theorem new_coherent (g : Draws) {config : Config}
    (hd : Distinct X (config.migrateIfNeeded X g).clients) : Coherent X (EngineState.new X g config) := by
  exact Built.coherent (s := EngineState.new X g config) (new_built X g config) hd
    (fun _ _ _ _ _ h => nomatch h) rfl rfl rfl

/-- **Coherence after a change of the configuration**, if the accounts before and after it are
distinct. -/
theorem install_coherent (hs : Coherent X s) {cfg : Config}
    (hd : Distinct X (s.config.clients ++ cfg.clients))
    (runtimes : AList fun _ : Uuid => RealityRuntime) : Coherent X (s.install X cfg runtimes) := by
  have hb := install_built (X := X) hs.bound cfg
  have hnew : ∀ c ∈ cfg.clients, c ∈ s.config.clients ++ cfg.clients :=
    fun c hc => List.mem_append_right _ hc
  refine Built.coherent (s := s.install X cfg runtimes) hb
    (fun c hc d hdm => hd c (hnew c hc) d (hnew d hdm)) (fun c hc u r hu h => ?_) rfl rfl rfl
  obtain ⟨d, hdm, hdu, hid, -⟩ := hs.owned u r h
  refine ⟨?_, hs.bound u r h⟩
  rw [hid]
  exact hd d (List.mem_append_left _ hdm) c (hnew c hc) u hdu (Client.mem_claims_self hu)

end

end RXCore
