import RXCore.State.Engine

/-!
# The control plane

The handlers of the HTTP interface that change accounts and profiles, with their replies. Random tokens
and identifiers and the time are drawn by the caller. A handler that waits for a new listener is cut in
two there.

* `createUser`, `deleteUser`, `addQuota`, `regenerateSubToken`;
* `startVpnAccount`, `finishVpnAccount`: `create_vpn_account` around the creation of a custom profile;
* `Client.CompatibleWith`: a new account takes no UUID of another one;
* `Committed`, **`createUser_committed`** and its like: a handler leaves the engine as it was, or it ends
  in a request for persistence, in a coherent state with distinct accounts.
-/

set_option autoImplicit false

namespace RXCore

open Encoding

/-- The replies of the handlers. -/
inductive Reply where
  /-- `Json(true)` or `Json(false)`. -/
  | done (ok : Bool)
  /-- A status code and a text. -/
  | refused (status : ℕ) (body : String)
  /-- The new subscription token. -/
  | subToken (rawTokenHex : String)
  /-- A new account with its subscription token. -/
  | account (rawTokenHex : String)
deriving DecidableEq

/-- A drawn token in hexadecimal, as it is handed out. -/
def rawTokenHex (tokenBytes : List UInt8) : String := hexEncode tokenBytes

/-- The hash of it that is stored. -/
def tokenHashHex (X : Crates) (tokenBytes : List UInt8) : String :=
  hexEncode (X.sha256 (utf8 (rawTokenHex tokenBytes)))

/-! ## Accounts -/

/-- A new client at the end of an inbound that has clients, unless its identifier is there. -/
def InboundConfig.pushClient (c : Client) (i : InboundConfig) : InboundConfig :=
  match i.settings.clients with
  | some cs => if cs.any (·.id == c.id) then i else { i with settings := ⟨some (cs ++ [c])⟩ }
  | none => i

/-- `create_user`. -/
def createUser (X : Crates) (s : EngineState) (newClient : Client) : EngineState × Reply :=
  let config := { s.config with inbounds := s.config.inbounds.map (·.pushClient newClient) }
  match s.updateConfig X config with
  | .error e => (s, .refused 400 ("Failed to update config: " ++ e))
  | .ok s => (s.persistConfigToDisk, .done true)

/-- `clients.retain(|c| c.id != id)`. -/
def InboundConfig.removeClient (id : String) (i : InboundConfig) : InboundConfig :=
  { i with settings := ⟨i.settings.clients.map fun cs => cs.filter (·.id != id)⟩ }

/-- `delete_user`. -/
def deleteUser (X : Crates) (s : EngineState) (id : String) : EngineState × Reply :=
  let config := { s.config with inbounds := s.config.inbounds.map (·.removeClient id) }
  match s.updateConfig X config with
  | .error e => (s, .refused 400 ("Failed to update config: " ++ e))
  | .ok s => ((s.disconnectUser X id).persistConfigToDisk, .done true)

/-- `add_quota`. -/
def addQuota (s : EngineState) (id : String) (amountGb : ℚ) : EngineState × Reply :=
  match s.users.entries.find? fun e => (s.heap e.2.1).id == id with
  | some e => ((s.modifyUser e.2.1 (·.addQuota amountGb)).persistConfigToDisk, .done true)
  | none => (s, .done false)

/-- `regenerate_sub_token`. -/
def regenerateSubToken (X : Crates) (s : EngineState) (id : String) (tokenBytes : List UInt8) :
    EngineState × Reply :=
  let config := s.config.mapClients fun c =>
    if c.id = id then { c with subTokenHash := some (tokenHashHex X tokenBytes) } else c
  if s.config.clients.any (·.id == id) then
    match s.updateConfig X config with
    | .error e => (s, .refused 400 ("Failed to update configuration: " ++ e))
    | .ok s => (s.persistConfigToDisk, .subToken (rawTokenHex tokenBytes))
  else (s, .refused 404 "User not found")

/-! ## Accounts with a connection mode -/

structure CustomRealityProfilePayload where
  name : String
  inboundTag : String
  listen : String
  port : UInt16
  dest : String
  serverNames : List String
  privateKey : String
  shortIds : List String
  fingerprint : String

structure CreateVpnAccountPayload where
  email : String
  id : String
  totalGb : Option ℕ
  speedLimit : Option ℕ
  expiryTime : Option ℤ
  connectionMode : String
  realityProfileId : Option Uuid
  customRealityProfile : Option CustomRealityProfilePayload
  sni : Option String

/-- A profile as `create_reality_profile` and `create_vpn_account` make it, with a drawn identifier. -/
def CustomRealityProfilePayload.toProfile (p : CustomRealityProfilePayload) (id : Uuid) (now : ℤ) :
    RealityProfile where
  id := id
  name := p.name
  inboundTag := p.inboundTag
  listen := p.listen
  port := p.port
  dest := p.dest
  serverNames := p.serverNames
  privateKey := p.privateKey
  publicKey := ""
  shortIds := p.shortIds
  fingerprint := p.fingerprint
  createdAt := now
  updatedAt := now

/-- The target of a new account: its profile and the tag of its inbound. -/
structure VpnTarget where
  profileId : Option Uuid
  inboundTag : String

/-- How `create_vpn_account` goes on after its first checks. -/
inductive VpnStart where
  | refuse (r : Reply)
  | insert (t : VpnTarget)
  /-- A custom profile has to be created first. -/
  | createProfile (p : RealityProfile)

/-- The refusal of an identifier or e-mail that is taken, at the first client where it is. -/
def vpnDuplicate (s : EngineState) (payload : CreateVpnAccountPayload) : Option Reply :=
  s.config.clients.findSome? fun c =>
    if c.id = payload.id then some (.refused 409 "CONFLICT: User UUID already exists")
    else if c.email = some payload.email then
      some (.refused 409 "CONFLICT: User email already exists")
    else none

/-- `create_vpn_account` up to its first wait; the identifier and the time are those of a custom
profile. -/
def startVpnAccount (s : EngineState) (payload : CreateVpnAccountPayload) (id : Uuid) (now : ℤ) :
    VpnStart :=
  match vpnDuplicate s payload with
  | some r => .refuse r
  | none =>
    if payload.connectionMode = "existing_profile" then
      match payload.realityProfileId with
      | none => .refuse (.refused 400 "reality_profile_id is required for existing_profile mode")
      | some pid => match s.config.realityProfiles.find? (·.id = pid) with
        | none => .refuse (.refused 400 "Selected reality profile not found")
        | some p => .insert ⟨some p.id, p.inboundTag⟩
    else if payload.connectionMode = "custom_profile" then
      match payload.customRealityProfile with
      | none => .refuse
          (.refused 400 "custom_reality_profile parameters are required for custom_profile mode")
      | some custom =>
        if s.config.realityProfiles.any fun p =>
            p.name == custom.name || p.port == custom.port || p.inboundTag == custom.inboundTag then
          .refuse (.refused 409 "CONFLICT: Duplicate profile name, port, or tag already exists")
        else if s.config.inbounds.any fun i => i.tag == custom.inboundTag || i.port == custom.port then
          .refuse (.refused 409 "CONFLICT: Duplicate inbound tag or port already exists")
        else .createProfile (custom.toProfile id now)
    else .insert ⟨none, "vless-inbound-443"⟩

/-- The reply of `create_vpn_account` when the profile cannot be created. -/
def vpnProfileError (e : String) : Reply :=
  .refused (if contains e "CONFLICT" then 409 else 400) ("Failed to initialize custom profile: " ++ e)

/-- What `create_vpn_account` draws for the account. -/
structure VpnDraws where
  tokenBytes : List UInt8
  browsingWarp : Uuid
  lowLatency : Uuid

/-- The client of a new account. -/
def CreateVpnAccountPayload.toClient (X : Crates) (payload : CreateVpnAccountPayload) (t : VpnTarget)
    (d : VpnDraws) : Client where
  id := payload.id
  email := some payload.email
  limitIp := none
  totalGb := payload.totalGb
  expiryTime := payload.expiryTime
  speedLimit := payload.speedLimit
  remainingGb := payload.totalGb.map fun t => (t : ℚ)
  rx := none
  tx := none
  realityProfileId := t.profileId
  inboundTag := some t.inboundTag
  browsingWarpId := some (X.uuidToString d.browsingWarp)
  lowLatencyId := some (X.uuidToString d.lowLatency)
  subTokenHash := some (tokenHashHex X d.tokenBytes)
  sni := payload.sni

/-- A new client at the end of an inbound with the target's tag, and whether it was added. -/
def InboundConfig.addToTarget (c : Client) (targetTag : String) (i : InboundConfig) :
    InboundConfig × Bool :=
  if i.tag = targetTag then
    match i.settings.clients with
    | some cs => if cs.any (·.id == c.id) then (i, false)
        else ({ i with settings := ⟨some (cs ++ [c])⟩ }, true)
    | none => ({ i with settings := ⟨some [c]⟩ }, true)
  else (i, false)

/-- The rest of `create_vpn_account`. -/
def finishVpnAccount (X : Crates) (s : EngineState) (payload : CreateVpnAccountPayload) (t : VpnTarget)
    (d : VpnDraws) : EngineState × Reply :=
  let newClient := payload.toClient X t d
  let inbounds := s.config.inbounds.map (·.addToTarget newClient t.inboundTag)
  if inbounds.any (·.2) then
    match s.updateConfig X { s.config with inbounds := inbounds.map (·.1) } with
    | .error e => (s, .refused 400 ("Failed to update config: " ++ e))
    | .ok s => ((s.disconnectUser X newClient.id).persistConfigToDisk, .account (rawTokenHex d.tokenBytes))
  else (s, .refused 400 ("Target inbound tag '" ++ t.inboundTag ++ "' not found in config"))

/-! ## What the handlers do -/

/-- No other account claims a UUID of the client. -/
def Client.CompatibleWith (X : Crates) (c : Client) (cs : List Client) : Prop :=
  ∀ d ∈ cs, ∀ u ∈ c.claims X, u ∈ d.claims X → d.id = c.id

/-- The engine is as it was, or a request for its state has been made. -/
inductive Committed (X : Crates) (s : EngineState) : EngineState → Prop
  | same : Committed X s s
  | persist (t : EngineState) (hs : Coherent X t) (hd : Distinct X t.config.clients)
      (htx : t.persistTx = s.persistTx) (hgen : t.persistGen = s.persistGen) :
      Committed X s t.persistConfigToDisk

section

variable {X : Crates} {s s' : EngineState}

/-- Accounts that carry identifiers and claims of distinct accounts are distinct. -/
theorem Distinct.of_claims {cs ds : List Client} (hd : Distinct X cs)
    (h : ∀ x ∈ ds, ∃ y ∈ cs, y.id = x.id ∧ y.claims X = x.claims X) : Distinct X ds := by
  intro c hc d hdm u hu hu'
  obtain ⟨c', hc', hcid, hcu⟩ := h c hc
  obtain ⟨d', hd', hdid, hdu⟩ := h d hdm
  rw [← hcid, ← hdid]
  exact hd c' hc' d' hd' u (hcu ▸ hu) (hdu ▸ hu')

theorem Distinct.cons {cs : List Client} (hd : Distinct X cs) {c : Client}
    (hc : c.CompatibleWith X cs) : Distinct X (c :: cs) := by
  rintro a (_ | ⟨_, ha⟩) b (_ | ⟨_, hb⟩) u hu hu'
  · rfl
  · exact (hc b hb u hu hu').symm
  · exact hc a ha u hu' hu
  · exact hd a ha b hb u hu hu'

/-- A configuration in which only the client `c` is new. -/
theorem Distinct.append_new {cs ds : List Client} (hd : Distinct X cs) {c : Client}
    (hc : c.CompatibleWith X cs) (h : ∀ x ∈ ds, x = c ∨ x ∈ cs) : Distinct X (cs ++ ds) := by
  refine (hd.cons hc).of_claims fun x hx => ⟨x, ?_, rfl, rfl⟩
  rcases List.mem_append.mp hx with hx | hx
  · exact List.mem_cons_of_mem _ hx
  · rcases h x hx with rfl | hx
    · exact List.mem_cons_self
    · exact List.mem_cons_of_mem _ hx

theorem mem_clients_map {cfg : Config} {f : InboundConfig → InboundConfig} {P : Client → Prop}
    (hf : ∀ i, ∀ x ∈ (f i).clients, P x ∨ x ∈ i.clients) {x : Client}
    (hx : x ∈ ({ cfg with inbounds := cfg.inbounds.map f } : Config).clients) : P x ∨ x ∈ cfg.clients := by
  obtain ⟨j, hj, hx⟩ := List.mem_flatMap.mp hx
  obtain ⟨i, hi, rfl⟩ := List.mem_map.mp hj
  exact (hf i x hx).imp_right fun h => List.mem_flatMap.mpr ⟨i, hi, h⟩

theorem InboundConfig.clients_some {i : InboundConfig} {cs : List Client} (h : i.settings.clients = some cs) :
    i.clients = cs := by
  rw [InboundConfig.clients, h, Option.getD_some]

theorem mem_pushClient {c x : Client} {i : InboundConfig} (hx : x ∈ (i.pushClient c).clients) :
    x = c ∨ x ∈ i.clients := by
  rw [InboundConfig.pushClient] at hx
  split at hx
  · next cs hcs =>
    split_ifs at hx with hany
    · exact .inr hx
    · rw [InboundConfig.clients_some hcs]
      exact (List.mem_append.mp hx).symm.imp_left List.mem_singleton.mp
  · exact .inr hx

theorem mem_removeClient {id : String} {x : Client} {i : InboundConfig}
    (hx : x ∈ (i.removeClient id).clients) : x.id ≠ id ∧ x ∈ i.clients := by
  rw [InboundConfig.removeClient, InboundConfig.clients] at hx
  dsimp only at hx
  rw [InboundConfig.clients]
  cases hcs : i.settings.clients with
  | none =>
    rw [hcs] at hx
    exact absurd hx List.not_mem_nil
  | some cs =>
    rw [hcs] at hx
    obtain ⟨hx, hne⟩ := List.mem_filter.mp hx
    exact ⟨bne_iff_ne.mp hne, hx⟩

theorem mem_addToTarget {c x : Client} {tag : String} {i : InboundConfig}
    (hx : x ∈ (i.addToTarget c tag).1.clients) : x = c ∨ x ∈ i.clients := by
  rw [InboundConfig.addToTarget] at hx
  split_ifs at hx with htag
  · split at hx
    · next cs hcs =>
      split_ifs at hx with hany
      · exact .inr hx
      · rw [InboundConfig.clients_some hcs]
        exact (List.mem_append.mp hx).symm.imp_left List.mem_singleton.mp
    · exact .inl (List.mem_singleton.mp hx)
  · exact .inr hx

/-- A change of the configuration that was accepted. -/
theorem updateConfig_accepted {cfg : Config} (h : s.updateConfig X cfg = .ok s') (hs : Coherent X s)
    (hd : Distinct X (s.config.clients ++ cfg.clients)) :
    Coherent X s' ∧ Distinct X s'.config.clients ∧ s'.persistTx = s.persistTx ∧
      s'.persistGen = s.persistGen := by
  obtain ⟨runtimes, -, rfl⟩ := EngineState.updateConfig_ok h
  exact ⟨install_coherent hs hd runtimes,
    hd.of_claims fun x hx => ⟨x, List.mem_append_right _ hx, rfl, rfl⟩, rfl, rfl⟩

theorem EngineState.disconnectUser_frame (X : Crates) (s : EngineState) (id : String) :
    ∃ conns, s.disconnectUser X id = { s with activeConnections := conns } := by
  rw [disconnectUser]
  split
  · exact ⟨s.activeConnections, rfl⟩
  · exact ⟨_, rfl⟩

theorem disconnectUser_committed (hs : Coherent X s') (hd : Distinct X s'.config.clients)
    (htx : s'.persistTx = s.persistTx) (hgen : s'.persistGen = s.persistGen) (id : String) :
    Committed X s (s'.disconnectUser X id).persistConfigToDisk := by
  obtain ⟨conns, heq⟩ := s'.disconnectUser_frame X id
  rw [heq]
  exact .persist { s' with activeConnections := conns } (hs.of_eq rfl rfl rfl fun _ => rfl) hd htx hgen

theorem createUser_committed (hs : Coherent X s) (hd : Distinct X s.config.clients) {c : Client}
    (hc : c.CompatibleWith X s.config.clients) : Committed X s (createUser X s c).1 := by
  rw [createUser]
  dsimp only
  split
  · exact .same
  · next s' h =>
    obtain ⟨hs', hd', htx, hgen⟩ := updateConfig_accepted h hs
      (hd.append_new hc fun x hx => mem_clients_map (fun _ _ => mem_pushClient) hx)
    exact .persist s' hs' hd' htx hgen

theorem deleteUser_committed (hs : Coherent X s) (hd : Distinct X s.config.clients) (id : String) :
    Committed X s (deleteUser X s id).1 := by
  rw [deleteUser]
  dsimp only
  split
  · exact .same
  · next s' h =>
    obtain ⟨hs', hd', htx, hgen⟩ := updateConfig_accepted h hs (hd.of_claims fun x hx => by
      rcases List.mem_append.mp hx with hx | hx
      · exact ⟨x, hx, rfl, rfl⟩
      · have hx' := mem_clients_map (P := fun _ => False)
          (fun _ _ h => .inr (mem_removeClient h).2) hx
        exact ⟨x, hx'.resolve_left not_false, rfl, rfl⟩)
    exact disconnectUser_committed hs' hd' htx hgen id

theorem addQuota_committed (hs : Coherent X s) (hd : Distinct X s.config.clients) (id : String)
    (amountGb : ℚ) : Committed X s (addQuota s id amountGb).1 := by
  rw [addQuota]
  split
  · next e he =>
    exact .persist _ (hs.of_eq rfl rfl rfl (s.modifyUser_id _ fun _ => rfl)) hd rfl rfl
  · exact .same

theorem regenerateSubToken_committed (hs : Coherent X s) (hd : Distinct X s.config.clients) (id : String)
    (bs : List UInt8) : Committed X s (regenerateSubToken X s id bs).1 := by
  rw [regenerateSubToken]
  split_ifs
  · split
    · exact .same
    · next s' h =>
      obtain ⟨hs', hd', htx, hgen⟩ := updateConfig_accepted h hs (hd.of_claims fun x hx => by
        rcases List.mem_append.mp hx with hx | hx
        · exact ⟨x, hx, rfl, rfl⟩
        · rw [Config.clients_mapClients] at hx
          obtain ⟨y, hy, rfl⟩ := List.mem_map.mp hx
          exact ⟨y, hy, by split_ifs <;> rfl, by split_ifs <;> rfl⟩)
      exact .persist s' hs' hd' htx hgen
  · exact .same

theorem applyRoutingUpdate_committed (hs : Coherent X s) (hd : Distinct X s.config.clients)
    (cfg : Config) : Committed X s (s.applyRoutingUpdate X cfg) :=
  .persist _ (hs.of_eq rfl rfl rfl fun _ => rfl) hd rfl rfl

theorem finishVpnAccount_committed (hs : Coherent X s) (hd : Distinct X s.config.clients)
    {payload : CreateVpnAccountPayload} {t : VpnTarget} {d : VpnDraws}
    (hc : (payload.toClient X t d).CompatibleWith X s.config.clients) :
    Committed X s (finishVpnAccount X s payload t d).1 := by
  rw [finishVpnAccount]
  dsimp only
  split_ifs
  · split
    · exact .same
    · next s' h =>
      rw [List.map_map] at h
      obtain ⟨hs', hd', htx, hgen⟩ := updateConfig_accepted h hs
        (hd.append_new hc fun x hx => mem_clients_map (fun _ _ => mem_addToTarget) hx)
      exact disconnectUser_committed hs' hd' htx hgen _
  · exact .same

/-- The listen address of a validated profile is one. -/
theorem validate_listen {p q : RealityProfile} (h : p.validateAndNormalize X = .ok q) :
    parseIpAddr q.listen ≠ none := by
  simp only [RealityProfile.validateAndNormalize, bind_ok] at h
  obtain ⟨-, -, -, -, -, -, _, hlisten, -, -, names, -, -, -, sids, -, -, -, h⟩ := h
  split at h
  · cases h
  · obtain rfl := Except.ok.inj h
    exact refuseIf_ok.mp hlisten

theorem checkRealityProfile_listen {p q : RealityProfile} (h : s.checkRealityProfile X p = .ok q) :
    parseIpAddr q.listen ≠ none := by
  simp only [EngineState.checkRealityProfile, bind_ok] at h
  obtain ⟨q', hq, -, -, -, -, -, -, h⟩ := h
  obtain rfl := Except.ok.inj h
  exact validate_listen hq

theorem publishRealityProfile_committed (hs : Coherent X s) (hd : Distinct X s.config.clients)
    {p : RealityProfile} (hl : parseIpAddr p.listen ≠ none) (bind : Except String Unit) :
    Committed X s (s.publishRealityProfile X p bind).1 ∧
      (s.publishRealityProfile X p bind).1.config.clients = s.config.clients := by
  unfold EngineState.publishRealityProfile
  split
  · exact ⟨.same, rfl⟩
  · exact ⟨.same, rfl⟩
  · next runtime _ =>
    dsimp only
    split
    · next hnone => exact absurd hnone hl
    · next listen _ =>
      have hclients : (s.config.inbounds ++ [EngineState.inboundOfProfile p listen]).flatMap
          InboundConfig.clients = s.config.clients := by
        rw [List.flatMap_append]
        exact List.append_nil _
      refine ⟨.persist _ (hs.of_eq rfl hclients rfl fun _ => rfl) ?_ rfl rfl, ?_⟩
      · rw [← hclients] at hd
        exact hd
      · rw [(EngineState.persistConfigToDisk_frame _).2.2.2]
        exact hclients

end

end RXCore
