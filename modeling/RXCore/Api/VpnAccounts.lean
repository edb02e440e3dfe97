import RXCore.Api.Signups
import RXCore.Api.Links
import RXCore.State.Durability
import RXCore.State.Reload
import RXCore.Lib.Alphabets

/-!
# What `create_vpn_account` promises

The request makes a custom profile first, with its listener, and puts the account in afterwards; the
identifier of the account is any text, and an update of the configuration passes over a client whose
identifier is no UUID. A call is taken alone here, with what it draws and the operating system's answer for
its port.

* `createVpnAccount`: the whole request; `resolveSubToken`: how a subscription token is looked up;
* `EngineAct`, `engineStep`: all that is done to an engine; **`populated_of_reachable`**: every account is in
  the user map in every state;
* `VpnWorks`, `VpnUndone`: what a success promises, and what a failure does;
* `TokensBuilt`, `buildUserMaps_tokens`: the tokens in the maps;
* `finish_works_iff`: when an account that is put in works;
* **`vpn_account_honest_iff`**: which requests keep the promise;
* **`vpn_account_dishonest`**: an identifier that is no UUID, and a profile that is left behind.
-/

set_option autoImplicit false

namespace RXCore

open Encoding

/-- `create_vpn_account`, with the answer of the operating system for the port of a custom profile. -/
def createVpnAccount (X : Crates) (s : EngineState) (payload : CreateVpnAccountPayload) (id : Uuid) (now : ℤ)
    (bind : Except String Unit) (d : VpnDraws) : EngineState × Reply :=
  match startVpnAccount s payload id now with
  | .refuse r => (s, r)
  | .insert t => finishVpnAccount X s payload t d
  | .createProfile profile => match s.checkRealityProfile X profile with
    | .error e => (s, vpnProfileError e)
    | .ok p => match s.publishRealityProfile X p bind with
      | (s, .error e) => (s, vpnProfileError e)
      | (s, .ok _) => finishVpnAccount X s payload ⟨some profile.id, profile.inboundTag⟩ d

/-- The account that a subscription token leads to, in `serve_subscription` and `get_subscription`. -/
def EngineState.resolveSubToken (X : Crates) (s : EngineState) (id : String) : Option ℕ :=
  (toKey (X.sha256 (utf8 (trim id)))).bind s.subTokens.lookup

/-! ## The states of an engine -/

/-- What is done to an engine: its configuration and its profiles change, it is persisted, its connections
come and go, and the counters of an account change, whose identifier is fixed. -/
inductive EngineAct where
  | updateConfig (newConfig : Config)
  | applyRoutingUpdate (newConfig : Config)
  | publishRealityProfile (p : RealityProfile) (bind : Except String Unit)
  | persistConfigToDisk
  | sweep
  /-- The worker takes the requests. -/
  | recv
  | registerConnection (c : ConnectionInfo)
  | deregisterConnection (id : Uuid)
  | disconnectUser (userId : String)
  | count (r : ℕ) (u : UserStats)

def engineStep (X : Crates) (s : EngineState) : EngineAct → Option EngineState
  | .updateConfig cfg => (s.updateConfig X cfg).toOption
  | .applyRoutingUpdate cfg => some (s.applyRoutingUpdate X cfg)
  | .publishRealityProfile p bind => some (s.publishRealityProfile X p bind).1
  | .persistConfigToDisk => some s.persistConfigToDisk
  | .sweep => some s.sweep
  | .recv => some { s with persistTx := [] }
  | .registerConnection c => some (s.registerConnection c)
  | .deregisterConnection id => some (s.deregisterConnection id)
  | .disconnectUser userId => some (s.disconnectUser X userId)
  | .count r u => if u.id = (s.heap r).id then some (s.modifyUser r fun _ => u) else none

section

variable {X : Crates} {s s' : EngineState}

/-- The map, the accounts and the identifiers of the statistics decide. -/
theorem Populated.of_eq (hs : Populated X s) (husers : s'.users = s.users)
    (hclients : s'.config.clients = s.config.clients) (hnext : s'.nextRef = s.nextRef)
    (hid : ∀ r, (s'.heap r).id = (s.heap r).id) : Populated X s' := by
  refine ⟨?_, fun u r h => ?_, fun u r h => ?_⟩
  · rw [husers, hclients]
    exact hs.found
  · rw [husers] at h
    rw [hid]
    exact hs.parsed u r h
  · rw [husers] at h
    rw [hnext]
    exact hs.bound u r h

theorem Populated.persist (hs : Populated X s) : Populated X s.persistConfigToDisk := by
  obtain ⟨husers, hheap, hnext, hconfig⟩ := s.persistConfigToDisk_frame
  exact hs.of_eq husers (congrArg Config.clients hconfig) hnext fun r => congrArg (fun h : Heap => (h r).id) hheap

/-- The creation of a profile leaves the accounts alone. -/
theorem publish_frame (s : EngineState) (p : RealityProfile) (bind : Except String Unit) :
    let t := (s.publishRealityProfile X p bind).1
    t.users = s.users ∧ t.config.clients = s.config.clients ∧ t.nextRef = s.nextRef ∧ t.heap = s.heap := by
  cases hr : RealityRuntime.new X p with
  | error e => simp [EngineState.publishRealityProfile, hr]
  | ok r => cases bind with
    | error e => simp [EngineState.publishRealityProfile, hr]
    | ok _ =>
      simp only [EngineState.publishRealityProfile, hr]
      cases hl : parseIpAddr p.listen with
      | none => exact ⟨rfl, rfl, rfl, rfl⟩
      | some listen =>
        dsimp only
        rw [EngineState.persistConfigToDisk]
        have hclients : (s.config.inbounds ++ [EngineState.inboundOfProfile p listen]).flatMap InboundConfig.clients =
            s.config.clients := by
          rw [List.flatMap_append]
          exact List.append_nil _
        split_ifs <;> exact ⟨rfl, hclients, rfl, rfl⟩

theorem Populated.publish (hs : Populated X s) (p : RealityProfile) (bind : Except String Unit) :
    Populated X (s.publishRealityProfile X p bind).1 := by
  obtain ⟨husers, hclients, hnext, hheap⟩ := publish_frame (X := X) s p bind
  exact hs.of_eq husers hclients hnext fun r => congrArg (fun h : Heap => (h r).id) hheap

/-- **One step keeps every account in the map.** -/
theorem Populated.step (hs : Populated X s) {a : EngineAct} (hstep : engineStep X s a = some s') :
    Populated X s' := by
  cases a with
  | updateConfig cfg =>
    cases hu : s.updateConfig X cfg with
    | error e => simp [engineStep, hu, Except.toOption] at hstep
    | ok t =>
      simp only [engineStep, hu, Except.toOption] at hstep
      obtain rfl := Option.some.inj hstep
      obtain ⟨runtimes, -, rfl⟩ := EngineState.updateConfig_ok hu
      exact install_populated hs cfg runtimes
  | applyRoutingUpdate cfg =>
    obtain rfl := Option.some.inj hstep
    exact Populated.persist (hs.of_eq rfl rfl rfl fun _ => rfl)
  | publishRealityProfile p bind =>
    obtain rfl := Option.some.inj hstep
    exact hs.publish p bind
  | persistConfigToDisk =>
    obtain rfl := Option.some.inj hstep
    exact hs.persist
  | sweep =>
    obtain rfl := Option.some.inj hstep
    rw [EngineState.sweep]
    split_ifs
    · exact Populated.persist (hs.of_eq rfl rfl rfl fun _ => rfl)
    · exact hs
  | recv =>
    obtain rfl := Option.some.inj hstep
    exact hs.of_eq rfl rfl rfl fun _ => rfl
  | registerConnection c =>
    obtain rfl := Option.some.inj hstep
    exact hs.of_eq rfl rfl rfl fun _ => rfl
  | deregisterConnection id =>
    obtain rfl := Option.some.inj hstep
    exact hs.of_eq rfl rfl rfl fun _ => rfl
  | disconnectUser userId =>
    obtain rfl := Option.some.inj hstep
    obtain ⟨conns, hconns⟩ := s.disconnectUser_frame X userId
    rw [hconns]
    exact hs.of_eq rfl rfl rfl fun _ => rfl
  | count r u =>
    rw [engineStep] at hstep
    split_ifs at hstep with hid
    obtain rfl := Option.some.inj hstep
    refine hs.of_eq rfl rfl rfl fun r' => ?_
    by_cases hr : r' = r
    · subst hr
      simp [EngineState.modifyUser, hid]
    · simp [EngineState.modifyUser, Function.update_of_ne hr]

/-- **In every state of an engine every account is in the user map.** -/
theorem populated_of_reachable {g : Draws} {cfg : Config}
    (hrun : Run.Reachable (engineStep X) (.new X g cfg) s) : Populated X s := by
  obtain ⟨as, has⟩ := hrun
  exact Run.exec_invariant (fun _ _ _ h hstep => h.step hstep) (new_populated g cfg) has

end

/-! ## The promise -/

/-- What a success promises of the state that it leaves: the identifier is a UUID, which leads to new
statistics, those of the account; it authenticates until the quota or the expiry of the account ends that, as
long as the map is the same, and so do the aliases, with their modes; the token leads to the account. -/
def VpnWorks (X : Crates) (s s' : EngineState) (payload : CreateVpnAccountPayload) (t : VpnTarget) (d : VpnDraws)
    (token : String) : Prop :=
  ∃ u r, X.parseUuid payload.id = some u ∧ s.nextRef ≤ r ∧ s'.heap r = .ofClient (payload.toClient X t d) ∧
    (∀ later : EngineState, later.users = s'.users →
      ∀ e ∈ [(u, ClientRouteMode.smart), (d.browsingWarp, .browsingWarp), (d.lowLatency, .lowLatencyDirect)],
        ∀ now, later.authenticateClient now e.1 =
          if (later.heap r).Allows now then some (r, e.2) else none) ∧
    s'.resolveSubToken X token = some r

/-- What a failure leaves as it was. -/
structure VpnUndone (s s' : EngineState) : Prop where
  config : s'.config = s.config
  realityRuntimes : s'.realityRuntimes = s.realityRuntimes
  activeListeners : s'.activeListeners = s.activeListeners
  slots : s'.slots = s.slots
  users : s'.users = s.users
  heap : s'.heap = s.heap
  subTokens : s'.subTokens = s.subTokens

/-- The target of the account that a request asks for. -/
def vpnTarget (s : EngineState) (payload : CreateVpnAccountPayload) (id : Uuid) (now : ℤ) : VpnTarget :=
  match startVpnAccount s payload id now with
  | .refuse _ => ⟨none, ""⟩
  | .insert t => t
  | .createProfile profile => ⟨some profile.id, profile.inboundTag⟩

/-- A request keeps its promise. -/
def VpnHonest (X : Crates) (s : EngineState) (payload : CreateVpnAccountPayload) (id : Uuid) (now : ℤ)
    (bind : Except String Unit) (d : VpnDraws) : Prop :=
  match createVpnAccount X s payload id now bind d with
  | (s', .account token) => VpnWorks X s s' payload (vpnTarget s payload id now) d token
  | (s', _) => VpnUndone s s'

/-- The identifier is a UUID, which is free. -/
def EngineState.IdFree (X : Crates) (s : EngineState) (id : String) : Prop :=
  ∃ u, X.parseUuid id = some u ∧ owner s.users u = none

/-- What a request has to meet: an account that is put in has a free UUID for an identifier; a custom profile
that is created is followed by an update of the configuration that is accepted. -/
def VpnFits (X : Crates) (s : EngineState) (payload : CreateVpnAccountPayload) (id : Uuid) (now : ℤ)
    (bind : Except String Unit) : Prop :=
  match startVpnAccount s payload id now with
  | .refuse _ => True
  | .insert t => s.Buildable X → (∃ i ∈ s.config.inbounds, i.TakesTarget t.inboundTag payload.id) →
    s.IdFree X payload.id
  | .createProfile profile => bind = .ok () →
    (∃ p r, s.checkRealityProfile X profile = .ok p ∧ RealityRuntime.new X p = .ok r) →
    s.Buildable X ∧ s.IdFree X payload.id

/-- What is drawn is new: two UUIDs, that are read back, and a token whose hash no account has. -/
structure VpnDraws.Fresh (X : Crates) (s : EngineState) (payload : CreateVpnAccountPayload) (d : VpnDraws) :
    Prop where
  browsingWarp : X.parseUuid (X.uuidToString d.browsingWarp) = some d.browsingWarp
  lowLatency : X.parseUuid (X.uuidToString d.lowLatency) = some d.lowLatency
  ne : d.browsingWarp ≠ d.lowLatency
  apart : ∀ u, X.parseUuid payload.id = some u → u ≠ d.browsingWarp ∧ u ≠ d.lowLatency
  unknown : owner s.users d.browsingWarp = none ∧ owner s.users d.lowLatency = none
  hashed : (X.sha256 (utf8 (rawTokenHex d.tokenBytes))).length = 32
  token : ∀ c ∈ s.config.clients, tokenKey c.subTokenHash ≠ toKey (X.sha256 (utf8 (rawTokenHex d.tokenBytes)))

/-! ## Tokens -/

/-- The tokens in maps that are built from the clients `cs`. -/
structure TokensBuilt (X : Crates) (cs : List Client) (b : UserMaps) : Prop where
  owned : ∀ k r, b.subTokens.lookup k = some r →
    ∃ c ∈ cs, tokenKey c.subTokenHash = some k ∧ b.localStats.lookup c.id = some r
  found : ∀ c ∈ cs, X.parseUuid c.id ≠ none → ∀ k, tokenKey c.subTokenHash = some k →
    ∃ r, b.subTokens.lookup k = some r

section

variable {X : Crates} {old : UserMap} {emailOf : Client → UserStats → Option String}

/-- One client more. -/
theorem TokensBuilt.addClient {cs : List Client} {b : UserMaps} (hb : TokensBuilt X cs b) (c : Client) :
    TokensBuilt X (cs ++ [c]) (addClient X emailOf old b c) := by
  have hmem : ∀ d ∈ cs, d ∈ cs ++ [c] := fun d hd => List.mem_append_left _ hd
  cases hu : X.parseUuid c.id with
  | none =>
    rw [RXCore.addClient, hu]
    refine ⟨fun k r h => ?_, fun d hd hparsed k hk => ?_⟩
    · obtain ⟨d, hd, hrest⟩ := hb.owned k r h
      exact ⟨d, hmem d hd, hrest⟩
    · rcases List.mem_append.mp hd with hd | hd
      · exact hb.found d hd hparsed k hk
      · obtain rfl := List.mem_singleton.mp hd
        exact absurd hu hparsed
  | some uuid =>
    have htokens := (UserMaps.resolve_tables old b c uuid).2
    have hself := b.resolve_self old c uuid
    have hmono : ∀ id r, b.localStats.lookup id = some r →
        (b.resolve old c uuid).2.localStats.lookup id = some r :=
      fun _ _ h => UserMaps.resolve_mono c uuid h
    rw [RXCore.addClient, hu]
    dsimp only
    generalize b.resolve old c uuid = p at htokens hself hmono
    cases hkey : tokenKey c.subTokenHash with
    | none =>
      refine ⟨fun k r h => ?_, fun d hd hparsed k hk => ?_⟩
      · dsimp only at h
        rw [htokens] at h
        obtain ⟨d, hd, hdk, hlocal⟩ := hb.owned k r h
        exact ⟨d, hmem d hd, hdk, hmono _ _ hlocal⟩
      · dsimp only
        rw [htokens]
        rcases List.mem_append.mp hd with hd | hd
        · exact hb.found d hd hparsed k hk
        · obtain rfl := List.mem_singleton.mp hd
          rw [hkey] at hk
          cases hk
    | some key =>
      refine ⟨fun k r h => ?_, fun d hd hparsed k hk => ?_⟩
      · dsimp only at h
        rcases Tables.lookup_insert_cases h with ⟨rfl, rfl⟩ | ⟨-, h⟩
        · exact ⟨c, List.mem_append_right _ List.mem_cons_self, hkey, hself⟩
        · rw [htokens] at h
          obtain ⟨d, hd, hdk, hlocal⟩ := hb.owned k r h
          exact ⟨d, hmem d hd, hdk, hmono _ _ hlocal⟩
      · dsimp only
        by_cases hkk : k = key
        · exact ⟨p.1, hkk ▸ AList.lookup_insert _⟩
        · rw [AList.lookup_insert_ne hkk, htokens]
          rcases List.mem_append.mp hd with hd | hd
          · exact hb.found d hd hparsed k hk
          · obtain rfl := List.mem_singleton.mp hd
            exact absurd (Option.some.inj (hk.symm.trans hkey)) hkk

/-- **The tokens after the loop over the clients.** -/
theorem buildUserMaps_tokens (heap : Heap) (next : ℕ) (cs : List Client) :
    TokensBuilt X cs (buildUserMaps X emailOf old (.start heap next) cs) := by
  have hgen : ∀ (cs done : List Client) (b : UserMaps), TokensBuilt X done b →
      TokensBuilt X (done ++ cs) (buildUserMaps X emailOf old b cs) := by
    intro cs
    induction cs with
    | nil =>
      intro done b hb
      rw [List.append_nil]
      exact hb
    | cons c cs ih =>
      intro done b hb
      rw [List.append_cons]
      exact ih _ _ (hb.addClient c)
  exact hgen cs [] _ ⟨fun _ _ h => (nomatch h), fun _ hc => absurd hc List.not_mem_nil⟩

end

/-- A drawn token has no blanks around it. -/
theorem trim_rawTokenHex (bs : List UInt8) : trim (rawTokenHex bs) = rawTokenHex bs := by
  have hblank : ∀ n < 16, isWhitespace (Nat.digitChar n) = false := by decide
  have hdigits : (rawTokenHex bs).toList = hexDigits bs := String.toList_ofList
  rw [trim, hdigits, trimList_eq fun c hc => ?_]
  · rfl
  · obtain ⟨n, hn, rfl⟩ := mem_hexDigits hc
    exact hblank n hn

/-- The key of a stored hash is the one under which its token is looked up. -/
theorem tokenKey_tokenHashHex (X : Crates) (bs : List UInt8) :
    tokenKey (some (tokenHashHex X bs)) = toKey (X.sha256 (utf8 (rawTokenHex bs))) := by
  simp [tokenKey, tokenHashHex, hexDecode_hexEncode, Except.toOption]

/-! ## The account is put in -/

section

variable {X : Crates} {s s' : EngineState} {payload : CreateVpnAccountPayload} {t : VpnTarget} {d : VpnDraws}
  {u : Uuid}

/-- The identifier of a request that passes the first checks is that of no client. -/
theorem vpnDuplicate_none (h : vpnDuplicate s payload = none) : ∀ c ∈ s.config.clients, c.id ≠ payload.id := by
  intro c hc hid
  have hnone := List.findSome?_eq_none_iff.mp h c hc
  rw [if_pos hid] at hnone
  cases hnone

/-- **An account that is put in**: the maps are built from the clients and the new one. -/
theorem finishVpnAccount_done (hb : s.Buildable X)
    (ht : ∃ i ∈ s.config.inbounds, i.TakesTarget t.inboundTag payload.id) :
    ∃ s' cs, finishVpnAccount X s payload t d = (s', .account (rawTokenHex d.tokenBytes)) ∧
      (∀ x, x ∈ cs ↔ x ∈ s.config.clients ∨ x = payload.toClient X t d) ∧
      s'.users = (buildUserMaps X (fun _ u => u.email) s.users (.start s.heap s.nextRef) cs).users ∧
      s'.heap = (buildUserMaps X (fun _ u => u.email) s.users (.start s.heap s.nextRef) cs).heap ∧
      s'.subTokens = (buildUserMaps X (fun _ u => u.email) s.users (.start s.heap s.nextRef) cs).subTokens := by
  have hadded : (s.config.inbounds.map (·.addToTarget (payload.toClient X t d) t.inboundTag)).any (·.2) = true := by
    rw [List.any_map, List.any_eq_true]
    exact ht.imp fun i hi => ⟨hi.1, (mem_addToTarget_iff t.inboundTag i).2.mpr hi.2⟩
  obtain ⟨inbounds, hinbounds⟩ : ∃ l, l = s.config.inbounds.map
      (Prod.fst ∘ (·.addToTarget (payload.toClient X t d) t.inboundTag)) := ⟨_, rfl⟩
  obtain ⟨s₁, hs₁, -⟩ := (updateConfig_inbounds (X := X) (s := s) inbounds).1 hb
  obtain ⟨runtimes, -, hinstall⟩ := EngineState.updateConfig_ok hs₁
  obtain ⟨conns, hconns⟩ := s₁.disconnectUser_frame X (payload.toClient X t d).id
  refine ⟨(s₁.disconnectUser X (payload.toClient X t d).id).persistConfigToDisk,
    inbounds.flatMap InboundConfig.clients, ?_, fun x => ?_, ?_⟩
  · rw [finishVpnAccount]
    dsimp only
    rw [if_pos hadded, List.map_map, ← hinbounds, hs₁]
  · rw [hinbounds]
    exact (mem_clients_map_iff (l := s.config.inbounds)
      (fun i => (mem_addToTarget_iff (c := payload.toClient X t d) t.inboundTag i).1) x).trans
      (or_congr_right (and_iff_left ht))
  · rw [hconns, hinstall, EngineState.persistConfigToDisk]
    split_ifs <;> exact ⟨rfl, rfl, rfl⟩

/-- Nothing happens without a target or with a profile that has no runtime. -/
theorem finishVpnAccount_refused (d : VpnDraws)
    (h : ¬ (s.Buildable X ∧ ∃ i ∈ s.config.inbounds, i.TakesTarget t.inboundTag payload.id)) :
    ∃ status body, finishVpnAccount X s payload t d = (s, .refused status body) := by
  have hadded : (s.config.inbounds.map (·.addToTarget (payload.toClient X t d) t.inboundTag)).any (·.2) = true ↔
      ∃ i ∈ s.config.inbounds, i.TakesTarget t.inboundTag payload.id := by
    rw [List.any_map, List.any_eq_true]
    exact exists_congr fun i => and_congr_right fun _ => (mem_addToTarget_iff t.inboundTag i).2
  rw [finishVpnAccount]
  dsimp only
  by_cases hany : ∃ i ∈ s.config.inbounds, i.TakesTarget t.inboundTag payload.id
  · obtain ⟨e, he⟩ := (updateConfig_inbounds (X := X) (s := s)
      (s.config.inbounds.map (Prod.fst ∘ (·.addToTarget (payload.toClient X t d) t.inboundTag)))).2 fun hb => h ⟨hb, hany⟩
    rw [if_pos (hadded.mpr hany), List.map_map, he]
    exact ⟨_, _, rfl⟩
  · rw [if_neg fun h => hany (hadded.mp h)]
    exact ⟨_, _, rfl⟩

/-- Authentication under a map, whatever the counters become. -/
theorem authenticates_iff {r : ℕ} {mode : ClientRouteMode} :
    (∀ later : EngineState, later.users = s.users → ∀ now, later.authenticateClient now u =
      if (later.heap r).Allows now then some (r, mode) else none) ↔ s.users.lookup u = some (r, mode) := by
  constructor
  · intro h
    -- with statistics that allow everything
    have hall := h { s with heap := fun _ => .ofClient EngineState.new.defaultClient } rfl 0
    have hallows : (UserStats.ofClient EngineState.new.defaultClient).Allows 0 := by decide
    rw [if_pos hallows, EngineState.authenticateClient] at hall
    cases hl : s.users.lookup u with
    | none => simp [hl] at hall
    | some e =>
      obtain ⟨r', mode'⟩ := e
      simp only [hl] at hall
      split_ifs at hall
      exact hall
  · intro h later hlater now
    exact authenticateClient_eq (hlater ▸ h) now

theorem Client.mem_claims_of_entry {c : Client} {mode : ClientRouteMode} (h : (u, mode) ∈ c.entries X) :
    u ∈ c.claims X := by
  rw [Client.claims_eq_map]
  exact List.mem_map_of_mem h

/-- The UUIDs of a new account, with their modes. -/
theorem toClient_entries (hfresh : d.Fresh X s payload) (t : VpnTarget) (hu : X.parseUuid payload.id = some u) :
    (payload.toClient X t d).entries X =
      [(u, .smart), (d.browsingWarp, .browsingWarp), (d.lowLatency, .lowLatencyDirect)] := by
  have hid : X.parseUuid (payload.toClient X t d).id = some u := hu
  rw [Client.entries, hid]
  simp [CreateVpnAccountPayload.toClient, hfresh.browsingWarp, hfresh.lowLatency]

/-- They are different. -/
theorem toClient_nodup (hfresh : d.Fresh X s payload) (t : VpnTarget) (hu : X.parseUuid payload.id = some u) :
    ((payload.toClient X t d).claims X).Nodup := by
  obtain ⟨hb, hl⟩ := hfresh.apart u hu
  rw [Client.claims_eq_map, toClient_entries hfresh t hu]
  simp [hb, hl, hfresh.ne]

/-- No account that is there has one of them. -/
theorem toClient_unknown (hfresh : d.Fresh X s payload) (t : VpnTarget) (hu : X.parseUuid payload.id = some u)
    (hfree : owner s.users u = none) : ∀ v ∈ (payload.toClient X t d).claims X, owner s.users v = none := by
  intro v hv
  rw [Client.claims_eq_map, toClient_entries hfresh t hu] at hv
  simp only [List.map_cons, List.map_nil, List.mem_cons, List.not_mem_nil, or_false] at hv
  rcases hv with rfl | rfl | rfl
  · exact hfree
  · exact hfresh.unknown.1
  · exact hfresh.unknown.2

variable {cs : List Client} {b : UserMaps}

/-- The new account is filed under a new reference. -/
theorem Built.resolved_new (hb : Built X s.users s.heap s.nextRef cs b)
    (hmem : ∀ x, x ∈ cs ↔ x ∈ s.config.clients ∨ x = payload.toClient X t d)
    (hnew : ∀ c ∈ s.config.clients, c.id ≠ payload.id) (hu : X.parseUuid payload.id = some u)
    (hfree : owner s.users u = none) {r : ℕ} (hr : b.localStats.lookup payload.id = some r) :
    s.nextRef ≤ r ∧ b.heap r = .ofClient (payload.toClient X t d) := by
  obtain ⟨v, hv, hold | ⟨-, hle, c, hc, hid, hheap⟩⟩ := hb.origin payload.id r hr
  · obtain rfl := Option.some.inj (hu.symm.trans hv)
    rw [hfree] at hold
    cases hold
  · rcases (hmem c).mp hc with hc | rfl
    · exact absurd hid (hnew c hc)
    · exact ⟨hle, hheap⟩

/-- What is found under a UUID that only the new account has is the new account. -/
theorem Built.entry_new (hb : Built X s.users s.heap s.nextRef cs b)
    (honly : ∀ v ∈ (payload.toClient X t d).claims X, ∀ x ∈ cs, v ∈ x.claims X → x = payload.toClient X t d)
    (hself : payload.toClient X t d ∈ cs) {v : Uuid} (hv : v ∈ (payload.toClient X t d).claims X) :
    ∃ r, owner b.users v = some r ∧ b.localStats.lookup payload.id = some r := by
  obtain ⟨r, hr⟩ := hb.found _ hself v hv
  obtain ⟨x, hx, hvx, hlocal⟩ := hb.owned v r hr
  obtain rfl := honly v hv x hx hvx
  exact ⟨r, hr, hlocal⟩

/-- **An account that is put in works** exactly if its identifier is a free UUID. -/
theorem finish_works_iff (hs : Populated X s) (hfresh : d.Fresh X s payload)
    (hnew : ∀ c ∈ s.config.clients, c.id ≠ payload.id)
    (hmem : ∀ x, x ∈ cs ↔ x ∈ s.config.clients ∨ x = payload.toClient X t d)
    (hb : b = buildUserMaps X (fun _ u => u.email) s.users (.start s.heap s.nextRef) cs)
    (husers : s'.users = b.users) (hheap : s'.heap = b.heap) (htokens : s'.subTokens = b.subTokens) :
    VpnWorks X s s' payload t d (rawTokenHex d.tokenBytes) ↔ s.IdFree X payload.id := by
  have hbuilt : Built X s.users s.heap s.nextRef cs b := hb ▸ buildUserMaps_built hs.bound cs
  constructor
  · rintro ⟨u, r, hu, hle, -, hauth, -⟩
    have hlookup := authenticates_iff.mp fun later hlater => hauth later hlater (u, .smart) List.mem_cons_self
    have howner : owner b.users u = some r := by
      rw [← husers, owner, hlookup, Option.map_some]
    refine ⟨u, hu, ?_⟩
    obtain ⟨c, hc, -, hlocal⟩ := hbuilt.owned u r howner
    obtain ⟨v, hv, hold | ⟨hnone, -⟩⟩ := hbuilt.origin c.id r hlocal
    · exact absurd (hs.bound v r hold) (not_lt.mpr hle)
    · rcases (hmem c).mp hc with hc | rfl
      · -- every account that is there is in the map
        obtain ⟨r', hr'⟩ := hs.found c hc v (Client.mem_claims_self hv)
        rw [hnone] at hr'
        cases hr'
      · obtain rfl := Option.some.inj (hu.symm.trans hv)
        exact hnone
  · rintro ⟨u, hu, hfree⟩
    have hself : payload.toClient X t d ∈ cs := (hmem _).mpr (.inr rfl)
    have hentries := toClient_entries hfresh t hu
    have honly : ∀ v ∈ (payload.toClient X t d).claims X, ∀ x ∈ cs, v ∈ x.claims X → x = payload.toClient X t d := by
      intro v hv x hx hvx
      refine ((hmem x).mp hx).resolve_left fun hx => ?_
      obtain ⟨r, hr⟩ := hs.found x hx v hvx
      rw [toClient_unknown hfresh t hu hfree v hv] at hr
      cases hr
    obtain ⟨r, -, hlocal⟩ := hbuilt.entry_new honly hself (Client.mem_claims_self (c := payload.toClient X t d) hu)
    obtain ⟨hle, hstats⟩ := hbuilt.resolved_new hmem hnew hu hfree hlocal
    refine ⟨u, r, hu, hle, by rw [hheap, hstats], fun later hlater entry he now => ?_, ?_⟩
    · obtain ⟨v, mode⟩ := entry
      rw [← hentries] at he
      refine authenticates_iff.mpr ?_ later hlater now
      obtain ⟨r', howner, hlocal'⟩ := hbuilt.entry_new honly hself (Client.mem_claims_of_entry he)
      obtain rfl := Option.some.inj (hlocal.symm.trans hlocal')
      obtain ⟨⟨r', mode'⟩, hlookup, hr⟩ := Option.map_eq_some_iff.mp howner
      obtain rfl : r' = r := hr
      rw [husers, hlookup]
      rw [hb] at hlookup
      rcases buildUserMaps_entry hlookup with ⟨x, hx, hmode⟩ | h
      · obtain rfl := honly v (Client.mem_claims_of_entry he) x hx (Client.mem_claims_of_entry hmode)
        have hone : ([payload.toClient X t d].flatMap (Client.claims X)).Nodup := by
          rw [List.flatMap_singleton]
          exact toClient_nodup hfresh t hu
        obtain rfl : mode' = mode := Client.mode_eq_of_nodup hone List.mem_cons_self List.mem_cons_self hmode he
        rfl
      · cases h
    · obtain ⟨k, hk⟩ : ∃ k, toKey (X.sha256 (utf8 (rawTokenHex d.tokenBytes))) = some k :=
        ⟨_, dif_pos (by simpa using hfresh.hashed)⟩
      have hkey : tokenKey (payload.toClient X t d).subTokenHash = some k := (tokenKey_tokenHashHex X _).trans hk
      have hbuiltTokens : TokensBuilt X cs b := hb ▸ buildUserMaps_tokens s.heap s.nextRef cs
      obtain ⟨r', hr'⟩ := hbuiltTokens.found _ hself (Option.ne_none_iff_exists'.mpr ⟨u, hu⟩) k hkey
      obtain ⟨x, hx, hxk, hlocal'⟩ := hbuiltTokens.owned k r' hr'
      have hx : x = payload.toClient X t d := by
        refine ((hmem x).mp hx).resolve_left fun hx => hfresh.token x hx ?_
        rw [hxk, hk]
      subst hx
      obtain rfl := Option.some.inj (hlocal.symm.trans hlocal')
      rw [EngineState.resolveSubToken, trim_rawTokenHex, hk, Option.bind_some, htokens]
      exact hr'

/-! ## The whole request -/

variable {id : Uuid} {now : ℤ} {bind : Except String Unit} {profile p : RealityProfile} {r : RealityRuntime}

/-- The first part refuses, or the identifier and the e-mail are new. -/
theorem startVpnAccount_cases (s : EngineState) (payload : CreateVpnAccountPayload) (id : Uuid) (now : ℤ) :
    (∃ status body, startVpnAccount s payload id now = .refuse (.refused status body)) ∨
      vpnDuplicate s payload = none ∧ ∀ r, startVpnAccount s payload id now = .refuse r →
        ∃ status body, r = .refused status body := by
  cases hdup : vpnDuplicate s payload with
  | some r =>
    obtain ⟨c, -, hc⟩ := List.exists_of_findSome?_eq_some hdup
    left
    split_ifs at hc <;> obtain rfl := Option.some.inj hc <;> exact ⟨_, _, by rw [startVpnAccount, hdup]⟩
  | none =>
    refine .inr ⟨rfl, fun r h => ?_⟩
    rw [startVpnAccount, hdup] at h
    dsimp only at h
    split_ifs at h
    · cases hpid : payload.realityProfileId with
      | none =>
        rw [hpid] at h
        exact ⟨_, _, (VpnStart.refuse.inj h).symm⟩
      | some pid =>
        rw [hpid] at h
        dsimp only at h
        cases hfind : s.config.realityProfiles.find? (·.id = pid) with
        | none =>
          rw [hfind] at h
          exact ⟨_, _, (VpnStart.refuse.inj h).symm⟩
        | some q =>
          rw [hfind] at h
          cases h
    · cases hcustom : payload.customRealityProfile with
      | none =>
        rw [hcustom] at h
        exact ⟨_, _, (VpnStart.refuse.inj h).symm⟩
      | some custom =>
        rw [hcustom] at h
        dsimp only at h
        split_ifs at h
        · exact ⟨_, _, (VpnStart.refuse.inj h).symm⟩
        · exact ⟨_, _, (VpnStart.refuse.inj h).symm⟩

/-- A check keeps the tag. -/
theorem checkRealityProfile_tag (h : s.checkRealityProfile X profile = .ok p) :
    p.inboundTag = profile.inboundTag := by
  simp only [EngineState.checkRealityProfile, bind_ok] at h
  obtain ⟨q, hq, -, -, -, -, -, -, h⟩ := h
  obtain rfl := Except.ok.inj h
  simp only [RealityProfile.validateAndNormalize, bind_ok] at hq
  obtain ⟨-, -, -, -, -, -, -, -, -, -, names, -, -, -, sids, -, -, -, hq⟩ := hq
  split at hq
  · cases hq
  · obtain rfl := Except.ok.inj hq
    rfl

theorem VpnUndone.refl (s : EngineState) : VpnUndone s s := ⟨rfl, rfl, rfl, rfl, rfl, rfl, rfl⟩

/-- A refusal that leaves the state alone keeps the promise. -/
theorem vpnHonest_refused {status : ℕ} {body : String}
    (h : createVpnAccount X s payload id now bind d = (s, .refused status body)) :
    VpnHonest X s payload id now bind d := by
  simp only [VpnHonest, h]
  exact .refl s

/-- The promise is about the state before, of which a new profile keeps the accounts. -/
theorem VpnWorks.congr {s₀ : EngineState} {token : String} (h : s.nextRef = s₀.nextRef) :
    VpnWorks X s s' payload t d token ↔ VpnWorks X s₀ s' payload t d token := by
  rw [VpnWorks, VpnWorks, h]

/-- A request without a custom profile. -/
theorem vpnHonest_insert (hs : Populated X s) (hfresh : d.Fresh X s payload)
    (hnew : ∀ c ∈ s.config.clients, c.id ≠ payload.id) (hstart : startVpnAccount s payload id now = .insert t) :
    VpnHonest X s payload id now bind d ↔ VpnFits X s payload id now bind := by
  have hcall : createVpnAccount X s payload id now bind d = finishVpnAccount X s payload t d := by
    rw [createVpnAccount, hstart]
  simp only [VpnFits, hstart]
  by_cases hdone : s.Buildable X ∧ ∃ i ∈ s.config.inbounds, i.TakesTarget t.inboundTag payload.id
  · obtain ⟨s', cs, heq, hmem, husers, hheap, htokens⟩ := finishVpnAccount_done (d := d) hdone.1 hdone.2
    have htarget : vpnTarget s payload id now = t := by rw [vpnTarget, hstart]
    simp only [VpnHonest, hcall, heq, htarget]
    rw [finish_works_iff hs hfresh hnew hmem rfl husers hheap htokens]
    exact ⟨fun h _ _ => h, fun h => h hdone.1 hdone.2⟩
  · obtain ⟨status, body, heq⟩ := finishVpnAccount_refused d hdone
    refine iff_of_true (vpnHonest_refused (hcall.trans heq)) fun hb ht => absurd ⟨hb, ht⟩ hdone

/-- A request whose custom profile is created. -/
theorem vpnHonest_created (hs : Populated X s) (hfresh : d.Fresh X s payload)
    (hnew : ∀ c ∈ s.config.clients, c.id ≠ payload.id)
    (hstart : startVpnAccount s payload id now = .createProfile profile)
    (hcheck : s.checkRealityProfile X profile = .ok p) (hr : RealityRuntime.new X p = .ok r) :
    VpnHonest X s payload id now (.ok ()) d ↔ s.Buildable X ∧ s.IdFree X payload.id := by
  obtain ⟨listen, hl⟩ := Option.ne_none_iff_exists'.mp (checkRealityProfile_listen hcheck)
  obtain ⟨s₁, hpublish, hclients, hbuild, htakes⟩ := publish_clients (s := s) hr hl
  obtain ⟨s₂, hpublish', hconfig, -⟩ := publish_done (s := s) hr hl
  obtain rfl : s₂ = s₁ := (Prod.mk.inj (hpublish'.symm.trans hpublish)).1
  have hcall : createVpnAccount X s payload id now (.ok ()) d =
      finishVpnAccount X s₂ payload ⟨some profile.id, profile.inboundTag⟩ d := by
    simp only [createVpnAccount, hstart, hcheck, hpublish]
  obtain ⟨husers₁, -, hnext₁, -⟩ := publish_frame (X := X) s p (.ok ())
  rw [hpublish] at husers₁ hnext₁
  dsimp only at husers₁ hnext₁
  by_cases hb : s.Buildable X
  · have htarget : ∃ i ∈ s₂.config.inbounds, i.TakesTarget profile.inboundTag payload.id :=
      checkRealityProfile_tag hcheck ▸ htakes payload.id
    obtain ⟨s', cs, heq, hmem, husers, hheap, htokens⟩ :=
      finishVpnAccount_done (d := d) (t := ⟨some profile.id, profile.inboundTag⟩) (hbuild.mpr hb) htarget
    have hs₂ : Populated X s₂ := by
      have := hs.publish p (.ok ())
      rwa [hpublish] at this
    have hfresh₂ : d.Fresh X s₂ payload :=
      { hfresh with
        unknown := husers₁ ▸ hfresh.unknown
        token := hclients ▸ hfresh.token }
    have htargetEq : vpnTarget s payload id now = ⟨some profile.id, profile.inboundTag⟩ := by rw [vpnTarget, hstart]
    simp only [VpnHonest, hcall, heq, htargetEq]
    rw [← VpnWorks.congr hnext₁,
      finish_works_iff hs₂ hfresh₂ (hclients ▸ hnew) hmem rfl husers hheap htokens]
    simp only [EngineState.IdFree, husers₁, hb, true_and]
  · have hunbuilt : ¬ (s₂.Buildable X ∧ ∃ i ∈ s₂.config.inbounds, i.TakesTarget profile.inboundTag payload.id) :=
      fun h => hb (hbuild.mp h.1)
    obtain ⟨status, body, heq⟩ := finishVpnAccount_refused (t := ⟨some profile.id, profile.inboundTag⟩) d hunbuilt
    -- the new profile stays
    refine iff_of_false (fun h => ?_) fun h => hb h.1
    simp only [VpnHonest, hcall, heq] at h
    have hlen := congrArg (fun c : Config => c.realityProfiles.length) (hconfig.symm.trans h.config)
    simp [Config.withProfile] at hlen

/-- A free UUID and profiles that have runtimes are enough. -/
theorem vpnFits_of_free (hb : s.Buildable X) (hfree : s.IdFree X payload.id) :
    VpnFits X s payload id now bind := by
  unfold VpnFits
  cases startVpnAccount s payload id now with
  | refuse reply => trivial
  | insert t => exact fun _ _ => hfree
  | createProfile profile => exact fun _ _ => ⟨hb, hfree⟩

/-- **Which requests for an account keep the promise**, in every state of an engine: those that put no account
in that is not under a free UUID, and create no profile before an update that is refused. -/
theorem vpn_account_honest_iff {g : Draws} {cfg : Config}
    (hrun : Run.Reachable (engineStep X) (.new X g cfg) s) (hfresh : d.Fresh X s payload) (id : Uuid) (now : ℤ)
    (bind : Except String Unit) :
    VpnHonest X s payload id now bind d ↔ VpnFits X s payload id now bind := by
  have hs := populated_of_reachable hrun
  rcases startVpnAccount_cases s payload id now with ⟨status, body, hstart⟩ | ⟨hdup, hrefuse⟩
  · refine iff_of_true (vpnHonest_refused (by rw [createVpnAccount, hstart])) ?_
    simp only [VpnFits, hstart]
  · have hnew := vpnDuplicate_none hdup
    cases hstart : startVpnAccount s payload id now with
    | refuse reply =>
      obtain ⟨status, body, rfl⟩ := hrefuse reply hstart
      refine iff_of_true (vpnHonest_refused (by rw [createVpnAccount, hstart])) ?_
      simp only [VpnFits, hstart]
    | insert t => exact vpnHonest_insert hs hfresh hnew hstart
    | createProfile profile =>
      by_cases hdone : bind = .ok () ∧
          ∃ p r, s.checkRealityProfile X profile = .ok p ∧ RealityRuntime.new X p = .ok r
      · obtain ⟨rfl, p, r, hcheck, hr⟩ := hdone
        rw [vpnHonest_created hs hfresh hnew hstart hcheck hr]
        simp only [VpnFits, hstart]
        exact ⟨fun h _ _ => h, fun h => h trivial ⟨p, r, hcheck, hr⟩⟩
      · have hundone : ∃ e, createVpnAccount X s payload id now bind d = (s, vpnProfileError e) := by
          simp only [createVpnAccount, hstart]
          cases hcheck : s.checkRealityProfile X profile with
          | error e => exact ⟨e, rfl⟩
          | ok p =>
            have hunpublished : ¬ (bind = .ok () ∧ ∃ r, RealityRuntime.new X p = .ok r) := fun h =>
              hdone ⟨h.1, p, h.2.choose, hcheck, h.2.choose_spec⟩
            obtain ⟨e, he⟩ := publish_refused (s := s) hunpublished
            simp only [he]
            exact ⟨e, rfl⟩
        obtain ⟨e, he⟩ := hundone
        refine iff_of_true (vpnHonest_refused he) ?_
        simp only [VpnFits, hstart]
        exact fun hok h => absurd ⟨hok, h⟩ hdone

end

/-! ## An identifier that is no UUID -/

/-- A request for an account with a profile of its own. -/
def vpnRequest (id : String) : CreateVpnAccountPayload where
  email := "new@example.com"
  id := id
  totalGb := some 10
  speedLimit := none
  expiryTime := none
  connectionMode := "custom_profile"
  realityProfileId := none
  customRealityProfile := some ⟨"Custom", "vless-custom", "127.0.0.1", 10443, "aka.ms:443", ["aka.ms"],
    "hZHP8YPZFBGa3Cno3nepKfop/+KWy3YmpXq5WQdfryI=", ["da09ebd28dc215c8"], "chrome"⟩
  sni := none

def vpnRequestDraws : VpnDraws := ⟨List.replicate 32 7, uniformUuid 0xd1, uniformUuid 0xd2⟩

theorem newEngine_reachable :
    Run.Reachable (engineStep Sample.crates) (.new Sample.crates slotDraws builtInConfig) newEngine :=
  ⟨[], Run.exec_nil _⟩

/-- A free UUID. -/
theorem vpn_account_honest_iff_free :
    VpnHonest Sample.crates newEngine (vpnRequest (uniformId 'e')) (uniformUuid 0xc1) 0 (.ok ()) vpnRequestDraws := by
  have hfresh : vpnRequestDraws.Fresh Sample.crates newEngine (vpnRequest (uniformId 'e')) := {
    browsingWarp := by decide
    lowLatency := by decide
    ne := by decide
    apart := fun u hu => by
      obtain rfl : uniformUuid 0xee = u := Option.some.inj ((by decide : _ = _).trans hu)
      decide
    unknown := by decide
    hashed := rfl
    token := by decide }
  have hb : newEngine.Buildable Sample.crates := by
    have hnone : newEngine.config.realityProfiles = [] := by decide
    rw [EngineState.Buildable, buildAllRuntimes, hnone]
    exact ⟨∅, rfl⟩
  have hfree : newEngine.IdFree Sample.crates (uniformId 'e') := ⟨uniformUuid 0xee, by decide, by decide⟩
  have hiff := vpn_account_honest_iff newEngine_reachable hfresh (uniformUuid 0xc1) 0 (.ok ())
  exact hiff.mpr (vpnFits_of_free hb hfree)

/-- **An identifier that is no UUID** is accepted, and the account never authenticates. -/
theorem vpn_account_dishonest :
    Run.Reachable (engineStep Sample.crates) (.new Sample.crates slotDraws builtInConfig) newEngine ∧
      vpnRequestDraws.Fresh Sample.crates newEngine (vpnRequest "not-a-uuid") ∧
      (createVpnAccount Sample.crates newEngine (vpnRequest "not-a-uuid") (uniformUuid 0xc1) 0 (.ok ())
        vpnRequestDraws).2 = .account (rawTokenHex vpnRequestDraws.tokenBytes) ∧
      ¬ VpnHonest Sample.crates newEngine (vpnRequest "not-a-uuid") (uniformUuid 0xc1) 0 (.ok ())
        vpnRequestDraws := by
  have hparse : Sample.crates.parseUuid "not-a-uuid" = none := by decide
  have hreply : (createVpnAccount Sample.crates newEngine (vpnRequest "not-a-uuid") (uniformUuid 0xc1) 0 (.ok ())
      vpnRequestDraws).2 = .account (rawTokenHex vpnRequestDraws.tokenBytes) := by decide
  refine ⟨newEngine_reachable, ?_, hreply, fun h => ?_⟩
  · exact {
      browsingWarp := by decide
      lowLatency := by decide
      ne := by decide
      apart := fun u hu => by
        rw [vpnRequest, hparse] at hu
        cases hu
      unknown := by decide
      hashed := rfl
      token := by decide }
  · rw [VpnHonest] at h
    cases hcall : createVpnAccount Sample.crates newEngine (vpnRequest "not-a-uuid") (uniformUuid 0xc1) 0 (.ok ())
      vpnRequestDraws with
    | mk s' reply =>
      rw [hcall] at h hreply
      dsimp only at hreply
      subst hreply
      obtain ⟨u, -, hu, -⟩ := h
      rw [vpnRequest, hparse] at hu
      cases hu

end RXCore
