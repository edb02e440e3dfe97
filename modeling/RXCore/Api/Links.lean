import RXCore.Inbound
import RXCore.State.Accounts
import RXCore.Transport.Accept

/-!
# Subscription links

The parameters of a link are put together from an account and a profile; the listener decides from the
runtime that it has of the profile, and the engine from its user map.

* `RealityClientParameters.new`;
* `Populated`, with `new_populated` and `install_populated`: every account is in the map, and what the map
  leads to has a UUID for an identifier;
* `LinkWorks`: the link names what its listener and the engine accept;
* `validate_link`, `new_server`: what the checks of a profile and its runtime provide;
* **`link_works_iff`**: which links work;
* `uuid_fits_of_distinct`: accounts that share no UUID;
* **`foreign_sni_refused`**: an account with an SNI of its own.
-/

set_option autoImplicit false

namespace RXCore

open Encoding

structure RealityClientParameters where
  serverAddress : String
  serverPort : UInt16
  serverName : String
  publicKey : String
  shortId : String
  fingerprint : String
  uuid : Uuid
  profileName : String

/-- The SNI of an account, unless it is blank. -/
def Client.customSni (client : Client) : Option String := client.sni.filter fun s => trim s ≠ ""

/-- `RealityClientParameters::new`; a name or an id that is not there is empty, and an identifier that is no
UUID becomes the nil UUID. -/
def RealityClientParameters.new (X : Crates) (profile : RealityProfile) (client : Client)
    (fallbackAddress : String) : RealityClientParameters where
  serverAddress := fallbackAddress
  serverPort := profile.port
  serverName := client.customSni.getD (profile.serverNames.head?.getD "")
  publicKey := profile.publicKey
  shortId := profile.shortIds.head?.getD ""
  fingerprint := profile.fingerprint
  uuid := (X.parseUuid client.id).getD (Vector.replicate 16 0)
  profileName := profile.name

/-! ## The user map -/

/-- Every account is in the map under all its UUIDs, and the map leads to statistics that exist and have a
UUID for an identifier. -/
structure Populated (X : Crates) (s : EngineState) : Prop where
  found : ∀ c ∈ s.config.clients, ∀ u ∈ c.claims X, ∃ r, owner s.users u = some r
  parsed : ∀ u r, owner s.users u = some r → X.parseUuid (s.heap r).id ≠ none
  bound : ∀ u r, owner s.users u = some r → r < s.nextRef

section

variable {X : Crates} {s : EngineState}

/-- A map that is built over such a map. -/
theorem Built.populated {old : UserMap} {heap : Heap} {next : ℕ} {b : UserMaps}
    (hb : Built X old heap next s.config.clients b)
    (hold : ∀ u r, owner old u = some r → X.parseUuid (heap r).id ≠ none ∧ r < next)
    (husers : s.users = b.users) (hheap : s.heap = b.heap) (hnext : s.nextRef = b.nextRef) :
    Populated X s := by
  refine ⟨?_, fun u r h => ?_, fun u r h => ?_⟩
  · rw [husers]
    exact hb.found
  · rw [husers] at h
    obtain ⟨c, -, -, hlocal⟩ := hb.owned u r h
    obtain ⟨v, hv, h | ⟨-, -, d, -, hid, h⟩⟩ := hb.origin c.id r hlocal
    · obtain ⟨hparsed, hlt⟩ := hold v r h
      rw [hheap, (hb.kept r hlt).1]
      exact hparsed
    · rw [hheap, h]
      show X.parseUuid d.id ≠ none
      rw [hid, hv]
      exact Option.some_ne_none v
  · rw [husers] at h
    rw [hnext]
    obtain ⟨c, -, -, hlocal⟩ := hb.owned u r h
    exact hb.bound c.id r hlocal

theorem new_populated (g : Draws) (config : Config) : Populated X (EngineState.new X g config) :=
  (new_built X g config).populated (s := EngineState.new X g config) (fun _ _ h => nomatch h) rfl rfl rfl

theorem install_populated (hs : Populated X s) (cfg : Config) (runtimes : AList fun _ : Uuid => RealityRuntime) :
    Populated X (s.install X cfg runtimes) :=
  (install_built hs.bound cfg).populated (s := s.install X cfg runtimes)
    (fun u r h => ⟨hs.parsed u r h, hs.bound u r h⟩) rfl rfl rfl

end

/-! ## Links -/

/-- Neither the expiry nor the quota of an account is over. -/
def UserStats.Allows (u : UserStats) (now : ℤ) : Prop :=
  ¬ (0 < u.expiryTime ∧ u.expiryTime < now) ∧ ¬ (u.remainingBytes ≠ -1 ∧ u.remainingBytes ≤ 0)

instance (u : UserStats) (now : ℤ) : Decidable (u.Allows now) := inferInstanceAs (Decidable (_ ∧ _))

/-- The port that a listener has open; for port 0 the operating system chooses one. -/
def openPort (requested chosen : UInt16) : UInt16 := if requested = 0 then chosen else requested

/-- A listener with a runtime asks for the port: the one that is made with its profile, or that of an inbound
with the tag of the profile. -/
inductive EngineState.ListensWith (s : EngineState) (r : RealityRuntime) : UInt16 → Prop
  | profile : s.ListensWith r r.profile.port
  | inbound (i : InboundConfig) (hi : i ∈ s.config.inbounds) (hr : runtimeOfTag s i.tag = some r) :
    s.ListensWith r i.port

/-- A link names an SNI and a short id of the profile that its listener accepts, the public key of the
private key that the listener uses, the port that it has open, and a UUID under which the engine finds the
account. -/
structure LinkWorks (X : Crates) (s : EngineState) (client : Client) (r : RealityRuntime) (requested : UInt16)
    (params : RealityClientParameters) : Prop where
  sni : params.serverName ∈ r.profile.serverNames ∧
    ∀ info : ClientHelloInfo, info.serverName = some params.serverName → r.server.sniValid X info = true
  shortId : params.shortId ∈ r.profile.shortIds ∧
    ∃ bs ∈ r.server.shortIds, hexDecode (utf8 params.shortId) = .ok bs
  publicKey : params.publicKey =
    String.ofList (base64UrlEncode (X.x25519Public r.server.privateKey).toList)
  port : ∀ chosen, chosen ≠ 0 → openPort requested chosen = params.serverPort
  uuid : ∃ ref mode, s.users.lookup params.uuid = some (ref, mode) ∧ (s.heap ref).id = client.id ∧
    ∀ now, s.authenticateClient now params.uuid =
      if (s.heap ref).Allows now then some (ref, mode) else none

/-- What an account and a profile have to meet: an SNI of the account's own is one of the profile's names; the
port of the profile is not 0 and is the port of every inbound that runs it; the identifier is a UUID, under
which no other account is found. -/
structure LinkFits (X : Crates) (s : EngineState) (client : Client) (p : RealityProfile) (r : RealityRuntime) :
    Prop where
  sni : ∀ sni ∈ client.customSni, sni ∈ p.serverNames
  port : p.port ≠ 0 ∧ ∀ i ∈ s.config.inbounds, runtimeOfTag s i.tag = some r → i.port = p.port
  uuid : ∃ u, X.parseUuid client.id = some u ∧
    ∀ ref, owner s.users u = some ref → (s.heap ref).id = client.id

section

variable {X : Crates} {s : EngineState} {p q : RealityProfile} {r : RealityRuntime} {client : Client}

theorem mapM_ne_nil {ε α β : Type} {f : α → Except ε β} {l : List α} {bs : List β} (h : l.mapM f = .ok bs)
    (hl : l ≠ []) : bs ≠ [] := by
  cases l with
  | nil => exact absurd rfl hl
  | cons a l =>
    rw [List.mapM_cons] at h
    obtain ⟨b, -, h⟩ := bind_ok.mp h
    obtain ⟨bs', -, h⟩ := bind_ok.mp h
    obtain rfl := Except.ok.inj h
    exact List.cons_ne_nil b bs'

/-- **What the checks of a profile provide**: a name, a short id and the public key of its private key. -/
theorem validate_link (h : q.validateAndNormalize X = .ok p) :
    p.serverNames ≠ [] ∧ p.shortIds ≠ [] ∧ deriveRealityPublicKey X p.privateKey = some p.publicKey := by
  simp only [RealityProfile.validateAndNormalize, bind_ok] at h
  obtain ⟨-, -, -, -, -, -, -, -, -, -, names, hnames, _, hnil, sids, hsids, -, -, h⟩ := h
  cases hpbk : deriveRealityPublicKey X q.privateKey with
  | none => simp [hpbk] at h
  | some pbk =>
    rw [hpbk] at h
    obtain rfl := Except.ok.inj h
    obtain ⟨_, hne, hmap⟩ := bind_ok.mp hnames
    exact ⟨mapM_ne_nil hmap (refuseIf_ok.mp hne), mapM_ne_nil hsids (refuseIf_ok.mp hnil), hpbk⟩

/-- **What a runtime has of its profile.** -/
theorem new_server (h : RealityRuntime.new X p = .ok r) :
    r.profile = p ∧ r.server.serverNames = p.serverNames ∧ deriveRealityPublicKey X p.privateKey =
      some (String.ofList (base64UrlEncode (X.x25519Public r.server.privateKey).toList)) := by
  simp only [RealityRuntime.new, bind_ok] at h
  obtain ⟨pk, hpk, server, hs, h⟩ := h
  cases hpbk : deriveRealityPublicKey X p.privateKey with
  | none => simp [hpbk] at h
  | some pbk =>
    rw [hpbk] at h
    obtain rfl := Except.ok.inj h
    simp only [RealityServerRustls.new, bind_ok] at hs
    obtain ⟨ids, -, hs⟩ := hs
    cases hkey : toKey pk with
    | none => simp [hkey] at hs
    | some key =>
      simp only [hkey] at hs
      obtain ⟨-, -, hs⟩ := bind_ok.mp hs
      obtain rfl := Except.ok.inj hs
      refine ⟨rfl, rfl, ?_⟩
      cases hdec : decodePrivateKey p.privateKey with
      | error e => simp [hdec, Except.mapError] at hpk
      | ok bs =>
        rw [hdec] at hpk
        obtain rfl := Except.ok.inj hpk
        rw [← hpbk, deriveRealityPublicKey, hdec]
        simp [Except.toOption, hkey]

/-- The engine's answer for a UUID in its map. -/
theorem authenticateClient_eq {u : Uuid} {ref : ℕ} {mode : ClientRouteMode}
    (h : s.users.lookup u = some (ref, mode)) (now : ℤ) :
    s.authenticateClient now u = if (s.heap ref).Allows now then some (ref, mode) else none := by
  rw [EngineState.authenticateClient, h]
  dsimp only
  by_cases hexp : 0 < (s.heap ref).expiryTime ∧ (s.heap ref).expiryTime < now
  · rw [if_pos hexp, if_neg fun h => h.1 hexp]
  · rw [if_neg hexp]
    by_cases hquota : (s.heap ref).remainingBytes ≠ -1 ∧ (s.heap ref).remainingBytes ≤ 0
    · rw [if_pos hquota, if_neg fun h => h.2 hquota]
    · rw [if_neg hquota, if_pos ⟨hexp, hquota⟩]

theorem openPort_iff (requested port : UInt16) :
    (∀ chosen, chosen ≠ 0 → openPort requested chosen = port) ↔ requested = port ∧ port ≠ 0 := by
  unfold openPort
  by_cases hzero : requested = 0
  · simp only [hzero, if_true]
    refine iff_of_false (fun h => ?_) fun ⟨h, hne⟩ => hne h.symm
    have h1 := h 1 (by decide)
    have h2 := h 2 (by decide)
    exact absurd (h1.trans h2.symm) (by decide)
  · simp only [hzero, if_false]
    exact ⟨fun h => ⟨h 1 (by decide), h 1 (by decide) ▸ hzero⟩, fun h _ _ => h.1⟩

/-- The SNI of a link is one of the profile's names if an SNI of the account's own is. -/
theorem serverName_mem_iff (hnames : p.serverNames ≠ []) (fallbackAddress : String) :
    (RealityClientParameters.new X p client fallbackAddress).serverName ∈ p.serverNames ↔
      ∀ sni ∈ client.customSni, sni ∈ p.serverNames := by
  simp only [RealityClientParameters.new]
  cases client.customSni with
  | some sni => simp
  | none =>
    obtain ⟨name, names, hcons⟩ := List.exists_cons_of_ne_nil hnames
    simp [hcons]

/-- The listener accepts each of the profile's names. -/
theorem sniValid_of_mem {server : RealityServerRustls} {info : ClientHelloInfo} {sni : String}
    (hinfo : info.serverName = some sni) (hmem : sni ∈ server.serverNames) : server.sniValid X info = true := by
  rw [RealityServerRustls.sniValid, if_neg (List.ne_nil_of_mem hmem), hinfo]
  exact List.any_eq_true.mpr ⟨sni, hmem, beq_self_eq_true _⟩

/-- **The UUID of a link leads to the account** exactly if the identifier is a UUID, under which no other
account is found. -/
theorem uuid_resolves_iff (hs : Populated X s) (hclient : client ∈ s.config.clients) :
    (∃ ref mode, s.users.lookup ((X.parseUuid client.id).getD (Vector.replicate 16 0)) = some (ref, mode) ∧
        (s.heap ref).id = client.id) ↔
      ∃ u, X.parseUuid client.id = some u ∧ ∀ ref, owner s.users u = some ref → (s.heap ref).id = client.id := by
  have howner : ∀ {u ref}, owner s.users u = some ref ↔ ∃ mode, s.users.lookup u = some (ref, mode) := by
    intro u ref
    simp [owner]
  constructor
  · rintro ⟨ref, mode, hlookup, hid⟩
    -- what the map leads to has a UUID for an identifier
    obtain ⟨u, hu⟩ := Option.ne_none_iff_exists'.mp (hs.parsed _ ref (howner.mpr ⟨mode, hlookup⟩))
    rw [hid] at hu
    rw [hu, Option.getD_some] at hlookup
    refine ⟨u, hu, fun ref' href' => ?_⟩
    rw [howner.mpr ⟨mode, hlookup⟩] at href'
    obtain rfl := Option.some.inj href'
    exact hid
  · rintro ⟨u, hu, hown⟩
    obtain ⟨ref, href⟩ := hs.found client hclient u (Client.mem_claims_self hu)
    obtain ⟨mode, hlookup⟩ := howner.mp href
    rw [hu, Option.getD_some]
    exact ⟨ref, mode, hlookup, hown ref href⟩

/-- **A link works with every listener that runs its profile** exactly if its account and its profile
fit. -/
theorem link_works_iff (hs : Populated X s) (hclient : client ∈ s.config.clients)
    (hvalid : q.validateAndNormalize X = .ok p) (hr : RealityRuntime.new X p = .ok r)
    (fallbackAddress : String) :
    (∀ requested, s.ListensWith r requested →
        LinkWorks X s client r requested (.new X p client fallbackAddress)) ↔
      LinkFits X s client p r := by
  obtain ⟨hnames, hsids, hpbk⟩ := validate_link hvalid
  obtain ⟨rfl, hserver, hderive⟩ := new_server hr
  constructor
  · intro h
    have hworks := h r.profile.port .profile
    obtain ⟨ref, mode, hlookup, hid, -⟩ := hworks.uuid
    have hports : ∀ requested, s.ListensWith r requested → requested = r.profile.port ∧ r.profile.port ≠ 0 :=
      fun requested hlistens => (openPort_iff _ _).mp (h requested hlistens).port
    exact {
      sni := (serverName_mem_iff hnames fallbackAddress).mp hworks.sni.1
      port := ⟨(hports _ .profile).2, fun i hi hrun => (hports _ (.inbound i hi hrun)).1⟩
      uuid := (uuid_resolves_iff hs hclient).mp ⟨ref, mode, hlookup, hid⟩ }
  · intro h requested hlistens
    have hmem := (serverName_mem_iff (X := X) hnames fallbackAddress).mpr h.sni
    have hport : requested = r.profile.port := by
      cases hlistens with
      | profile => rfl
      | inbound i hi hrun => exact h.port.2 i hi hrun
    obtain ⟨sid, sids, hcons⟩ := List.exists_cons_of_ne_nil hsids
    have hsid : sid ∈ r.profile.shortIds := hcons ▸ List.mem_cons_self
    have hfirst : (RealityClientParameters.new X r.profile client fallbackAddress).shortId = sid := by
      simp [RealityClientParameters.new, hcons]
    obtain ⟨bs, hbs, -⟩ := validate_shortIds hvalid sid hsid
    obtain ⟨ref, mode, hlookup, hid⟩ := (uuid_resolves_iff hs hclient).mpr h.uuid
    exact {
      sni := ⟨hmem, fun info hinfo => sniValid_of_mem hinfo (hserver ▸ hmem)⟩
      shortId := by
        rw [hfirst]
        exact ⟨hsid, bs, (mem_of_mapM_ok (RealityRuntime.new_ok hr).2 bs).mpr ⟨sid, hsid, decodeShortId_ok.mpr hbs⟩,
          hbs⟩
      publicKey := Option.some.inj (hpbk.symm.trans hderive)
      port := (openPort_iff _ _).mpr ⟨hport, h.port.1⟩
      uuid := ⟨ref, mode, hlookup, hid, authenticateClient_eq hlookup⟩ }

/-- Among accounts that share no UUID, none is found under the UUID of another. -/
theorem uuid_fits_of_distinct (hs : Coherent X s) (hd : Distinct X s.config.clients)
    (hclient : client ∈ s.config.clients) {u : Uuid} (hu : X.parseUuid client.id = some u) :
    ∀ ref, owner s.users u = some ref → (s.heap ref).id = client.id :=
  fun _ href => hs.id_eq hd hclient (Client.mem_claims_self hu) href

end

/-! ## An SNI of the account's own -/

/-- An account with an SNI. -/
def accountWith (sni : String) : Client :=
  { clientWith (uniformId 'a') (uniformId 'b') (uniformId 'c') with sni := some sni }

/-- An engine with one account and the profile of the sample server. -/
def linkEngine (sni : String) : EngineState :=
  .new Sample.crates accountDraws
    { withClients [accountWith sni] with realityProfiles := [validatedWith "da09ebd28dc215c8"] }

theorem linkEngine_populated (sni : String) : Populated Sample.crates (linkEngine sni) := new_populated _ _

/-- An SNI that is the name of the profile. -/
theorem link_works_own_name :
    ∃ r, RealityRuntime.new Sample.crates (validatedWith "da09ebd28dc215c8") = .ok r ∧
      ∀ requested, (linkEngine "aka.ms").ListensWith r requested →
        LinkWorks Sample.crates (linkEngine "aka.ms") (accountWith "aka.ms") r requested
          (.new Sample.crates (validatedWith "da09ebd28dc215c8") (accountWith "aka.ms") "203.0.113.7") := by
  obtain ⟨r, hr⟩ : ∃ r, RealityRuntime.new Sample.crates (validatedWith "da09ebd28dc215c8") = .ok r := ⟨_, rfl⟩
  have hvalid : (profileWith "da09ebd28dc215c8").validateAndNormalize Sample.crates =
      .ok (validatedWith "da09ebd28dc215c8") := rfl
  refine ⟨r, hr, (link_works_iff (linkEngine_populated "aka.ms") (by decide) hvalid hr "203.0.113.7").mpr
    ⟨fun sni hsni => ?_, ⟨by decide, fun i hi hrun => ?_⟩, ?_⟩⟩
  · obtain rfl := Option.some.inj hsni
    decide
  · have hnone : (linkEngine "aka.ms").config.inbounds.all
        (fun i => (runtimeOfTag (linkEngine "aka.ms") i.tag).isNone) = true := by
      decide
    have hi := List.all_eq_true.mp hnone i hi
    rw [hrun] at hi
    cases hi
  · refine ⟨uniformUuid 0xaa, by decide, fun ref href => ?_⟩
    have howner : owner (linkEngine "aka.ms").users (uniformUuid 0xaa) = some 0 := by decide
    rw [howner] at href
    obtain rfl := Option.some.inj href
    decide

/-- **An account with an SNI that is none of the profile's names** gets a link that names it, and the
listener takes its client for a stranger. -/
theorem foreign_sni_refused :
    ∃ r, (profileWith "da09ebd28dc215c8").validateAndNormalize Sample.crates =
        .ok (validatedWith "da09ebd28dc215c8") ∧
      RealityRuntime.new Sample.crates (validatedWith "da09ebd28dc215c8") = .ok r ∧
      Populated Sample.crates (linkEngine "example.com") ∧
      accountWith "example.com" ∈ (linkEngine "example.com").config.clients ∧
      (∀ info : ClientHelloInfo, info.serverName = some "example.com" →
        r.server.sniValid Sample.crates info = false) ∧
      ¬ ∀ requested, (linkEngine "example.com").ListensWith r requested →
        LinkWorks Sample.crates (linkEngine "example.com") (accountWith "example.com") r requested
          (.new Sample.crates (validatedWith "da09ebd28dc215c8") (accountWith "example.com") "203.0.113.7") := by
  obtain ⟨r, hr⟩ : ∃ r, RealityRuntime.new Sample.crates (validatedWith "da09ebd28dc215c8") = .ok r := ⟨_, rfl⟩
  obtain ⟨hprofile, hserver, -⟩ := new_server hr
  refine ⟨r, rfl, hr, linkEngine_populated _, by decide, fun info hinfo => ?_, fun h => ?_⟩
  · rw [RealityServerRustls.sniValid, hserver, hinfo]
    decide
  · have hmem := (h _ .profile).sni.1
    rw [hprofile] at hmem
    exact absurd hmem (by decide)

end RXCore
