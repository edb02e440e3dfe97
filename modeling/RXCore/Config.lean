import RXCore.Std
import RXCore.Crates
import RXCore.Lib.Encoding

/-!
# The configuration

The records of `config.json`, the checks of Reality settings and profiles, and the migration of an
old configuration. Gigabyte floats are exact rationals.

* `Config` and its parts, `defaultConfig`, `builtInConfig`;
* `deriveRealityPublicKey`, `RealitySettings.validateAndNormalize`,
  `RealityProfile.validateAndNormalize`;
* `Config.migrateIfNeeded`, given the identifiers and the time it draws;
* `Config.clients`: all clients, inbound after inbound;
* `migrateIfNeeded_inbounds`, `migrateIfNeeded_clients`: clients with both aliases are left as they
  are, the others keep everything else;
* **`validate_shortIds`**: the short ids of a validated profile decode to 1 to 8 bytes.
-/

set_option autoImplicit false

namespace RXCore

open Encoding

structure NetworkConfig where
  ipv4Only : Bool
deriving DecidableEq

structure TlsSettings where
  serverName : String
  certificateFile : Option String
  keyFile : Option String
deriving DecidableEq

structure RealitySettings where
  dest : String
  serverNames : List String
  privateKey : String
  shortIds : List String
deriving DecidableEq

structure StreamSettings where
  security : String
  tlsSettings : Option TlsSettings
  realitySettings : Option RealitySettings
deriving DecidableEq

structure Client where
  id : String
  email : Option String
  limitIp : Option ℕ
  totalGb : Option ℕ
  expiryTime : Option ℤ
  speedLimit : Option ℕ
  remainingGb : Option ℚ
  rx : Option ℕ
  tx : Option ℕ
  realityProfileId : Option Uuid
  inboundTag : Option String
  browsingWarpId : Option String
  lowLatencyId : Option String
  subTokenHash : Option String
  sni : Option String
deriving DecidableEq

structure InboundSettings where
  clients : Option (List Client)
deriving DecidableEq

structure InboundConfig where
  tag : String
  listen : IpAddr
  port : UInt16
  protocol : String
  settings : InboundSettings
  streamSettings : Option StreamSettings
deriving DecidableEq

structure TlsClientSettings where
  serverName : String
  reality : Option Bool
deriving DecidableEq

structure VlessClientConfig where
  server : String
  port : UInt16
  uuid : String
  tls : Option TlsClientSettings
deriving DecidableEq

structure Hysteria2ClientConfig where
  server : String
  port : UInt16
  auth : String
  upMbps : Option ℕ
  downMbps : Option ℕ
  tls : Option TlsClientSettings
deriving DecidableEq

structure FragmentSettings where
  packets : String
  length : String
  interval : ℕ
deriving DecidableEq

structure OutboundSettings where
  fragment : Option FragmentSettings
  vless : Option VlessClientConfig
  hysteria2 : Option Hysteria2ClientConfig
deriving DecidableEq

structure OutboundConfig where
  tag : String
  protocol : String
  settings : Option OutboundSettings
  outboundProxy : Option String
  bindAddress : Option String
deriving DecidableEq

structure RoutingRule where
  domain : Option (List String)
  ip : Option (List String)
  port : Option (List UInt16)
  inboundTag : Option (List String)
  outboundTag : String
deriving DecidableEq

structure RoutingConfig where
  rules : List RoutingRule
deriving DecidableEq

structure ApiConfig where
  listen : IpAddr
  port : UInt16
  trustedProxies : List IpAddr
deriving DecidableEq

structure SubscriptionConfig where
  listen : IpAddr
  port : UInt16
deriving DecidableEq

inductive DomainRuleScope where
  | global
deriving DecidableEq

/-- `WarpDomainSet` and `DirectExceptionSet`, which have the same fields. -/
structure DomainSet where
  id : Uuid
  name : String
  description : String
  exactDomains : List String
  domainSuffixes : List String
  enabled : Bool
  priority : ℤ
  scope : DomainRuleScope
  createdAt : ℤ
  updatedAt : ℤ
deriving DecidableEq

structure RealityProfile where
  id : Uuid
  name : String
  inboundTag : String
  listen : String
  port : UInt16
  dest : String
  serverNames : List String
  privateKey : String
  publicKey : String
  shortIds : List String
  fingerprint : String
  createdAt : ℤ
  updatedAt : ℤ
deriving DecidableEq

structure Config where
  inbounds : List InboundConfig
  outbounds : List OutboundConfig
  routing : RoutingConfig
  api : ApiConfig
  subscription : SubscriptionConfig
  realityProfiles : List RealityProfile
  warpDomainSets : List DomainSet
  directExceptionSets : List DomainSet
  publicServerAddress : Option String
  subscriptionBaseUrl : Option String
  routingSchemaVersion : ℕ
  network : NetworkConfig
deriving DecidableEq

/-- How a client's traffic is routed by default. -/
inductive ClientRouteMode where
  | smart
  | browsingWarp
  | lowLatencyDirect
deriving DecidableEq

/-- `Config::default`. -/
def defaultConfig : Config where
  inbounds := []
  outbounds := []
  routing := ⟨[]⟩
  api := ⟨.v4 .localhost, 9091, []⟩
  subscription := ⟨.v4 .unspecified, 9100⟩
  realityProfiles := []
  warpDomainSets := []
  directExceptionSets := []
  publicServerAddress := none
  subscriptionBaseUrl := none
  routingSchemaVersion := 0
  network := ⟨true⟩

/-- The configuration that `main` starts with when there is no file. -/
def builtInConfig : Config :=
  { defaultConfig with
    inbounds := [{
      tag := "vless-inbound"
      listen := .v4 .unspecified
      port := 443
      protocol := "vless"
      settings := ⟨some [⟨"ad60c2b2-cc0c-492a-89aa-c92330a10cc9", some "test_user@example.com", none, none,
        none, none, none, none, none, none, none, none, none, none, none⟩]⟩
      streamSettings := some ⟨"tls", some ⟨"aks.ms", none, none⟩, none⟩ }]
    outbounds := [
      ⟨"bypass-sni", "fragment", some ⟨some ⟨"1-5", "1-10", 20⟩, none, none⟩, none, none⟩,
      ⟨"freedom", "freedom", none, none, none⟩]
    routing := ⟨[⟨some ["tiktok.com", "byteoversea.com"], none, none, none, "bypass-sni"⟩]⟩
    api := ⟨.v4 .localhost, 9091, []⟩ }

/-- The UUID of its account. -/
def builtInUuid : Uuid :=
  #v[0xad, 0x60, 0xc2, 0xb2, 0xcc, 0x0c, 0x49, 0x2a, 0x89, 0xaa, 0xc9, 0x23, 0x30, 0xa1, 0x0c, 0xc9]

/-- The clients of an inbound, in order. -/
def InboundConfig.clients (i : InboundConfig) : List Client := i.settings.clients.getD []

/-- The clients in the order in which `for inbound .. for client ..` meets them. -/
def Config.clients (c : Config) : List Client := c.inbounds.flatMap InboundConfig.clients

/-- Rewrite every client of an inbound. -/
def InboundConfig.mapClients (f : Client → Client) (i : InboundConfig) : InboundConfig :=
  { i with settings := ⟨i.settings.clients.map fun cs => cs.map f⟩ }

/-- Rewrite every client. -/
def Config.mapClients (f : Client → Client) (c : Config) : Config :=
  { c with inbounds := c.inbounds.map (InboundConfig.mapClients f) }

theorem InboundConfig.clients_mapClients (f : Client → Client) (i : InboundConfig) :
    (i.mapClients f).clients = i.clients.map f := by
  rw [mapClients, clients, clients]
  cases i.settings.clients <;> rfl

theorem Config.clients_mapClients (f : Client → Client) (c : Config) :
    (c.mapClients f).clients = c.clients.map f := by
  rw [mapClients, clients, clients, List.flatMap_map, List.map_flatMap]
  exact congrArg (List.flatMap · c.inbounds) (funext (InboundConfig.clients_mapClients f))

theorem Config.mapClients_congr {f g : Client → Client} {c : Config}
    (h : ∀ x ∈ c.clients, f x = g x) : c.mapClients f = c.mapClients g := by
  rw [mapClients, mapClients]
  congr 1
  refine List.map_congr_left fun i hi => ?_
  rw [InboundConfig.mapClients, InboundConfig.mapClients]
  cases hc : i.settings.clients with
  | none => rfl
  | some cs =>
    have hcs : cs.map f = cs.map g := List.map_congr_left fun x hx =>
      h x (List.mem_flatMap.mpr ⟨i, hi, by rw [InboundConfig.clients, hc]; exact hx⟩)
    simp only [Option.map_some, hcs]

/-! ## Reality settings -/

/-- The private key in base64, or else in hexadecimal. -/
def decodePrivateKey (s : String) : Except HexError (List UInt8) :=
  match base64Decode (utf8 s) with
  | some bs => .ok bs
  | none => hexDecode (utf8 s)

/-- `try_into` an array of 32 bytes. -/
def toKey (bs : List UInt8) : Option Key :=
  if h : bs.toArray.size = 32 then some ⟨bs.toArray, h⟩ else none

/-- `derive_reality_public_key`. -/
def deriveRealityPublicKey (X : Crates) (privateKey : String) : Option String := do
  let bs ← (decodePrivateKey privateKey).toOption
  let key ← toKey bs
  return String.ofList (base64UrlEncode (X.x25519Public key).toList)

/-- The check of `dest` that settings and profiles share. -/
def validateDest (dest : String) : Except String Unit := do
  refuseIf (trim dest = "") "Reality dest is empty"
  match splitAt ':' dest with
  | [host, port] =>
    if trim host = "" ∨ trim port = "" then
      .error ("Reality dest must be host:port, got '" ++ dest ++ "'")
    else if parseU16 port = none then
      .error ("Reality dest port must be a valid u16, got '" ++ port ++ "'")
    else return
  | _ => .error ("Reality dest must be host:port, got '" ++ dest ++ "'")

/-- The server names, trimmed and in lower case; empty ones are refused. -/
def normalizeServerNames (X : Crates) (names : List String) : Except String (List String) := do
  refuseIf (names = []) "Reality server_names cannot be empty"
  names.mapM fun name =>
    if trim name = "" then .error "Reality server_names contains an empty hostname"
    else .ok (X.toLowercase (trim name))

/-- The check of the private key that settings and profiles share. -/
def validatePrivateKey (privateKey : String) : Except String Unit :=
  match decodePrivateKey privateKey with
  | .error e => .error ("Invalid base64/hex Reality private key: " ++ e.display)
  | .ok bs =>
    if bs.length = 32 then return
    else .error ("Reality private key must be 32 bytes, got " ++ toString bs.length ++ " bytes")

/-- The check of one short id of `RealitySettings`: any even length will do. -/
def validateSettingsShortId (sid : String) : Except String Unit :=
  if (utf8 sid).length % 2 ≠ 0 then
    .error ("Reality short ID must have an even length, got '" ++ sid ++ "'")
  else match hexDecode (utf8 sid) with
    | .error _ => .error ("Reality short ID must be a valid hex string, got '" ++ sid ++ "'")
    | .ok _ => return

/-- `RealitySettings::validate_and_normalize`. -/
def RealitySettings.validateAndNormalize (X : Crates) (s : RealitySettings) :
    Except String RealitySettings := do
  validateDest s.dest
  let names ← normalizeServerNames X s.serverNames
  refuseIf (s.shortIds = []) "Reality short_ids cannot be empty"
  s.shortIds.forM validateSettingsShortId
  validatePrivateKey s.privateKey
  return { s with serverNames := names }

/-- One short id of a profile, trimmed and in lower case: 2 to 16 hexadecimal digits, evenly many. -/
def normalizeShortId (X : Crates) (sid : String) : Except String String :=
  let sid := X.toLowercase (trim sid)
  let len := (utf8 sid).length
  if len < 2 ∨ 16 < len ∨ len % 2 ≠ 0 then
    .error ("Reality short ID must be even length between 2 and 16 hex characters, got '"
      ++ sid ++ "'")
  else match hexDecode (utf8 sid) with
    | .error _ => .error ("Reality short ID must be a valid hex string, got '" ++ sid ++ "'")
    | .ok _ => .ok sid

/-- `RealityProfile::validate_and_normalize`. -/
def RealityProfile.validateAndNormalize (X : Crates) (p : RealityProfile) :
    Except String RealityProfile := do
  refuseIf (trim p.name = "") "Profile name is empty"
  refuseIf (trim p.inboundTag = "") "Inbound tag is empty"
  refuseIf (trim p.listen = "") "Listen address is empty"
  refuseIf (parseIpAddr p.listen = none) ("Invalid listen IP address: " ++ p.listen)
  validateDest p.dest
  let names ← normalizeServerNames X p.serverNames
  refuseIf (p.shortIds = []) "Reality short_ids cannot be empty"
  let sids ← p.shortIds.mapM (normalizeShortId X)
  validatePrivateKey p.privateKey
  match deriveRealityPublicKey X p.privateKey with
  | none => .error "Failed to derive public key"
  | some pbk => return { p with serverNames := names, shortIds := sids, publicKey := pbk }

/-! ## Migration -/

/-- What a migration draws from its surroundings: fresh identifiers, in order, and the time. -/
structure Draws where
  uuid : ℕ → Uuid
  now : ℤ

/-- The profile made for an inbound with Reality settings. -/
def profileOfInbound (X : Crates) (g : Draws) (n : ℕ) (i : InboundConfig) (rs : RealitySettings) :
    RealityProfile where
  id := g.uuid n
  name := "Default VLESS Reality"
  inboundTag := i.tag
  listen := i.listen.display
  port := i.port
  dest := rs.dest
  serverNames := rs.serverNames
  privateKey := rs.privateKey
  publicKey := (deriveRealityPublicKey X rs.privateKey).getD ""
  shortIds := rs.shortIds
  fingerprint := "chrome"
  createdAt := g.now
  updatedAt := g.now

/-- The Reality settings of an inbound that speaks VLESS over Reality. -/
def InboundConfig.reality (i : InboundConfig) : Option RealitySettings :=
  if i.protocol = "vless" then
    match i.streamSettings with
    | some ss => if ss.security = "reality" then ss.realitySettings else none
    | none => none
  else none

/-- Profiles for the inbounds, the identifiers being drawn from number `n` on. -/
def profilesOfInbounds (X : Crates) (g : Draws) : ℕ → List InboundConfig → List RealityProfile
  | _, [] => []
  | n, i :: is => match i.reality with
    | some rs => profileOfInbound X g n i rs :: profilesOfInbounds X g (n + 1) is
    | none => profilesOfInbounds X g n is

/-- A domain set of the first schema version. -/
def initialSet (g : Draws) (n : ℕ) (name description : String) (exact suffixes : List String)
    (enabled : Bool) (priority : ℤ) : DomainSet :=
  ⟨g.uuid n, name, description, exact, suffixes, enabled, priority, .global, g.now, g.now⟩

/-- The sets that send names through WARP, drawn from number `n` on. -/
def initialWarpSets (g : Draws) (n : ℕ) : List DomainSet :=
  [initialSet g n "Online Fix Compatibility" "Routes Online Fix traffic through WARP"
      ["online-fix.me"] ["online-fix.me"] true 10,
    initialSet g (n + 1) "Google Search Compatibility" "Routes Google Search through WARP"
      ["www.google.com", "google.com"] [] false 5,
    initialSet g (n + 2) "Google Account Compatibility" "Routes Google Account through WARP"
      ["accounts.google.com"] ["googleusercontent.com", "gstatic.com"] false 5]

/-- The set of names that never go through WARP. -/
def initialDirectSets (g : Draws) (n : ℕ) : List DomainSet :=
  [initialSet g n "VoIP and Gaming Direct Exceptions" "Low-latency VoIP and gaming services"
    [] ["discord.gg", "discord.com", "steampowered.com"] true 10]

/-- The sets of a configuration of schema version 0, and the next number to draw. -/
def migrateSets (g : Draws) (n : ℕ) (c : Config) : Config × ℕ :=
  if c.routingSchemaVersion = 0 then
    let (warp, n) := if c.warpDomainSets = [] then (initialWarpSets g n, n + 3)
      else (c.warpDomainSets, n)
    let (direct, n) := if c.directExceptionSets = [] then (initialDirectSets g n, n + 1)
      else (c.directExceptionSets, n)
    ({ c with warpDomainSets := warp, directExceptionSets := direct, routingSchemaVersion := 1 }, n)
  else (c, n)

/-- The alias identifiers that a client does not have yet. -/
def migrateClient (X : Crates) (g : Draws) (n : ℕ) (c : Client) : Client × ℕ :=
  let (b, n) := match c.browsingWarpId with
    | none => (X.uuidToString (g.uuid n), n + 1)
    | some b => (b, n)
  let (l, n) := match c.lowLatencyId with
    | none => (X.uuidToString (g.uuid n), n + 1)
    | some l => (l, n)
  ({ c with browsingWarpId := some b, lowLatencyId := some l }, n)

def migrateClients (X : Crates) (g : Draws) : ℕ → List Client → List Client × ℕ
  | n, [] => ([], n)
  | n, c :: cs =>
    let (c, n) := migrateClient X g n c
    let (cs, n) := migrateClients X g n cs
    (c :: cs, n)

def migrateInbounds (X : Crates) (g : Draws) : ℕ → List InboundConfig → List InboundConfig
  | _, [] => []
  | n, i :: is => match i.settings.clients with
    | none => i :: migrateInbounds X g n is
    | some cs =>
      let (cs, n) := migrateClients X g n cs
      { i with settings := ⟨some cs⟩ } :: migrateInbounds X g n is

/-- `Config::migrate_if_needed`, without its answer whether anything changed. -/
def Config.migrateIfNeeded (X : Crates) (g : Draws) (c : Config) : Config :=
  let profiles := profilesOfInbounds X g 0 c.inbounds
  let (c, n) := if c.realityProfiles = [] then ({ c with realityProfiles := profiles }, profiles.length)
    else (c, 0)
  let (c, n) := migrateSets g n c
  { c with inbounds := migrateInbounds X g n c.inbounds }

/-- A migrated configuration: nothing is left to draw for its clients. -/
def Client.Migrated (c : Client) : Prop := c.browsingWarpId ≠ none ∧ c.lowLatencyId ≠ none

theorem migrateClients_of_migrated {X : Crates} {g : Draws} (n : ℕ) {cs : List Client}
    (h : ∀ c ∈ cs, c.Migrated) : migrateClients X g n cs = (cs, n) := by
  induction cs with
  | nil => rfl
  | cons c cs ih =>
    obtain ⟨hb, hl⟩ := h c List.mem_cons_self
    obtain ⟨b, hb⟩ := Option.ne_none_iff_exists'.mp hb
    obtain ⟨l, hl⟩ := Option.ne_none_iff_exists'.mp hl
    have hc : migrateClient X g n c = (c, n) := by
      rw [migrateClient, hb, hl]
      cases c
      simp_all
    simp only [migrateClients, hc, ih fun d hd => h d (List.mem_cons_of_mem _ hd)]

theorem migrateInbounds_of_migrated {X : Crates} {g : Draws} (n : ℕ) {is : List InboundConfig}
    (h : ∀ i ∈ is, ∀ c ∈ i.clients, c.Migrated) : migrateInbounds X g n is = is := by
  induction is with
  | nil => rfl
  | cons i is ih =>
    have ih := ih fun j hj => h j (List.mem_cons_of_mem _ hj)
    rw [migrateInbounds]
    cases hcs : i.settings.clients with
    | none => simp only [ih]
    | some cs =>
      have hm : migrateClients X g n cs = (cs, n) := migrateClients_of_migrated n fun c hc =>
        h i List.mem_cons_self c (by rw [InboundConfig.clients, hcs]; exact hc)
      have hs : (⟨some cs⟩ : InboundSettings) = i.settings := by
        rw [← hcs]
      simp only [hm, ih, hs]

theorem migrateSets_inbounds (g : Draws) (n : ℕ) (c : Config) :
    (migrateSets g n c).1.inbounds = c.inbounds := by
  unfold migrateSets
  split_ifs <;> rfl

/-- A migration leaves the network mode as it is. -/
theorem migrateIfNeeded_network (X : Crates) (g : Draws) (c : Config) :
    (c.migrateIfNeeded X g).network = c.network := by
  have hsets : ∀ (n : ℕ) (c : Config), (migrateSets g n c).1.network = c.network := by
    intro n c
    unfold migrateSets
    split_ifs <;> rfl
  unfold Config.migrateIfNeeded
  dsimp only
  rw [hsets]
  split_ifs <;> rfl

/-- The clients of a migrated configuration stay as they are. -/
theorem migrateIfNeeded_inbounds {X : Crates} {g : Draws} {c : Config}
    (h : ∀ x ∈ c.clients, x.Migrated) : (c.migrateIfNeeded X g).inbounds = c.inbounds := by
  have hin : ∀ i ∈ c.inbounds, ∀ x ∈ i.clients, x.Migrated := fun i hi x hx =>
    h x (List.mem_flatMap.mpr ⟨i, hi, hx⟩)
  unfold Config.migrateIfNeeded
  dsimp only
  rw [migrateSets_inbounds]
  split_ifs <;> exact migrateInbounds_of_migrated _ hin

/-- What a migration makes of a client. -/
def Client.MigratesTo (X : Crates) (g : Draws) (c c' : Client) : Prop :=
  ∃ n, c' = (migrateClient X g n c).1

theorem migrateClients_forall₂ (X : Crates) (g : Draws) (n : ℕ) (cs : List Client) :
    List.Forall₂ (Client.MigratesTo X g) cs (migrateClients X g n cs).1 := by
  induction cs generalizing n with
  | nil => exact .nil
  | cons c cs ih => exact .cons ⟨n, rfl⟩ (ih _)

theorem migrateInbounds_forall₂ (X : Crates) (g : Draws) (n : ℕ) (is : List InboundConfig) :
    List.Forall₂ (Client.MigratesTo X g) (is.flatMap InboundConfig.clients)
      ((migrateInbounds X g n is).flatMap InboundConfig.clients) := by
  induction is generalizing n with
  | nil => exact .nil
  | cons i is ih =>
    rw [migrateInbounds]
    cases hcs : i.settings.clients with
    | none =>
      have hi : i.clients = [] := by rw [InboundConfig.clients, hcs]; rfl
      rw [List.flatMap_cons, List.flatMap_cons, hi]
      exact ih n
    | some cs =>
      have hi : i.clients = cs := by rw [InboundConfig.clients, hcs]; rfl
      rw [List.flatMap_cons, hi]
      exact List.rel_append (migrateClients_forall₂ X g n cs) (ih _)

/-- The clients of a migrated configuration, one by one. -/
theorem migrateIfNeeded_clients (X : Crates) (g : Draws) (c : Config) :
    List.Forall₂ (Client.MigratesTo X g) c.clients (c.migrateIfNeeded X g).clients := by
  unfold Config.migrateIfNeeded Config.clients
  dsimp only
  rw [migrateSets_inbounds]
  split_ifs <;> exact migrateInbounds_forall₂ X g _ c.inbounds

/-- Every migrated client was a client, and every client is migrated. -/
theorem mem_migrateIfNeeded {X : Crates} {g : Draws} {cfg : Config} :
    (∀ c ∈ cfg.clients, ∃ c' ∈ (cfg.migrateIfNeeded X g).clients, c.MigratesTo X g c') ∧
      ∀ c' ∈ (cfg.migrateIfNeeded X g).clients, ∃ c ∈ cfg.clients, c.MigratesTo X g c' := by
  have h := migrateIfNeeded_clients X g cfg
  generalize cfg.clients = cs, (cfg.migrateIfNeeded X g).clients = cs' at h
  induction h with
  | nil => exact ⟨fun _ hc => absurd hc List.not_mem_nil, fun _ hc => absurd hc List.not_mem_nil⟩
  | cons hd _ ih =>
    constructor
    · rintro c (_ | ⟨_, hc⟩)
      · exact ⟨_, List.mem_cons_self, hd⟩
      · obtain ⟨c', hc', hm⟩ := ih.1 c hc
        exact ⟨c', List.mem_cons_of_mem _ hc', hm⟩
    · rintro c' (_ | ⟨_, hc'⟩)
      · exact ⟨_, List.mem_cons_self, hd⟩
      · obtain ⟨c, hc, hm⟩ := ih.2 c' hc'
        exact ⟨c, List.mem_cons_of_mem _ hc, hm⟩

/-- A migration changes nothing but aliases that are missing. -/
theorem Client.MigratesTo.cases {X : Crates} {g : Draws} {c c' : Client} (h : c.MigratesTo X g c') :
    ∃ b l, c' = { c with browsingWarpId := some b, lowLatencyId := some l } ∧
      (c.browsingWarpId = some b ∨ ∃ n, b = X.uuidToString (g.uuid n)) ∧
      (c.lowLatencyId = some l ∨ ∃ n, l = X.uuidToString (g.uuid n)) := by
  obtain ⟨n, rfl⟩ := h
  rw [migrateClient]
  cases c.browsingWarpId with
  | none => cases c.lowLatencyId with
    | none => exact ⟨_, _, rfl, .inr ⟨_, rfl⟩, .inr ⟨_, rfl⟩⟩
    | some l => exact ⟨_, _, rfl, .inr ⟨_, rfl⟩, .inl rfl⟩
  | some b => cases c.lowLatencyId with
    | none => exact ⟨_, _, rfl, .inl rfl, .inr ⟨_, rfl⟩⟩
    | some l => exact ⟨_, _, rfl, .inl rfl, .inl rfl⟩

theorem normalizeShortId_ok {X : Crates} {sid sid' : String} (h : normalizeShortId X sid = .ok sid') :
    ∃ bs, hexDecode (utf8 sid') = .ok bs ∧ 1 ≤ bs.length ∧ bs.length ≤ 8 := by
  simp only [normalizeShortId] at h
  split_ifs at h with hlen
  split at h
  · cases h
  · next bs hbs =>
    obtain rfl := Except.ok.inj h
    have := hexDecode_length hbs
    exact ⟨bs, hbs, by omega, by omega⟩

/-- **The short ids of a validated profile decode to 1 to 8 bytes.** -/
theorem validate_shortIds {X : Crates} {p q : RealityProfile} (h : p.validateAndNormalize X = .ok q) :
    ∀ sid ∈ q.shortIds, ∃ bs, hexDecode (utf8 sid) = .ok bs ∧ 1 ≤ bs.length ∧ bs.length ≤ 8 := by
  simp only [RealityProfile.validateAndNormalize, bind_ok] at h
  obtain ⟨-, -, -, -, -, -, -, -, -, -, names, -, -, -, sids, hsids, -, -, h⟩ := h
  split at h
  · cases h
  · obtain rfl := Except.ok.inj h
    intro sid hsid
    obtain ⟨a, -, ha⟩ := (mem_of_mapM_ok hsids sid).mp hsid
    exact normalizeShortId_ok ha

end RXCore
