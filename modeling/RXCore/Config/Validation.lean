import RXCore.Config.Migration

/-!
# Validated configurations

`Config::validate_and_normalize` checks profiles, settings, addresses and routing rules, and turns IPv6
addresses that stand for IPv4 ones into these. The addresses of rules it reads with a parser of its own, the
router with another one.

* `IpNet`, `ReadsIpNet`: the parser of validation, and how it goes with the router's;
* `listenAsIpv4`, `validateProfile`, `validateInbound`, `Config.validateAndNormalize`;
* `Config.ListensIpv4`, `Config.RulesMatchable`: what an accepted configuration is like;
* **`profile_validate_fixed`**, `settings_validate_fixed`, `validateInbound_fixed`: accepted parts stay as they are;
* **`exists_matchesCidr`**: what validation accepts in a rule, the router can match;
* **`validate_fixed`**: an accepted configuration stays as it is;
* **`config_stable`**: a second validation and a second migration change nothing.
-/

set_option autoImplicit false

namespace RXCore

open Encoding Lowercase

/-! ## Validation -/

/-- `ipnet::IpNet`. -/
inductive IpNet where
  | v4 (net : Ipv4Net)
  | v6 (addr : Ipv6Addr) (networkBits : ℕ)

/-- `str::parse::<IpNet>` reads an IPv4 network exactly where `str::parse::<Ipv4Net>` does. -/
def ReadsIpNet (X : Crates) (parseIpNet : String → Option IpNet) : Prop :=
  ∀ s net, parseIpNet s = some (.v4 net) ↔ X.parseIpv4Net s = some net

/-- The IPv4 address to listen on for an address: the unspecified and the loopback address, and those that map an
IPv4 address. -/
def listenAsIpv4 : IpAddr → Option Ipv4Addr
  | .v4 a => some a
  | .v6 a =>
    if a.isUnspecified then some .unspecified
    else if a.isLoopback then some .localhost
    else a.toIpv4

/-- A profile is checked, and its listen address made one of IPv4. -/
def validateProfile (X : Crates) (ipv4Only : Bool) (p : RealityProfile) : Except String RealityProfile := do
  let p ← p.validateAndNormalize X
  if ipv4Only then
    match parseIpAddr p.listen with
    | some (.v6 a) => match listenAsIpv4 (.v6 a) with
      | some ip => return { p with listen := ip.display }
      | none => .error ("IPv6 listener address '" ++ p.listen ++ "' in Reality profile '" ++ p.name ++
          "' is rejected under ipv4_only mode")
    | _ => return p
  else return p

/-- The Reality settings of an inbound are checked, if it speaks VLESS over Reality. -/
def validateStreamSettings (X : Crates) (protocol : String) (ss : StreamSettings) : Except String StreamSettings :=
  if protocol = "vless" ∧ ss.security = "reality" then
    match ss.realitySettings with
    | some rs => do
      let rs ← rs.validateAndNormalize X
      return { ss with realitySettings := some rs }
    | none => .error "reality security set but reality_settings is missing"
  else return ss

/-- The listen address of an inbound or of the interface is made one of IPv4. -/
def validateListen (ipv4Only : Bool) (place : String) (listen : IpAddr) : Except String IpAddr :=
  if ipv4Only then
    match listenAsIpv4 listen with
    | some ip => .ok (.v4 ip)
    | none => .error ("IPv6 listener address '" ++ listen.display ++ "' in " ++ place ++
        " is rejected under ipv4_only mode")
  else .ok listen

/-- An inbound: its listen address, and its settings. -/
def validateInbound (X : Crates) (ipv4Only : Bool) (i : InboundConfig) : Except String InboundConfig := do
  let listen ← validateListen ipv4Only ("inbound '" ++ i.tag ++ "'") i.listen
  match i.streamSettings with
  | some ss => do
    let ss ← validateStreamSettings X i.protocol ss
    return { i with listen := listen, streamSettings := some ss }
  | none => return { i with listen := listen }

/-- An address or a network of a routing rule. -/
def validateRuleIp (parseIpNet : String → Option IpNet) (ipv4Only : Bool) (ip : String) : Except String Unit :=
  if trim ip = "" then .error "Empty IP/CIDR entry in routing rule"
  else match parseIpNet ip with
  | some (.v4 _) => return
  | some (.v6 _ _) =>
    if ipv4Only then .error ("IPv6 CIDR '" ++ ip ++ "' is rejected under ipv4_only mode") else return
  | none => match parseIpAddr ip with
    | some (.v4 _) => return
    | some (.v6 _) =>
      if ipv4Only then .error ("IPv6 address '" ++ ip ++ "' in routing rule is rejected under ipv4_only mode")
      else return
    | none => .error ("Invalid IP/CIDR '" ++ ip ++ "' in routing rule")

/-- `Config::validate_and_normalize`. -/
def Config.validateAndNormalize (X : Crates) (parseIpNet : String → Option IpNet) (c : Config) :
    Except String Config := do
  refuseIf (c.network.ipv4Only = false) "ipv4_only must be true in this release"
  let ipv4Only := c.network.ipv4Only
  let profiles ← c.realityProfiles.mapM (validateProfile X ipv4Only)
  let inbounds ← c.inbounds.mapM (validateInbound X ipv4Only)
  let apiListen ← validateListen ipv4Only "API config" c.api.listen
  (c.routing.rules.flatMap fun rule => rule.ip.getD []).forM (validateRuleIp parseIpNet ipv4Only)
  return { c with realityProfiles := profiles, inbounds := inbounds, api := { c.api with listen := apiListen } }

/-! ## What validation leaves -/

/-- All addresses to listen on are of IPv4. -/
structure Config.ListensIpv4 (c : Config) : Prop where
  inbounds : ∀ i ∈ c.inbounds, ∃ a, i.listen = .v4 a
  profiles : ∀ p ∈ c.realityProfiles, ∃ a, parseIpAddr p.listen = some (.v4 a)
  api : ∃ a, c.api.listen = .v4 a

/-- Every address entry of a rule matches an address. -/
def Config.RulesMatchable (X : Crates) (c : Config) : Prop :=
  ∀ rule ∈ c.routing.rules, ∀ ips ∈ rule.ip, ∀ ip ∈ ips, ∃ a, matchesCidr X ip (.v4 a) = true

section

variable {X : Crates} {T : CaseTable} {parseIpNet : String → Option IpNet}

/-- Settings that were checked stay as they are. -/
theorem settings_validate_fixed (hX : X.Lowercases T) (hT : KeepsBlanks T) {s s' : RealitySettings}
    (h : s.validateAndNormalize X = .ok s') : s'.validateAndNormalize X = .ok s' := by
  obtain ⟨names, hcommon, hhex, rfl⟩ := settings_ok_iff.mp h
  refine settings_ok_iff.mpr ⟨names, ⟨hcommon.dest, ?_, hcommon.shortIds, hcommon.key⟩, hhex, rfl⟩
  exact normalizeServerNames_fixed hX hT hcommon.names

/-- A short id that was normalised stays as it is. -/
theorem normalizeShortId_fixed (hX : X.Lowercases T) (hT : KeepsBlanks T) {sid sid' : String}
    (h : normalizeShortId X sid = .ok sid') : normalizeShortId X sid' = .ok sid' := by
  obtain ⟨rfl, hhex, hlen⟩ := normalizeShortId_ok_iff.mp h
  obtain ⟨htrim, hlower, -⟩ := normalize_fixed hX hT sid
  exact normalizeShortId_ok_iff.mpr ⟨by rw [htrim, hlower], hhex, hlen⟩

/-- A profile that is accepted is in order. -/
theorem placed_of_ok {p p' : RealityProfile} (h : p.validateAndNormalize X = .ok p') : p.Placed := by
  simp only [RealityProfile.validateAndNormalize, bind_ok] at h
  obtain ⟨_, hname, _, htag, _, hlisten, _, haddress, -⟩ := h
  exact ⟨refuseIf_ok.mp hname, refuseIf_ok.mp htag, refuseIf_ok.mp hlisten, refuseIf_ok.mp haddress⟩

/-- The values of a profile, as settings. -/
def RealityProfile.values (p : RealityProfile) : RealitySettings :=
  ⟨p.dest, p.serverNames, p.privateKey, p.shortIds⟩

/-- **A profile that was checked stays as it is**, at whatever address. -/
theorem profile_validate_fixed (hX : X.Lowercases T) (hT : KeepsBlanks T) {p p' : RealityProfile}
    (h : p.validateAndNormalize X = .ok p') (a : IpAddr) :
    p'.validateAndNormalize X = .ok p' ∧
      ({ p' with listen := a.display } : RealityProfile).validateAndNormalize X = .ok { p' with listen := a.display } := by
  have hp := placed_of_ok h
  obtain ⟨names, sids, pbk, hcommon, hsids, hpbk, rfl⟩ := (profile_ok_iff (s := p.values) hp).mp h
  have hne : sids ≠ [] := by
    rintro rfl
    exact hcommon.shortIds (List.forall₂_nil_right_iff.mp (mapM_ok_iff.mp hsids))
  have hsids' : sids.mapM (normalizeShortId X) = .ok sids := mapM_self_iff.mpr fun sid' hsid' => by
    obtain ⟨sid, -, hsid⟩ := (mem_of_mapM_ok hsids sid').mp hsid'
    exact normalizeShortId_fixed hX hT hsid
  have hfixed : ∀ q : RealityProfile, q.Placed → q.values = ⟨p.dest, names, p.privateKey, sids⟩ →
      q.publicKey = pbk → q.validateAndNormalize X = .ok q := by
    rintro q hq hvalues rfl
    obtain ⟨hdest, hnames, hkey, hshort⟩ := RealitySettings.mk.inj hvalues
    refine (profile_ok_iff (s := q.values) hq).mpr ⟨q.serverNames, q.shortIds, q.publicKey, ?_, ?_, ?_, rfl⟩
    · rw [hvalues, hnames]
      exact ⟨hcommon.dest, normalizeServerNames_fixed hX hT hcommon.names, hne, hcommon.key⟩
    · rw [hvalues, hshort]
      exact hsids'
    · rw [hvalues]
      exact hpbk
  refine ⟨hfixed _ ⟨hp.name, hp.inboundTag, hp.listen, hp.address⟩ rfl rfl,
    hfixed _ ⟨hp.name, hp.inboundTag, ?_, ?_⟩ rfl rfl⟩
  · rw [trim_display]
    exact display_ne_empty a
  · rw [parseIpAddr_display]
    exact Option.some_ne_none a

/-- A profile that was accepted listens on an IPv4 address, and stays as it is. -/
theorem validateProfile_fixed (hX : X.Lowercases T) (hT : KeepsBlanks T) {p p' : RealityProfile}
    (h : validateProfile X true p = .ok p') :
    validateProfile X true p' = .ok p' ∧ ∃ a, parseIpAddr p'.listen = some (.v4 a) := by
  have hstays : ∀ {q : RealityProfile} {a : Ipv4Addr}, q.validateAndNormalize X = .ok q →
      parseIpAddr q.listen = some (.v4 a) → validateProfile X true q = .ok q := by
    intro q a hq ha
    refine bind_ok.mpr ⟨q, hq, ?_⟩
    rw [if_pos rfl, ha]
    rfl
  rw [validateProfile, bind_ok] at h
  obtain ⟨q, hq, h⟩ := h
  rw [if_pos rfl] at h
  have hlisten : q.listen = p.listen := by
    obtain ⟨_, _, _, -, -, -, rfl⟩ := (profile_ok_iff (s := p.values) (placed_of_ok hq)).mp hq
    rfl
  cases hparse : parseIpAddr q.listen with
  | none => exact absurd (hlisten ▸ hparse) (placed_of_ok hq).address
  | some ip => cases ip with
    | v4 a =>
      simp only [hparse] at h
      obtain rfl := Except.ok.inj h
      exact ⟨hstays (profile_validate_fixed hX hT hq (.v4 a)).1 hparse, a, hparse⟩
    | v6 a =>
      simp only [hparse] at h
      cases has : listenAsIpv4 (.v6 a) with
      | none => simp [has] at h
      | some b =>
        simp only [has] at h
        obtain rfl := Except.ok.inj h
        have hb : parseIpAddr b.display = some (.v4 b) := parseIpAddr_display (.v4 b)
        exact ⟨hstays (profile_validate_fixed hX hT hq (.v4 b)).2 hb, b, hb⟩

/-- Stream settings that were accepted stay as they are. -/
theorem validateStreamSettings_fixed (hX : X.Lowercases T) (hT : KeepsBlanks T) {protocol : String}
    {ss ss' : StreamSettings} (h : validateStreamSettings X protocol ss = .ok ss') :
    validateStreamSettings X protocol ss' = .ok ss' := by
  rw [validateStreamSettings] at h
  split_ifs at h with hreality
  · cases hrs : ss.realitySettings with
    | none => simp [hrs] at h
    | some rs =>
      simp only [hrs, bind_ok] at h
      obtain ⟨rs', hrs', h⟩ := h
      obtain rfl := Except.ok.inj h
      rw [validateStreamSettings, if_pos hreality]
      exact bind_ok.mpr ⟨rs', settings_validate_fixed hX hT hrs', rfl⟩
  · obtain rfl := Except.ok.inj h
    rw [validateStreamSettings, if_neg hreality]
    rfl

/-- A listen address that is accepted is one of IPv4. -/
theorem validateListen_ok_iff {place : String} {listen listen' : IpAddr} :
    validateListen true place listen = .ok listen' ↔ ∃ a, listenAsIpv4 listen = some a ∧ listen' = .v4 a := by
  rw [validateListen, if_pos rfl]
  cases listenAsIpv4 listen with
  | none => simp
  | some a => simp [eq_comm]

/-- What an inbound becomes. -/
theorem validateInbound_ok_iff {i i' : InboundConfig} : validateInbound X true i = .ok i' ↔
    ∃ a ss, listenAsIpv4 i.listen = some a ∧
      Option.Rel (fun s s' => validateStreamSettings X i.protocol s = .ok s') i.streamSettings ss ∧
      i' = { i with listen := .v4 a, streamSettings := ss } := by
  simp only [validateInbound, bind_ok, validateListen_ok_iff]
  obtain ⟨tag, listen, port, protocol, settings, streamSettings⟩ := i
  cases streamSettings with
  | none =>
    constructor
    · rintro ⟨_, ⟨a, ha, rfl⟩, h⟩
      exact ⟨a, none, ha, .none, (Except.ok.inj h).symm⟩
    · rintro ⟨a, _, ha, ⟨⟩, rfl⟩
      exact ⟨_, ⟨a, ha, rfl⟩, rfl⟩
  | some s =>
    simp only [bind_ok]
    constructor
    · rintro ⟨_, ⟨a, ha, rfl⟩, s', hs', h⟩
      exact ⟨a, some s', ha, .some hs', (Except.ok.inj h).symm⟩
    · rintro ⟨a, _, ha, ⟨hs'⟩, rfl⟩
      exact ⟨_, ⟨a, ha, rfl⟩, _, hs', rfl⟩

/-- An inbound that was accepted listens on an IPv4 address, and stays as it is. -/
theorem validateInbound_fixed (hX : X.Lowercases T) (hT : KeepsBlanks T) {i i' : InboundConfig}
    (h : validateInbound X true i = .ok i') :
    validateInbound X true i' = .ok i' ∧ ∃ a, i'.listen = .v4 a := by
  obtain ⟨a, ss, -, hss, rfl⟩ := validateInbound_ok_iff.mp h
  have hfixed : Option.Rel (fun s s' => validateStreamSettings X i.protocol s = .ok s') ss ss := by
    generalize i.streamSettings = ss₀ at hss
    cases hss with
    | none => exact .none
    | some hs => exact .some (validateStreamSettings_fixed hX hT hs)
  exact ⟨validateInbound_ok_iff.mpr ⟨a, ss, rfl, hfixed, rfl⟩, a, rfl⟩

/-! ## Rules -/

/-- **What validation accepts in a rule, the router can match**, though it reads it with another parser. -/
theorem exists_matchesCidr (hnet : ReadsIpNet X parseIpNet) {ip : String}
    (h : validateRuleIp parseIpNet true ip = .ok ()) : ∃ a, matchesCidr X ip (.v4 a) = true := by
  rw [validateRuleIp] at h
  simp only [if_true] at h
  split_ifs at h
  cases hparse : parseIpNet ip with
  | some net => cases net with
    | v4 net =>
      refine ⟨net.addr, ?_⟩
      rw [matchesCidr, (hnet ip net).mp hparse]
      exact beq_self_eq_true _
    | v6 addr bits => simp [hparse] at h
  | none =>
    have hno : X.parseIpv4Net ip = none := Option.eq_none_iff_forall_ne_some.mpr fun net hnet' => by
      rw [(hnet ip net).mpr hnet'] at hparse
      cases hparse
    cases haddr : parseIpAddr ip with
    | none => simp [hparse, haddr] at h
    | some addr => cases addr with
      | v4 a =>
        refine ⟨a, ?_⟩
        rw [matchesCidr, hno]
        simp [haddr]
      | v6 a => simp [hparse, haddr] at h

/-! ## The whole configuration -/

/-- **A configuration that was accepted stays as it is**, listens on IPv4 addresses only, and has rules that can
be matched. -/
theorem validate_fixed (hX : X.Lowercases T) (hT : KeepsBlanks T) (hnet : ReadsIpNet X parseIpNet) {c c' : Config}
    (h : c.validateAndNormalize X parseIpNet = .ok c') :
    c'.validateAndNormalize X parseIpNet = .ok c' ∧ c'.ListensIpv4 ∧ c'.RulesMatchable X := by
  simp only [Config.validateAndNormalize, bind_ok, exists_unit, forM_ok_iff, refuseIf_ok, Bool.not_eq_false] at h
  obtain ⟨honly, profiles, hprofiles, inbounds, hinbounds, listen, hlisten, hrules, h⟩ := h
  rw [honly] at hprofiles hinbounds hlisten hrules
  obtain ⟨a, -, rfl⟩ := validateListen_ok_iff.mp hlisten
  obtain rfl := Except.ok.inj h
  have hprofile : ∀ p ∈ profiles, validateProfile X true p = .ok p ∧ ∃ a, parseIpAddr p.listen = some (.v4 a) := by
    intro p hp
    obtain ⟨p₀, -, hp₀⟩ := (mem_of_mapM_ok hprofiles p).mp hp
    exact validateProfile_fixed hX hT hp₀
  have hinbound : ∀ i ∈ inbounds, validateInbound X true i = .ok i ∧ ∃ a, i.listen = .v4 a := by
    intro i hi
    obtain ⟨i₀, -, hi₀⟩ := (mem_of_mapM_ok hinbounds i).mp hi
    exact validateInbound_fixed hX hT hi₀
  refine ⟨?_, ⟨fun i hi => (hinbound i hi).2, fun p hp => (hprofile p hp).2, a, rfl⟩, fun rule hrule ips hips ip hip => ?_⟩
  · simp only [Config.validateAndNormalize, bind_ok, exists_unit, forM_ok_iff, refuseIf_ok, Bool.not_eq_false, honly]
    exact ⟨trivial, profiles, mapM_self_iff.mpr fun p hp => (hprofile p hp).1, inbounds,
      mapM_self_iff.mpr fun i hi => (hinbound i hi).1, .v4 a, rfl, hrules, rfl⟩
  · refine exists_matchesCidr hnet (hrules ip (List.mem_flatMap.mpr ⟨rule, hrule, ?_⟩))
    rw [Option.mem_def.mp hips]
    exact hip

/-- **A second validation and a second migration change nothing.** An accepted configuration listens on IPv4
addresses and has rules that can be matched; a migration keeps what is there. -/
theorem config_stable (hX : X.Lowercases T) (hT : KeepsBlanks T) (hnet : ReadsIpNet X parseIpNet) :
    (∀ c c' : Config, c.validateAndNormalize X parseIpNet = .ok c' →
      c'.validateAndNormalize X parseIpNet = .ok c' ∧ c'.ListensIpv4 ∧ c'.RulesMatchable X) ∧
    ∀ (g g' : Draws) (c : Config), MigratedFrom X g c (c.migrateIfNeeded X g) ∧
      (c.migrateIfNeeded X g).migrates = false ∧
        (c.migrateIfNeeded X g).migrateIfNeeded X g' = c.migrateIfNeeded X g := by
  refine ⟨fun c c' h => validate_fixed hX hT hnet h, fun g g' c => ⟨migrate_keeps g c, migrates_migrated g c, ?_⟩⟩
  exact migrateIfNeeded_of_migrated ⟨g, c, rfl⟩ g'

end

/-- Loopback addresses of IPv6, a short id in upper case and a rule with an address. -/
def ipv6Config : Config :=
  { defaultConfig with
    inbounds := [{ settingsInbound "da09ebd28dc215c8" with listen := .v6 .localhost }]
    realityProfiles := [{ profileWith "DA09EBD28DC215C8" with listen := "::1" }]
    routing := ⟨[⟨none, some ["10.0.0.1"], none, none, "freedom"⟩]⟩ }

/-- What validation makes of it. -/
def ipv4Config : Config :=
  { ipv6Config with
    inbounds := [{ settingsInbound "da09ebd28dc215c8" with listen := .v4 .localhost }]
    realityProfiles := [validatedWith "da09ebd28dc215c8"] }

theorem config_stable_ipv6 :
    ipv6Config.validateAndNormalize Sample.unicode (fun _ => none) = .ok ipv4Config ∧
      ipv4Config.validateAndNormalize Sample.unicode (fun _ => none) = .ok ipv4Config ∧
      ipv4Config.ListensIpv4 ∧ ipv4Config.RulesMatchable Sample.unicode ∧
      MigratedFrom Sample.unicode slotDraws ipv4Config (ipv4Config.migrateIfNeeded Sample.unicode slotDraws) := by
  have hnet : ReadsIpNet Sample.unicode fun _ => none := fun s net => iff_of_false (nomatch ·) (nomatch ·)
  obtain ⟨hvalidate, hmigrate⟩ := config_stable (X := Sample.unicode) (T := .ascii) (fun _ => rfl) ascii_keepsBlanks hnet
  have hok : ipv6Config.validateAndNormalize Sample.unicode (fun _ => none) = .ok ipv4Config := rfl
  exact ⟨hok, (hvalidate _ _ hok).1, (hvalidate _ _ hok).2.1, (hvalidate _ _ hok).2.2,
    (hmigrate slotDraws slotDraws ipv4Config).1⟩

end RXCore
