import RXCore.Config

/-!
# Routing

`RouteModeTables` and `Router::resolve_route`. Text is compared on characters; a slice of the source
that would panic is `none` here.

* `RouteModeTables.compile`;
* `matchDomainSuffix`, `matchesRuleDomain`, `matchesCidr`, `isPrivateOrLocal`: the single tests;
* `getHost`, `matchesDomain`, `RoutingRule.matches`, `resolveRoute`;
* **`resolveRoute_cases`**: a route is `direct`, `warp`, or the tag of a rule.
-/

set_option autoImplicit false

namespace RXCore

/-- The compiled tables. -/
structure RouteModeTables where
  warpExact : List String
  warpSuffixes : List String
  directExact : List String
  directSuffixes : List String
  customRules : List RoutingRule

/-- The exact domains of the enabled sets, in lower case. -/
def exactOf (X : Crates) (sets : List DomainSet) : List String :=
  (sets.filter (·.enabled)).flatMap fun s => s.exactDomains.map X.toLowercase

/-- The domain suffixes of the enabled sets, in lower case. -/
def suffixesOf (X : Crates) (sets : List DomainSet) : List String :=
  (sets.filter (·.enabled)).flatMap fun s => s.domainSuffixes.map X.toLowercase

/-- `RouteModeTables::compile`. -/
def RouteModeTables.compile (X : Crates) (config : Config) : RouteModeTables where
  warpExact := exactOf X config.warpDomainSets
  warpSuffixes := suffixesOf X config.warpDomainSets
  directExact := exactOf X config.directExceptionSets
  directSuffixes := suffixesOf X config.directExceptionSets
  customRules := config.routing.rules

/-! ## Single tests -/

/-- The character before the suffix is a dot. -/
def dotBefore (s suffix : String) : Bool :=
  (s.toList.take (s.toList.length - suffix.toList.length)).getLast? == some '.'

/-- `match_domain_suffix`. -/
def matchDomainSuffix (X : Crates) (domain suffix : String) : Bool :=
  let domain := X.toLowercase domain
  let suffix := X.toLowercase suffix
  domain == suffix || (endsWith domain suffix && dotBefore domain suffix)

/-- What follows a prefix of the pattern. -/
def afterPrefix (pattern pre : String) : String :=
  String.ofList (pattern.toList.drop pre.toList.length)

/-- `matches_rule_domain`. The regular expression compiled from a text is kept in a cache under that
text, which changes no result. -/
def matchesRuleDomain (X : Crates) (domainPattern host : String) : Bool :=
  let host := X.toLowercase host
  let pattern := X.toLowercase domainPattern
  if startsWith pattern "domain:" then
    let suffix := afterPrefix pattern "domain:"
    host == suffix || (endsWith host suffix && dotBefore host suffix)
  else if startsWith pattern "keyword:" then contains host (afterPrefix pattern "keyword:")
  else if startsWith pattern "regexp:" then
    let regexStr := afterPrefix pattern "regexp:"
    match X.regex regexStr with
    | some isMatch => isMatch host
    | none => contains host regexStr
  else host == pattern || (endsWith host pattern && dotBefore host pattern)

/-- `matches_cidr`. -/
def matchesCidr (X : Crates) (cidr : String) : IpAddr → Bool
  | .v6 _ => false
  | .v4 ip => match X.parseIpv4Net cidr with
    | some net => net.contains ip
    | none => parseIpAddr cidr == some (.v4 ip)

/-- `is_private_or_local`. -/
def isPrivateOrLocal (host : String) : Bool :=
  if eqIgnoreAsciiCase host "localhost" then true
  else match parseIpAddr host with
    | none => false
    | some ip =>
      if ip.isLoopback then true
      else match ip with
        | .v4 a => a.isPrivate || a.isLinkLocal || a.isBroadcast || a.isDocumentation
        | .v6 a =>
          let o0 := a.octets.getD 0 0
          let o1 := a.octets.getD 1 0
          o0 &&& 0xfe == 0xfc || (o0 == 0xfe && o1 &&& 0xc0 == 0x80)

/-! ## The router -/

/-- `Router::get_host`. A text with `]` before or without an opening bracket of one byte makes the
slice panic. -/
def getHost (X : Crates) (destAddr : String) : Option String :=
  let s := (X.toLowercase destAddr).toList
  if ':' ∈ s then
    if s.head? = some '[' ∧ s.getLast? = some ']' then some (String.ofList s)
    else if ']' ∈ s then
      match s.takeWhile (· ≠ ']') with
      | [] => none
      | c :: r => if c.toNat < 128 then some (String.ofList r) else none
    else some (String.ofList ((s.reverse.dropWhile (· ≠ ':')).drop 1).reverse)
  else some (String.ofList s)

/-- `Router::matches_domain`, for the host that `get_host` gives. -/
def matchesDomain (X : Crates) (host : String) (sni : Option String) (exact suffixes : List String) :
    Bool :=
  decide (host ∈ exact) || suffixes.any (matchDomainSuffix X host) ||
    match sni with
    | none => false
    | some s =>
      let sniLower := X.toLowercase s
      decide (sniLower ∈ exact) || suffixes.any (matchDomainSuffix X sniLower)

/-- `Router::matches_domain`, with the host that it takes from the destination again. -/
def matchesDomainAt (X : Crates) (destAddr : String) (sni : Option String) (exact suffixes : List String) :
    Option Bool := do
  let host ← getHost X destAddr
  return matchesDomain X host sni exact suffixes

/-- The conditions of a custom rule; a condition that is not given holds. -/
def RoutingRule.matches (X : Crates) (rule : RoutingRule) (host : String) (destPort : UInt16)
    (inboundTag : String) (sni : Option String) : Bool :=
  (match rule.domain with
    | none => true
    | some ds => ds.any fun d => matchesRuleDomain X d host ||
        match sni with
        | none => false
        | some s => matchesRuleDomain X d s) &&
  (match rule.ip with
    | none => true
    | some ips => match parseIpAddr host with
      | none => false
      | some ip => ips.any fun c => matchesCidr X c ip) &&
  (match rule.port with
    | none => true
    | some ports => decide (destPort ∈ ports)) &&
  (match rule.inboundTag with
    | none => true
    | some tags => decide (inboundTag ∈ tags))

/-- The per-mode override of the default. -/
def modeOverride (X : Crates) (mode : ClientRouteMode) (host : String) (sni : Option String)
    (tables : RouteModeTables) : Option String :=
  match mode with
  | .lowLatencyDirect => none
  | .browsingWarp =>
    if matchesDomain X host sni tables.directExact tables.directSuffixes then some "direct" else none
  | .smart =>
    if matchesDomain X host sni tables.warpExact tables.warpSuffixes then some "warp" else none

/-- The default outbound of a mode. -/
def modeDefault : ClientRouteMode → String
  | .smart => "direct"
  | .browsingWarp => "warp"
  | .lowLatencyDirect => "direct"

/-- `Router::resolve_route`. -/
def resolveRoute (X : Crates) (mode : ClientRouteMode) (destAddr : String) (destPort : UInt16)
    (inboundTag : String) (sni : Option String) (tables : RouteModeTables) : Option String := do
  let host ← getHost X destAddr
  if eqIgnoreAsciiCase host "localhost" || host == "127.0.0.1" || host == "::1" then return "direct"
  else if destPort == 9091 || destPort == 9100 || destPort == 40000 then return "direct"
  else if isPrivateOrLocal host then return "direct"
  else match modeOverride X mode host sni tables with
    | some outbound => return outbound
    | none => match tables.customRules.find? (·.matches X host destPort inboundTag sni) with
      | some rule => return rule.outboundTag
      | none => return modeDefault mode

theorem modeOverride_cases {X : Crates} {mode : ClientRouteMode} {host : String} {sni : Option String}
    {tables : RouteModeTables} {tag : String} (h : modeOverride X mode host sni tables = some tag) :
    tag = "direct" ∨ tag = "warp" := by
  unfold modeOverride at h
  split at h
  · cases h
  · split_ifs at h
    exact .inl (Option.some.inj h).symm
  · split_ifs at h
    exact .inr (Option.some.inj h).symm

/-- **Where a route comes from.** -/
theorem resolveRoute_cases {X : Crates} {mode : ClientRouteMode} {dest : String} {port : UInt16}
    {inboundTag : String} {sni : Option String} {tables : RouteModeTables} {tag : String}
    (h : resolveRoute X mode dest port inboundTag sni tables = some tag) :
    tag = "direct" ∨ tag = "warp" ∨ ∃ rule ∈ tables.customRules, rule.outboundTag = tag := by
  obtain ⟨host, -, h⟩ := Option.bind_eq_some_iff.mp h
  split_ifs at h
  · exact .inl (Option.some.inj h).symm
  · exact .inl (Option.some.inj h).symm
  · exact .inl (Option.some.inj h).symm
  split at h
  · next outbound ho =>
    obtain rfl := Option.some.inj h
    rcases modeOverride_cases ho with h | h
    · exact .inl h
    · exact .inr (.inl h)
  split at h
  · next rule hr =>
    exact .inr (.inr ⟨rule, List.mem_of_find?_eq_some hr, Option.some.inj h⟩)
  · obtain rfl := Option.some.inj h
    cases mode
    · exact .inl rfl
    · exact .inr (.inl rfl)
    · exact .inl rfl

end RXCore
