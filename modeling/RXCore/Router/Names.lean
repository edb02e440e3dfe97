import RXCore.Lib.Lowercase
import RXCore.Router

/-!
# Names and routes

What a route depends on, for all tables at once.

* `Crates.Lowercases`: `to_lowercase` is lower-casing over the Unicode tables;
* `keptLocal`, `routeByTables`: the two halves of `resolve_route`;
* **`lowLatency_iff`**: when Low Latency avoids WARP;
* `names`, `ipMatches`: all that tables and rules see of host and SNI;
  **`resolveRoute_spelling_iff`**: which spellings of a name have the same routes;
* `NameMatches`: what a domain set means; **`compile_matches`**: the compiled tables mean that.
-/

set_option autoImplicit false

namespace RXCore

open Lowercase

/-- `to_lowercase` is lower-casing over the tables of the Unicode database. -/
def Crates.Lowercases (X : Crates) (T : CaseTable) : Prop :=
  ∀ s, X.toLowercase s = String.ofList (T.lower s.toList)

variable {X : Crates} {T : CaseTable} {mode : ClientRouteMode} {dest host host' inboundTag : String}
  {destPort : UInt16} {sni sni' : Option String} {tables : RouteModeTables}

/-! ## The halves of a decision -/

/-- Loop prevention and local addresses: always direct. -/
def hostLocal (host : String) : Bool :=
  eqIgnoreAsciiCase host "localhost" || host == "127.0.0.1" || host == "::1" || isPrivateOrLocal host

/-- The first checks of `resolve_route` keep the request away from modes and rules. -/
def keptLocal (host : String) (destPort : UInt16) : Bool :=
  hostLocal host || destPort == 9091 || destPort == 9100 || destPort == 40000

/-- The rest of it. -/
def routeByTables (X : Crates) (mode : ClientRouteMode) (host : String) (destPort : UInt16)
    (inboundTag : String) (sni : Option String) (tables : RouteModeTables) : String :=
  match modeOverride X mode host sni tables with
  | some outbound => outbound
  | none => match tables.customRules.find? (·.matches X host destPort inboundTag sni) with
    | some rule => rule.outboundTag
    | none => modeDefault mode

theorem resolveRoute_eq (h : getHost X dest = some host) :
    resolveRoute X mode dest destPort inboundTag sni tables =
      some (if keptLocal host destPort then "direct"
        else routeByTables X mode host destPort inboundTag sni tables) := by
  have hkept : keptLocal host destPort =
      ((eqIgnoreAsciiCase host "localhost" || host == "127.0.0.1" || host == "::1") ||
        ((destPort == 9091 || destPort == 9100 || destPort == 40000) || isPrivateOrLocal host)) := by
    simp only [keptLocal, hostLocal]
    ac_rfl
  rw [resolveRoute, h, hkept]
  simp only [Option.bind_eq_bind, Option.bind_some]
  by_cases h1 : (eqIgnoreAsciiCase host "localhost" || host == "127.0.0.1" || host == "::1") = true
  · rw [if_pos h1, h1]
    rfl
  by_cases h2 : (destPort == 9091 || destPort == 9100 || destPort == 40000) = true
  · rw [if_neg h1, if_pos h2, h2, Bool.true_or, Bool.or_true]
    rfl
  by_cases h3 : isPrivateOrLocal host = true
  · rw [if_neg h1, if_neg h2, if_pos h3, h3, Bool.or_true, Bool.or_true]
    rfl
  rw [if_neg h1, if_neg h2, if_neg h3, Bool.eq_false_iff.mpr h1, Bool.eq_false_iff.mpr h2,
    Bool.eq_false_iff.mpr h3]
  unfold routeByTables
  cases modeOverride X mode host sni tables with
  | some outbound => rfl
  | none => cases tables.customRules.find? (·.matches X host destPort inboundTag sni) <;> rfl

/-! ## Low Latency -/

/-- **Low Latency avoids WARP** exactly when no rule that sends to WARP is the first to match. -/
theorem lowLatency_iff (X : Crates) (dest : String) (destPort : UInt16) (inboundTag : String)
    (sni : Option String) (tables : RouteModeTables) :
    resolveRoute X .lowLatencyDirect dest destPort inboundTag sni tables ≠ some "warp" ↔
      ∀ host rule, getHost X dest = some host → keptLocal host destPort = false →
        tables.customRules.find? (·.matches X host destPort inboundTag sni) = some rule →
          rule.outboundTag ≠ "warp" := by
  cases hhost : getHost X dest with
  | none =>
    refine iff_of_true ?_ (by simp)
    rw [resolveRoute, hhost]
    simp
  | some host =>
    rw [resolveRoute_eq hhost]
    cases hlocal : keptLocal host destPort with
    | true =>
      refine iff_of_true (by simp) ?_
      rintro _ _ ⟨rfl⟩ hfalse
      cases hlocal.symm.trans hfalse
    | false =>
      cases hrule : tables.customRules.find? (·.matches X host destPort inboundTag sni) with
      | none =>
        refine iff_of_true (by simp [routeByTables, modeOverride, hrule, modeDefault]) ?_
        rintro _ rule ⟨rfl⟩ - hr
        cases hrule.symm.trans hr
      | some rule =>
        simp only [routeByTables, modeOverride, hrule, Bool.false_eq_true, if_false, ne_eq, Option.some.injEq]
        constructor
        · rintro h _ rule' rfl - hr
          obtain rfl := Option.some.inj (hrule.symm.trans hr)
          exact h
        · exact fun h => h host rule rfl hlocal hrule

/-- Every request for a domain goes to WARP. -/
def warpRule : RoutingRule := ⟨some ["domain:example.com"], none, none, none, "warp"⟩

/-- **A Low Latency user is sent to WARP**, too. -/
theorem lowLatency_warp : resolveRoute Sample.crates .lowLatencyDirect "example.com" 443 "vless" none
    ⟨[], [], [], [], [warpRule]⟩ = some "warp" := by
  decide

/-! ## What tables and rules see -/

/-- The names that are looked at. -/
def names (X : Crates) (host : String) (sni : Option String) : List String :=
  host :: (sni.map X.toLowercase).toList

/-- An IP rule for these addresses matches the host. -/
def ipMatches (X : Crates) (host cidr : String) : Bool :=
  match parseIpAddr host with
  | none => false
  | some ip => matchesCidr X cidr ip

namespace Crates.Lowercases

theorem lower_lower (hX : X.Lowercases T) (s : String) : X.toLowercase (X.toLowercase s) = X.toLowercase s := by
  rw [hX (X.toLowercase s), hX s, String.toList_ofList, CaseTable.lower_lower]

theorem congr (hX : X.Lowercases T) {s t : String} (h : eqIgnoreAsciiCase s t = true) :
    X.toLowercase s = X.toLowercase t := by
  rw [hX s, hX t, CaseTable.lower_congr (eq_of_beq h)]

theorem append_dot (hX : X.Lowercases T) (s : String) : X.toLowercase (s ++ ".") = X.toLowercase s ++ "." := by
  have hdot : (s ++ ".").toList = s.toList ++ ['.'] := by simp
  rw [hX, hX, hdot, CaseTable.lower_append_dot, String.ofList_append]

end Crates.Lowercases

theorem matchesDomain_names (X : Crates) (host : String) (sni : Option String) (exact suffixes : List String) :
    matchesDomain X host sni exact suffixes =
      (names X host sni).any fun n => decide (n ∈ exact) || suffixes.any (matchDomainSuffix X n) := by
  cases sni <;> simp [matchesDomain, names]

theorem matches_names (hX : X.Lowercases T) (rule : RoutingRule) :
    rule.matches X host destPort inboundTag sni =
      ((rule.domain.all fun ds => ds.any fun d => (names X host sni).any (matchesRuleDomain X d)) &&
        (rule.ip.all fun ips => ips.any (ipMatches X host)) &&
        (rule.port.all fun ports => decide (destPort ∈ ports)) &&
        (rule.inboundTag.all fun tags => decide (inboundTag ∈ tags))) := by
  have hlower : ∀ d s, matchesRuleDomain X d (X.toLowercase s) = matchesRuleDomain X d s := by
    intro d s
    simp only [matchesRuleDomain, hX.lower_lower]
  rw [RoutingRule.matches]
  refine congrArg₂ and (congrArg₂ and (congrArg₂ and ?_ ?_) ?_) ?_
  · cases rule.domain with
    | none => rfl
    | some ds => cases sni <;> simp [names, hlower]
  · cases rule.ip with
    | none => rfl
    | some ips =>
      unfold ipMatches
      cases parseIpAddr host <;> simp
  · cases rule.port <;> rfl
  · cases rule.inboundTag <;> rfl

/-- **Names and addresses are all that tables and rules see.** -/
theorem routeByTables_congr (hX : X.Lowercases T) (hnames : ∀ n, n ∈ names X host sni ↔ n ∈ names X host' sni')
    (hips : ∀ c, ipMatches X host c = ipMatches X host' c) :
    routeByTables X mode host destPort inboundTag sni tables =
      routeByTables X mode host' destPort inboundTag sni' tables := by
  have hany : ∀ p : String → Bool, (names X host sni).any p = (names X host' sni').any p := by
    intro p
    rw [Bool.eq_iff_iff, List.any_eq_true, List.any_eq_true]
    simp only [hnames]
  have hdomain : ∀ exact suffixes,
      matchesDomain X host sni exact suffixes = matchesDomain X host' sni' exact suffixes := by
    intro exact suffixes
    rw [matchesDomain_names, matchesDomain_names, hany]
  have hrule : ∀ rule : RoutingRule, rule.matches X host destPort inboundTag sni =
      rule.matches X host' destPort inboundTag sni' := by
    intro rule
    rw [matches_names hX, matches_names hX, funext hips]
    simp only [hany]
  unfold routeByTables modeOverride
  simp only [hdomain, hrule]

/-- Tables that send one name to WARP. -/
def exactTable (name : String) : RouteModeTables := ⟨[name], [], [], [], []⟩

/-- Tables that send the addresses of a block to WARP. -/
def blockTable (cidr : String) : RouteModeTables := ⟨[], [], [], [], [⟨none, some [cidr], none, none, "warp"⟩]⟩

theorem routeByTables_exactTable (X : Crates) (host name : String) (sni : Option String) :
    routeByTables X .smart host destPort inboundTag sni (exactTable name) =
      if name ∈ names X host sni then "warp" else "direct" := by
  have hmatch : matchesDomain X host sni [name] [] = decide (name ∈ names X host sni) := by
    rw [matchesDomain_names, Bool.eq_iff_iff, List.any_eq_true]
    simp
  by_cases h : name ∈ names X host sni
  · simp [routeByTables, modeOverride, exactTable, hmatch, h]
  · simp [routeByTables, modeOverride, exactTable, hmatch, h, modeDefault]

theorem routeByTables_blockTable (hX : X.Lowercases T) (host cidr : String) (sni : Option String) :
    routeByTables X .smart host destPort inboundTag sni (blockTable cidr) =
      if ipMatches X host cidr then "warp" else "direct" := by
  have hnone : matchesDomain X host sni [] [] = false := by cases sni <;> simp [matchesDomain]
  by_cases h : ipMatches X host cidr = true
  · simp [routeByTables, modeOverride, blockTable, hnone, matches_names hX, h]
  · simp [routeByTables, modeOverride, blockTable, hnone, matches_names hX, h, modeDefault]

/-- All tables treat two hosts, each with its SNI, alike. -/
def SameTests (X : Crates) (host : String) (sni : Option String) (host' : String) (sni' : Option String) : Prop :=
  (∀ n, n ∈ names X host sni ↔ n ∈ names X host' sni') ∧ ∀ c, ipMatches X host c = ipMatches X host' c

/-- **Which requests have the same routes** under all modes, tables, ports and tags. -/
theorem resolveRoute_forall_iff (hX : X.Lowercases T) {dest' : String} (h : getHost X dest = some host)
    (h' : getHost X dest' = some host') :
    (∀ mode destPort inboundTag tables, resolveRoute X mode dest destPort inboundTag sni tables =
        resolveRoute X mode dest' destPort inboundTag sni' tables) ↔
      (hostLocal host = true ∧ hostLocal host' = true) ∨
        (hostLocal host = false ∧ hostLocal host' = false ∧ SameTests X host sni host' sni') := by
  simp only [resolveRoute_eq h, resolveRoute_eq h', Option.some.injEq]
  have hport : ∀ g : String, keptLocal g 443 = hostLocal g := by
    intro g
    have hp : ((443 : UInt16) == 9091) = false ∧ ((443 : UInt16) == 9100) = false ∧
        ((443 : UInt16) == 40000) = false := by decide
    simp [keptLocal, hp]
  constructor
  · intro hall
    have hwarp := hall .browsingWarp 443 "" ⟨[], [], [], [], []⟩
    have hdefault : ∀ g s, routeByTables X .browsingWarp g 443 "" s ⟨[], [], [], [], []⟩ = "warp" := by
      intro g s
      have hnone : matchesDomain X g s [] [] = false := by cases s <;> simp [matchesDomain]
      simp [routeByTables, modeOverride, hnone, modeDefault]
    rw [hport, hport, hdefault, hdefault] at hwarp
    cases hl : hostLocal host with
    | true => cases hl' : hostLocal host' with
      | true => exact .inl ⟨rfl, rfl⟩
      | false => simp [hl, hl'] at hwarp
    | false => cases hl' : hostLocal host' with
      | true => simp [hl, hl'] at hwarp
      | false =>
        refine .inr ⟨rfl, rfl, fun n => ?_, fun c => ?_⟩
        · have hn := hall .smart 443 "" (exactTable n)
          rw [hport, hport, hl, hl', routeByTables_exactTable, routeByTables_exactTable] at hn
          by_cases h1 : n ∈ names X host sni <;> by_cases h2 : n ∈ names X host' sni' <;> simp [h1, h2] at hn ⊢
        · have hc := hall .smart 443 "" (blockTable c)
          rw [hport, hport, hl, hl', routeByTables_blockTable hX, routeByTables_blockTable hX] at hc
          cases h1 : ipMatches X host c <;> cases h2 : ipMatches X host' c <;> simp [h1, h2] at hc ⊢
  · rintro (⟨hl, hl'⟩ | ⟨hl, hl', hnames, hips⟩) mode destPort inboundTag tables
    · simp [keptLocal, hl, hl']
    · simp only [keptLocal, hl, hl', routeByTables_congr hX hnames hips]

/-! ## Spellings of a name -/

/-- Two spellings of a name: they differ in ASCII case and in a trailing dot at most. -/
def SameName (s t : String) : Prop :=
  eqIgnoreAsciiCase s t = true ∨ eqIgnoreAsciiCase (s ++ ".") t = true ∨ eqIgnoreAsciiCase s (t ++ ".") = true

/-- The host is looked up in lower case. -/
theorem getHost_name (hX : X.Lowercases T) (h : ':' ∉ dest.toList) : getHost X dest = some (X.toLowercase dest) := by
  have hcolon : ':' ∉ (X.toLowercase dest).toList := by
    rw [hX, String.toList_ofList]
    exact fun hmem => h (CaseTable.mem_lowerFrom hmem (by decide) (by decide))
  unfold getHost
  rw [if_neg hcolon, String.ofList_toList]

theorem colon_of_eqIgnoreAsciiCase {s t : String} (h : eqIgnoreAsciiCase s t = true) (hs : ':' ∉ s.toList) :
    ':' ∉ t.toList := by
  intro ht
  have hmem : (':' : Char).toLower ∈ s.toList.map Char.toLower := by
    rw [eq_of_beq h]
    exact List.mem_map_of_mem ht
  obtain ⟨c, hc, hlower⟩ := List.mem_map.mp hmem
  obtain rfl | ⟨-, halpha⟩ := CaseTable.toLower_eq_cases hlower
  · exact hs hc
  · exact absurd halpha (by decide)

namespace SameName

variable {s t : String}

theorem colon (h : SameName s t) (hs : ':' ∉ s.toList) : ':' ∉ t.toList := by
  rcases h with h | h | h
  · exact colon_of_eqIgnoreAsciiCase h hs
  · exact colon_of_eqIgnoreAsciiCase h (by simpa using hs)
  · have ht := colon_of_eqIgnoreAsciiCase h hs
    rw [String.toList_append, List.mem_append, not_or] at ht
    exact ht.1

/-- The router takes two spellings for one name if they differ in nothing but case. -/
theorem lower_eq_iff (hX : X.Lowercases T) (h : SameName s t) :
    X.toLowercase s = X.toLowercase t ↔ eqIgnoreAsciiCase s t = true := by
  refine ⟨fun heq => ?_, hX.congr⟩
  have hlen := congrArg String.length heq
  have hone : ".".length = 1 := rfl
  rcases h with h | h | h
  · exact h
  · have hdot := congrArg String.length (hX.congr h)
    rw [hX.append_dot, String.length_append, hone] at hdot
    omega
  · have hdot := congrArg String.length (hX.congr h)
    rw [hX.append_dot, String.length_append, hone] at hdot
    omega

end SameName

/-- Hosts and SNIs are spelled with the same dots, or host and SNI are two spellings of one name and have been
exchanged. -/
def SameSpelling (X : Crates) (dest : String) (sni : Option String) (dest' : String) (sni' : Option String) :
    Prop :=
  (eqIgnoreAsciiCase dest dest' = true ∧ Option.Rel (fun s t => eqIgnoreAsciiCase s t = true) sni sni') ∨
    (sni'.map X.toLowercase = some (X.toLowercase dest) ∧ sni.map X.toLowercase = some (X.toLowercase dest') ∧
      ∀ c, ipMatches X (X.toLowercase dest) c = ipMatches X (X.toLowercase dest') c)

theorem sameTests_iff (hX : X.Lowercases T) {dest' : String} (hdest : SameName dest dest')
    (hsni : Option.Rel SameName sni sni') :
    SameTests X (X.toLowercase dest) sni (X.toLowercase dest') sni' ↔ SameSpelling X dest sni dest' sni' := by
  unfold SameTests SameSpelling
  rw [← hdest.lower_eq_iff hX]
  cases hsni with
  | none =>
    simp only [names, Option.map_none, Option.toList_none, List.mem_singleton, reduceCtorEq, false_and, or_false]
    constructor
    · rintro ⟨hnames, -⟩
      exact ⟨(hnames _).mp rfl, .none⟩
    · rintro ⟨heq, -⟩
      simp [heq]
  | @some s t hst =>
    simp only [names, Option.map_some, Option.toList_some, List.mem_cons, List.not_mem_nil, or_false,
      Option.some.injEq]
    have hrel : Option.Rel (fun s t => eqIgnoreAsciiCase s t = true) (some s) (some t) ↔
        X.toLowercase s = X.toLowercase t := by
      rw [hst.lower_eq_iff hX]
      exact ⟨fun h => by cases h; assumption, fun h => .some h⟩
    rw [hrel]
    constructor
    · rintro ⟨hnames, hips⟩
      have h1 := hnames (X.toLowercase dest)
      have h2 := hnames (X.toLowercase s)
      have h3 := hnames (X.toLowercase dest')
      have h4 := hnames (X.toLowercase t)
      grind
    · rintro (⟨hd, hs⟩ | ⟨hd, hs, hips⟩)
      · simp [hd, hs]
      · refine ⟨fun n => ?_, hips⟩
        rw [hd, hs, or_comm]

/-- **Two requests for one name have the same routes** exactly when both hosts are local, or when neither is
and the dots agree. -/
theorem resolveRoute_spelling_iff (hX : X.Lowercases T) {dest' : String} (hname : ':' ∉ dest.toList)
    (hdest : SameName dest dest') (hsni : Option.Rel SameName sni sni') :
    (∀ mode destPort inboundTag tables, resolveRoute X mode dest destPort inboundTag sni tables =
        resolveRoute X mode dest' destPort inboundTag sni' tables) ↔
      (hostLocal (X.toLowercase dest) = true ∧ hostLocal (X.toLowercase dest') = true) ∨
        (hostLocal (X.toLowercase dest) = false ∧ hostLocal (X.toLowercase dest') = false ∧
          SameSpelling X dest sni dest' sni') := by
  rw [← sameTests_iff hX hdest hsni]
  exact resolveRoute_forall_iff hX (getHost_name hX hname) (getHost_name hX (hdest.colon hname))

/-- The sample crates with a Unicode `to_lowercase`. -/
def Sample.unicode : Crates := { Sample.crates with
  toLowercase := fun s => String.ofList (CaseTable.ascii.lower s.toList) }

/-- Capitals make no difference. -/
theorem mixedCase_sameRoutes : SameName "Example.com" "example.COM" ∧ ∀ mode destPort inboundTag tables,
    resolveRoute Sample.unicode mode "Example.com" destPort inboundTag (some "WWW.example.com") tables =
      resolveRoute Sample.unicode mode "example.COM" destPort inboundTag (some "www.Example.com") tables :=
  ⟨.inl (by decide), (resolveRoute_spelling_iff (T := CaseTable.ascii) (fun _ => rfl) (by decide) (.inl (by decide))
    (.some (.inl (by decide)))).mpr (.inr ⟨by decide, by decide,
      .inl ⟨by decide, .some (by decide)⟩⟩)⟩

/-- **A trailing dot escapes a domain set.** -/
theorem trailingDot_escapes : SameName "example.com" "example.com." ∧
    resolveRoute Sample.unicode .smart "example.com" 443 "vless" none (exactTable "example.com") = some "warp" ∧
    resolveRoute Sample.unicode .smart "example.com." 443 "vless" none (exactTable "example.com") =
      some "direct" := by
  refine ⟨.inr (.inl (by decide)), by decide, by decide⟩

/-! ## Domain sets -/

/-- What a domain set means: the name is one of its exact domains, or one of its suffixes, or ends with a dot
and one of these. -/
def NameMatches (X : Crates) (set : DomainSet) (name : String) : Prop :=
  (∃ d ∈ set.exactDomains, X.toLowercase name = X.toLowercase d) ∨
    ∃ s ∈ set.domainSuffixes, X.toLowercase name = X.toLowercase s ∨
      '.' :: (X.toLowercase s).toList <:+ (X.toLowercase name).toList

/-- An enabled set matches the host or the SNI. -/
def Selected (X : Crates) (sets : List DomainSet) (host : String) (sni : Option String) : Prop :=
  ∃ set ∈ sets, set.enabled = true ∧ (NameMatches X set host ∨ ∃ s, sni = some s ∧ NameMatches X set s)

theorem dottedSuffix_iff (name suffix : String) :
    (endsWith name suffix && dotBefore name suffix) = true ↔ '.' :: suffix.toList <:+ name.toList := by
  rw [Bool.and_eq_true, endsWith, dotBefore, List.isSuffixOf_iff_suffix, beq_iff_eq]
  constructor
  · rintro ⟨⟨pre, hpre⟩, hdot⟩
    rw [← hpre, List.length_append, Nat.add_sub_cancel, List.take_left, List.getLast?_eq_some_iff] at hdot
    obtain ⟨front, rfl⟩ := hdot
    exact ⟨front, by rw [← hpre, List.append_assoc]; rfl⟩
  · rintro ⟨front, hfront⟩
    have hsplit : name.toList = (front ++ ['.']) ++ suffix.toList := by rw [← hfront, List.append_assoc]; rfl
    refine ⟨⟨_, hsplit.symm⟩, ?_⟩
    rw [hsplit, List.length_append, Nat.add_sub_cancel, List.take_left, List.getLast?_concat]

theorem matchDomainSuffix_iff (X : Crates) (name suffix : String) :
    matchDomainSuffix X name suffix = true ↔ X.toLowercase name = X.toLowercase suffix ∨
      '.' :: (X.toLowercase suffix).toList <:+ (X.toLowercase name).toList := by
  show (_ == _ || _) = true ↔ _
  rw [Bool.or_eq_true, beq_iff_eq, dottedSuffix_iff]

theorem mem_exactOf (X : Crates) (sets : List DomainSet) (name : String) :
    name ∈ exactOf X sets ↔ ∃ set ∈ sets, set.enabled = true ∧ ∃ d ∈ set.exactDomains, X.toLowercase d = name := by
  simp only [exactOf, List.mem_flatMap, List.mem_filter, List.mem_map, and_assoc]

theorem mem_suffixesOf (X : Crates) (sets : List DomainSet) (name : String) :
    name ∈ suffixesOf X sets ↔
      ∃ set ∈ sets, set.enabled = true ∧ ∃ s ∈ set.domainSuffixes, X.toLowercase s = name := by
  simp only [suffixesOf, List.mem_flatMap, List.mem_filter, List.mem_map, and_assoc]

/-- The host is in lower case. -/
theorem getHost_lower (hX : X.Lowercases T) (h : getHost X dest = some host) : X.toLowercase host = host := by
  have hsub : host.toList ⊆ (X.toLowercase dest).toList := by
    unfold getHost at h
    simp only [] at h
    split_ifs at h
    · obtain rfl := Option.some.inj h
      simp
    · split at h
      · cases h
      · next c r hr =>
        split_ifs at h
        obtain rfl := Option.some.inj h
        rw [String.toList_ofList]
        intro d hd
        exact (List.takeWhile_prefix _).subset (hr ▸ List.mem_cons_of_mem _ hd)
    · obtain rfl := Option.some.inj h
      rw [String.toList_ofList]
      intro d hd
      exact List.mem_reverse.mp ((List.dropWhile_suffix _).subset (List.mem_of_mem_drop (List.mem_reverse.mp hd)))
    · obtain rfl := Option.some.inj h
      simp
  rw [hX, CaseTable.lower, CaseTable.lowerFrom_of_fixed, String.ofList_toList]
  intro d hd
  have hmem := hsub hd
  rw [hX, String.toList_ofList] at hmem
  exact CaseTable.fixed_of_mem_lowerFrom hmem

/-- **The compiled tables mean what the enabled sets mean.** -/
theorem matchesDomain_sets (hX : X.Lowercases T) (sets : List DomainSet) (hhost : X.toLowercase host = host) :
    matchesDomain X host sni (exactOf X sets) (suffixesOf X sets) = true ↔ Selected X sets host sni := by
  have hname : ∀ name, X.toLowercase name = name →
      ((decide (name ∈ exactOf X sets) || (suffixesOf X sets).any (matchDomainSuffix X name)) = true ↔
        ∃ set ∈ sets, set.enabled = true ∧ NameMatches X set name) := by
    intro name hfixed
    rw [Bool.or_eq_true, decide_eq_true_iff, List.any_eq_true, mem_exactOf]
    constructor
    · rintro (⟨set, hset, hon, d, hd, hname⟩ | ⟨_, hsuffix, hmatch⟩)
      · exact ⟨set, hset, hon, .inl ⟨d, hd, hfixed.trans hname.symm⟩⟩
      · obtain ⟨set, hset, hon, s, hs, rfl⟩ := (mem_suffixesOf ..).mp hsuffix
        rw [matchDomainSuffix_iff, hX.lower_lower] at hmatch
        exact ⟨set, hset, hon, .inr ⟨s, hs, hmatch⟩⟩
    · rintro ⟨set, hset, hon, ⟨d, hd, hname⟩ | ⟨s, hs, hmatch⟩⟩
      · exact .inl ⟨set, hset, hon, d, hd, hname.symm.trans hfixed⟩
      · refine .inr ⟨_, (mem_suffixesOf ..).mpr ⟨set, hset, hon, s, hs, rfl⟩, ?_⟩
        rwa [matchDomainSuffix_iff, hX.lower_lower]
  rw [matchesDomain_names, List.any_eq_true]
  constructor
  · rintro ⟨name, hmem, hmatch⟩
    rcases List.mem_cons.mp hmem with rfl | hmem
    · obtain ⟨set, hset, hon, hm⟩ := (hname _ hhost).mp hmatch
      exact ⟨set, hset, hon, .inl hm⟩
    · obtain ⟨s, hs, rfl⟩ := Option.map_eq_some_iff.mp (Option.mem_toList.mp hmem)
      obtain ⟨set, hset, hon, hm⟩ := (hname _ (hX.lower_lower s)).mp hmatch
      refine ⟨set, hset, hon, .inr ⟨s, hs, ?_⟩⟩
      simpa only [NameMatches, hX.lower_lower] using hm
  · rintro ⟨set, hset, hon, hm | ⟨s, rfl, hm⟩⟩
    · exact ⟨host, List.mem_cons_self, (hname _ hhost).mpr ⟨set, hset, hon, hm⟩⟩
    · refine ⟨X.toLowercase s, by simp [names], (hname _ (hX.lower_lower s)).mpr ⟨set, hset, hon, ?_⟩⟩
      simpa only [NameMatches, hX.lower_lower] using hm

/-! ## Domain rules -/

/-- What stands before the domain of a rule, the nearest first. -/
def beforeDomain : List Char := "domain:".toList.reverse

theorem lower_domain (hX : X.Lowercases T) (s : String) : X.toLowercase ("domain:" ++ s) =
    "domain:" ++ String.ofList (T.lowerFrom beforeDomain s.toList) := by
  have hascii : "domain:".toList.flatMap T.toLower = "domain:".toList := by
    simp [T.toLower_ascii _ (show ('d' : Char).toNat < 128 by decide), T.toLower_ascii 'o' (by decide),
      T.toLower_ascii 'm' (by decide), T.toLower_ascii 'a' (by decide), T.toLower_ascii 'i' (by decide),
      T.toLower_ascii 'n' (by decide), T.toLower_ascii ':' (by decide)]
  rw [hX, String.toList_append, CaseTable.lower, CaseTable.lowerFrom_append (by decide), hascii,
    String.ofList_append, String.ofList_toList, List.append_nil]
  rfl

/-- A `domain:` rule matches like a suffix, the one in which the prefix has left its trace. -/
theorem matchesRuleDomain_domain (hX : X.Lowercases T) (s name : String) :
    matchesRuleDomain X ("domain:" ++ s) name = true ↔
      (X.toLowercase name).toList = T.lowerFrom beforeDomain s.toList ∨
        '.' :: T.lowerFrom beforeDomain s.toList <:+ (X.toLowercase name).toList := by
  have hstarts : startsWith (X.toLowercase ("domain:" ++ s)) "domain:" = true := by
    rw [lower_domain hX, startsWith, String.toList_append, List.isPrefixOf_iff_prefix]
    exact List.prefix_append _ _
  have hafter : afterPrefix (X.toLowercase ("domain:" ++ s)) "domain:" =
      String.ofList (T.lowerFrom beforeDomain s.toList) := by
    rw [lower_domain hX, afterPrefix, String.toList_append, List.drop_left, String.ofList_toList]
  rw [matchesRuleDomain]
  simp only [hstarts, hafter, if_true]
  rw [Bool.or_eq_true, beq_iff_eq, dottedSuffix_iff, String.toList_ofList, ← String.toList_inj,
    String.toList_ofList]

/-- **A suffix and its `domain:` rule match the same names** exactly when the suffix does not open with a final
sigma. -/
theorem suffix_rule_iff (hX : X.Lowercases T) (s : String) :
    (∀ name, matchDomainSuffix X name s = matchesRuleDomain X ("domain:" ++ s) name) ↔
      T.opensWithFinalSigma s.toList = false := by
  have hbefore : T.ignorableThenCased beforeDomain = true := by
    have hcolon : T.ignorable ':' = true := T.ignorable_ascii ':' (by decide)
    have hn : T.ignorable 'n' = false := T.ignorable_ascii 'n' (by decide)
    have hcased : T.cased 'n' = true := T.cased_ascii 'n' (by decide)
    simp [CaseTable.ignorableThenCased, beforeDomain, hcolon, hn, hcased]
  rw [← CaseTable.lowerFrom_eq_iff hbefore (show T.ignorableThenCased [] = false from rfl)]
  have hlower : (X.toLowercase s).toList = T.lowerFrom [] s.toList := by
    rw [hX, String.toList_ofList]
    rfl
  constructor
  · intro hall
    have hself := hall s
    rw [(matchDomainSuffix_iff X s s).mpr (.inl rfl), eq_comm, matchesRuleDomain_domain hX, hlower] at hself
    have hlen := CaseTable.lowerFrom_length (T := T) beforeDomain [] s.toList
    rcases hself with h | h
    · exact h.symm
    · have hle := h.length_le
      rw [List.length_cons] at hle
      omega
  · intro heq name
    rw [Bool.eq_iff_iff, matchDomainSuffix_iff, matchesRuleDomain_domain hX, heq, ← hlower, String.toList_inj]

/-- A text that `get_host` can slice: if `:` and `]` are in it, it opens and closes with brackets, or opens with one
byte that is not `]`. -/
def Sliceable (s : List Char) : Prop :=
  ':' ∈ s → ']' ∈ s → (s.head? = some '[' ∧ s.getLast? = some ']') ∨ ∃ c ∈ s.head?, c ≠ ']' ∧ c.toNat < 128

/-- **`get_host` returns** on these texts. -/
theorem getHost_isSome_iff : (getHost X dest).isSome ↔ Sliceable (X.toLowercase dest).toList := by
  unfold getHost
  generalize (X.toLowercase dest).toList = s
  by_cases hcolon : ':' ∈ s
  · by_cases hends : s.head? = some '[' ∧ s.getLast? = some ']'
    · simp [Sliceable, hcolon, hends]
    · by_cases hbracket : ']' ∈ s
      · cases s with
        | nil => cases hcolon
        | cons c r =>
          simp only [Sliceable, if_neg hends, hcolon, hbracket, true_implies]
          by_cases hc : c = ']'
          · subst hc
            simp
          · rw [List.takeWhile_cons_of_pos (by simp [hc])]
            by_cases hbyte : c.toNat < 128
            · simp [hbyte, hc]
            · simp only [hbyte, if_true, if_false]
              have hopen : c ≠ '[' := fun h => hbyte (h ▸ by decide)
              simp [hopen, hbyte]
      · simp [Sliceable, hcolon, hends, hbracket]
  · simp [Sliceable, hcolon]

/-- `matches_domain` returns, with the answer of the direct evaluation. -/
def MatchesSelected (X : Crates) (dest : String) (sni : Option String) (exact suffixes : List String)
    (sets : List DomainSet) : Prop :=
  ∃ host answer, getHost X dest = some host ∧ matchesDomainAt X dest sni exact suffixes = some answer ∧
    (answer = true ↔ Selected X sets host sni)

theorem matchesSelected_iff (hX : X.Lowercases T) (sets : List DomainSet) (sni : Option String) :
    MatchesSelected X dest sni (exactOf X sets) (suffixesOf X sets) sets ↔
      Sliceable (X.toLowercase dest).toList := by
  rw [← getHost_isSome_iff]
  constructor
  · rintro ⟨host, -, hhost, -⟩
    rw [hhost]
    rfl
  · intro h
    obtain ⟨host, hhost⟩ := Option.isSome_iff_exists.mp h
    exact ⟨host, _, hhost, by rw [matchesDomainAt, hhost]; rfl, matchesDomain_sets hX sets (getHost_lower hX hhost)⟩

/-- **Tables and direct evaluation agree**, on all configurations and modes and on the destinations that can be
sliced, and, on suffixes that do not open with a final sigma, with the rules, too. -/
theorem compile_matches (hX : X.Lowercases T) :
    (∀ config dest sni,
      (MatchesSelected X dest sni (RouteModeTables.compile X config).warpExact
          (RouteModeTables.compile X config).warpSuffixes config.warpDomainSets ∧
        MatchesSelected X dest sni (RouteModeTables.compile X config).directExact
          (RouteModeTables.compile X config).directSuffixes config.directExceptionSets) ↔
      Sliceable (X.toLowercase dest).toList) ∧
    (∀ config sets mode dest destPort inboundTag sni, mode ≠ .smart →
      resolveRoute X mode dest destPort inboundTag sni
          (RouteModeTables.compile X { config with warpDomainSets := sets }) =
        resolveRoute X mode dest destPort inboundTag sni (RouteModeTables.compile X config)) ∧
    (∀ config sets mode dest destPort inboundTag sni, mode ≠ .browsingWarp →
      resolveRoute X mode dest destPort inboundTag sni
          (RouteModeTables.compile X { config with directExceptionSets := sets }) =
        resolveRoute X mode dest destPort inboundTag sni (RouteModeTables.compile X config)) ∧
    ∀ s, (∀ name, matchDomainSuffix X name s = matchesRuleDomain X ("domain:" ++ s) name) ↔
      T.opensWithFinalSigma s.toList = false := by
  refine ⟨fun config dest sni => ?_, fun config sets mode dest destPort inboundTag sni hmode => ?_,
    fun config sets mode dest destPort inboundTag sni hmode => ?_, suffix_rule_iff hX⟩
  · exact (and_congr (matchesSelected_iff hX config.warpDomainSets sni)
      (matchesSelected_iff hX config.directExceptionSets sni)).trans (and_self_iff ..)
  · cases mode with
    | smart => exact absurd rfl hmode
    | browsingWarp => rfl
    | lowLatencyDirect => rfl
  · cases mode with
    | smart => rfl
    | browsingWarp => exact absurd rfl hmode
    | lowLatencyDirect => rfl

/-- An enabled set and one that is not. -/
def twoSets : List DomainSet :=
  [⟨Vector.replicate 16 1, "a", "", ["Login.example.com"], ["example.org"], true, 10, .global, 0, 0⟩,
    ⟨Vector.replicate 16 2, "b", "", ["example.net"], [], false, 5, .global, 0, 0⟩]

theorem twoSets_compiled :
    MatchesSelected Sample.unicode "LOGIN.example.com" none
        (RouteModeTables.compile Sample.unicode { defaultConfig with warpDomainSets := twoSets }).warpExact
        (RouteModeTables.compile Sample.unicode { defaultConfig with warpDomainSets := twoSets }).warpSuffixes twoSets ∧
      ∀ name, matchDomainSuffix Sample.unicode name "example.org" =
        matchesRuleDomain Sample.unicode "domain:example.org" name :=
  ⟨(((compile_matches (T := CaseTable.ascii) fun _ => rfl).1 { defaultConfig with warpDomainSets := twoSets }
      "LOGIN.example.com" none).mpr fun hcolon => absurd hcolon (by decide)).1,
    ((compile_matches (T := CaseTable.ascii) fun _ => rfl).2.2.2 "example.org").mpr (by decide)⟩

/-- **A suffix that is a capital sigma matches itself, and its rule does not**; a destination on which the match of a
name does not return. -/
theorem sigma_rule : matchDomainSuffix Sample.unicode "Σ" "Σ" = true ∧
    matchesRuleDomain Sample.unicode "domain:Σ" "Σ" = false ∧
    matchesDomainAt Sample.unicode "]:1" none [] [] = none := by
  decide

end RXCore
