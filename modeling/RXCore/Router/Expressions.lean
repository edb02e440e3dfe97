import RXCore.Lib.Tables
import RXCore.Router.Names

/-!
# Regular expressions in rules

`matches_rule_domain` with its cache of compiled expressions. The pattern is put into lower case before the
expression is taken from it.

* `RegexCache`, `matchesRuleDomainCached`, `cacheAfter`: the cache and the calls that fill it;
* **`matchesRuleDomainCached_fst`**: the cache changes no answer;
* `lowerExpr`: the expression that is compiled for another one;
* **`regexp_asWritten_of_lower`**: when a rule answers as its expression was written;
  `lowerExpr_eq_of_asWritten`: no more can be said of all that expressions may mean;
* `regexp_caseBlind`: expressions that differ in case only have the same answers.
-/

set_option autoImplicit false

namespace RXCore

open Lowercase Tables

/-! ## The cache -/

/-- `REGEX_CACHE`. -/
abbrev RegexCache := AList fun _ : String => Option (String → Bool)

/-- The entry of the cache for an expression, which is compiled if there is none. -/
def RegexCache.entry (X : Crates) (cache : RegexCache) (regexStr : String) : Option (String → Bool) × RegexCache :=
  match cache.lookup regexStr with
  | some entry => (entry, cache)
  | none => (X.regex regexStr, cache.insert regexStr (X.regex regexStr))

/-- `matches_rule_domain`, and the cache after it. -/
def matchesRuleDomainCached (X : Crates) (cache : RegexCache) (domainPattern host : String) : Bool × RegexCache :=
  let host := X.toLowercase host
  let pattern := X.toLowercase domainPattern
  if startsWith pattern "domain:" then
    let suffix := afterPrefix pattern "domain:"
    (host == suffix || (endsWith host suffix && dotBefore host suffix), cache)
  else if startsWith pattern "keyword:" then (contains host (afterPrefix pattern "keyword:"), cache)
  else if startsWith pattern "regexp:" then
    let regexStr := afterPrefix pattern "regexp:"
    let (entry, cache) := cache.entry X regexStr
    match entry with
    | some isMatch => (isMatch host, cache)
    | none => (contains host regexStr, cache)
  else (host == pattern || (endsWith host pattern && dotBefore host pattern), cache)

/-- The cache after calls for patterns and hosts, from an empty one. -/
def cacheAfter (X : Crates) (calls : List (String × String)) : RegexCache :=
  calls.foldl (fun cache call => (matchesRuleDomainCached X cache call.1 call.2).2) ∅

/-- Every entry is what its expression compiles to. -/
def RegexCache.Faithful (X : Crates) (cache : RegexCache) : Prop :=
  ∀ regexStr entry, cache.lookup regexStr = some entry → entry = X.regex regexStr

section

variable {X : Crates} {T : CaseTable} {cache : RegexCache} {p q h : String}

theorem RegexCache.Faithful.entry (hc : cache.Faithful X) (regexStr : String) :
    (cache.entry X regexStr).1 = X.regex regexStr ∧ (cache.entry X regexStr).2.Faithful X := by
  unfold RegexCache.entry
  cases hl : cache.lookup regexStr with
  | some entry => exact ⟨hc regexStr entry hl, hc⟩
  | none =>
    refine ⟨rfl, fun r e he => ?_⟩
    obtain ⟨rfl, rfl⟩ | ⟨-, he⟩ := lookup_insert_cases he
    · rfl
    · exact hc r e he

/-- **The cache changes no answer.** -/
theorem matchesRuleDomainCached_fst (hc : cache.Faithful X) (domainPattern host : String) :
    (matchesRuleDomainCached X cache domainPattern host).1 = matchesRuleDomain X domainPattern host := by
  obtain ⟨hentry, -⟩ := hc.entry (afterPrefix (X.toLowercase domainPattern) "regexp:")
  unfold matchesRuleDomainCached matchesRuleDomain
  simp only [← hentry]
  split_ifs
  · rfl
  · rfl
  · cases (cache.entry X (afterPrefix (X.toLowercase domainPattern) "regexp:")).1 <;> rfl
  · rfl

theorem RegexCache.Faithful.call (hc : cache.Faithful X) (domainPattern host : String) :
    (matchesRuleDomainCached X cache domainPattern host).2.Faithful X := by
  obtain ⟨-, hnext⟩ := hc.entry (afterPrefix (X.toLowercase domainPattern) "regexp:")
  unfold matchesRuleDomainCached
  dsimp only
  split_ifs
  · exact hc
  · exact hc
  · cases (cache.entry X (afterPrefix (X.toLowercase domainPattern) "regexp:")).1 <;> exact hnext
  · exact hc

theorem faithful_cacheAfter (X : Crates) (calls : List (String × String)) : (cacheAfter X calls).Faithful X := by
  have hrun : ∀ (calls : List (String × String)) (cache : RegexCache), cache.Faithful X → RegexCache.Faithful X
      (calls.foldl (fun cache call => (matchesRuleDomainCached X cache call.1 call.2).2) cache) := by
    intro calls
    induction calls with
    | nil => exact fun cache hc => hc
    | cons call calls ih => exact fun cache hc => ih _ (hc.call call.1 call.2)
  exact hrun calls ∅ fun r e he => by simp at he

/-! ## The expression that is compiled -/

/-- The expression in lower case, as the text after `regexp:`. -/
def lowerExpr (T : CaseTable) (p : String) : String := String.ofList (T.lowerFrom "regexp:".toList.reverse p.toList)

/-- What an expression says of a host; one that does not compile is looked for in the host. -/
def Crates.expression (X : Crates) (p host : String) : Bool :=
  match X.regex p with
  | some isMatch => isMatch host
  | none => contains host p

/-- What the rule is meant to say: the expression, as it was written, of the host in lower case, or the host
contains it. -/
def asWritten (X : Crates) (p host : String) : Bool :=
  match X.regex p with
  | some isMatch => isMatch (X.toLowercase host)
  | none => contains host p

theorem toLowercase_regexp (hX : X.Lowercases T) (p : String) :
    X.toLowercase ("regexp:" ++ p) = "regexp:" ++ lowerExpr T p := by
  have hsigma : 'Σ' ∉ "regexp:".toList := by decide
  have hascii : "regexp:".toList.flatMap T.toLower = "regexp:".toList := by
    have hlower : ∀ c ∈ "regexp:".toList, T.toLower c = [c] := by
      have hkept : ∀ c ∈ "regexp:".toList, c.toNat < 128 ∧ c.toLower = c := by simp
      intro c hc
      obtain ⟨hlt, hc⟩ := hkept c hc
      rw [T.toLower_ascii c hlt, hc]
    rw [List.flatMap_congr hlower, List.flatMap_singleton']
  rw [hX, CaseTable.lower, String.toList_append, CaseTable.lowerFrom_append hsigma, hascii, List.append_nil,
    String.ofList_append]
  rfl

theorem afterPrefix_append (pre s : String) : afterPrefix (pre ++ s) pre = s := by
  simp [afterPrefix]

/-- **A rule with an expression asks the one in lower case.** -/
theorem matchesRuleDomain_regexp (hX : X.Lowercases T) (p h : String) :
    matchesRuleDomain X ("regexp:" ++ p) h = X.expression (lowerExpr T p) (X.toLowercase h) := by
  have hdomain : startsWith ("regexp:" ++ lowerExpr T p) "domain:" = false := by
    simp [startsWith, List.isPrefixOf]
  have hkeyword : startsWith ("regexp:" ++ lowerExpr T p) "keyword:" = false := by
    simp [startsWith, List.isPrefixOf]
  have hregexp : startsWith ("regexp:" ++ lowerExpr T p) "regexp:" = true := by simp [startsWith]
  simp only [matchesRuleDomain, toLowercase_regexp hX, hdomain, hkeyword, hregexp, if_true, Bool.false_eq_true,
    if_false, afterPrefix_append]
  rfl

/-- An expression that lower case does not change is the one that is compiled. -/
theorem lowerExpr_of_fixed (hX : X.Lowercases T) (hp : X.toLowercase p = p) : lowerExpr T p = p := by
  have hfixed : ∀ c ∈ p.toList, c ≠ 'Σ' ∧ T.toLower c = [c] := by
    rw [← hp, hX, String.toList_ofList]
    exact fun c hc => CaseTable.fixed_of_mem_lowerFrom hc
  rw [lowerExpr, CaseTable.lowerFrom_of_fixed hfixed, String.ofList_toList]

/-- **A rule answers as its expression was written**, whatever was asked before, if lower case does not change the
expression, nor the host where the expression does not compile. -/
theorem regexp_asWritten_of_lower (X : Crates) (T : CaseTable) (hX : X.Lowercases T) (calls : List (String × String))
    (p h : String) (hp : X.toLowercase p = p) (hh : (X.regex p).isSome ∨ X.toLowercase h = h) :
    (matchesRuleDomainCached X (cacheAfter X calls) ("regexp:" ++ p) h).1 = asWritten X p h := by
  rw [matchesRuleDomainCached_fst (faithful_cacheAfter X calls), matchesRuleDomain_regexp hX, lowerExpr_of_fixed hX hp]
  unfold Crates.expression asWritten
  cases hm : X.regex p with
  | some isMatch => rfl
  | none =>
    have hhost : X.toLowercase h = h := hh.resolve_left (by simp [hm])
    exact congrArg (contains · p) hhost

/-- **No other expression is answered as it was written whatever expressions mean.** -/
theorem lowerExpr_eq_of_asWritten (hX : X.Lowercases T)
    (hsame : ∀ regex, matchesRuleDomain { X with regex := regex } ("regexp:" ++ p) h =
      asWritten { X with regex := regex } p h) : lowerExpr T p = p := by
  by_contra hne
  -- one crate that tells the two expressions apart
  have hanswer := hsame fun q => some fun _ => q == p
  have hlower : Crates.Lowercases { X with regex := fun q => some fun _ => q == p } T := hX
  rw [matchesRuleDomain_regexp hlower] at hanswer
  have heq : (lowerExpr T p == p) = (p == p) := hanswer
  rw [beq_self_eq_true, beq_iff_eq] at heq
  exact hne heq

/-- **Case makes no difference**: rules whose expressions differ in ASCII case only have the same answers. -/
theorem regexp_caseBlind (hX : X.Lowercases T) (hpq : eqIgnoreAsciiCase p q = true) (h : String) :
    matchesRuleDomain X ("regexp:" ++ p) h = matchesRuleDomain X ("regexp:" ++ q) h := by
  have hsame : lowerExpr T p = lowerExpr T q := by
    rw [lowerExpr, lowerExpr, CaseTable.lowerFrom_congr_ascii rfl (eq_of_beq hpq)]
  rw [matchesRuleDomain_regexp hX, matchesRuleDomain_regexp hX, hsame]

end

/-- Crates that know the expressions for one digit, and for one character that is none. -/
def Sample.digits : Crates := { Sample.unicode with
  regex := fun p =>
    if p = "^\\d$" then some fun h => h.toList.length = 1 ∧ h.toList.all Char.isDigit
    else if p = "^\\D$" then some fun h => h.toList.length = 1 ∧ ¬ h.toList.all Char.isDigit
    else none }

theorem regexp_asWritten_digit :
    (matchesRuleDomainCached Sample.digits (cacheAfter Sample.digits [("regexp:^\\D$", "x")]) ("regexp:" ++ "^\\d$") "7").1 =
      asWritten Sample.digits "^\\d$" "7" :=
  regexp_asWritten_of_lower Sample.digits .ascii (fun _ => rfl) _ _ _ (by decide) (.inl (by decide))

/-- **A rule for what is no digit matches the digits.** -/
theorem notDigit_matches_digit : asWritten Sample.digits "^\\D$" "7" = false ∧
    asWritten Sample.digits "^\\D$" "x" = true ∧
    (matchesRuleDomainCached Sample.digits ∅ "regexp:^\\D$" "7").1 = true ∧
    (matchesRuleDomainCached Sample.digits ∅ "regexp:^\\D$" "x").1 = false ∧
    ¬ ∀ p h, (matchesRuleDomainCached Sample.digits ∅ ("regexp:" ++ p) h).1 = asWritten Sample.digits p h := by
  have hwritten : asWritten Sample.digits "^\\D$" "7" = false := by decide
  have hanswer : (matchesRuleDomainCached Sample.digits ∅ ("regexp:" ++ "^\\D$") "7").1 = true := by decide
  refine ⟨hwritten, by decide, hanswer, by decide, fun h => ?_⟩
  rw [h, hwritten] at hanswer
  cases hanswer

end RXCore
