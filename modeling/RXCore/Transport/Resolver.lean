import RXCore.Crates
import RXCore.Lib.Coalesce
import RXCore.Outbound.Dial
import RXCore.Transport.SingleFlight

/-!
# The resolver

`DefaultResolver::resolve_ipv4` with its two caches and its two single flights, one for each route. Every
access to a cache, to the map of a single flight or to one of its channels is a step of its own.

* `exec_coalesce`: the single flight on the engine's one thread is a case of the general one;
* `dnsGet`, `dnsInsert`: the cache; `lookupIpv4`: the lookup of a leader;
* `Resolver`, `resolverStep`: any number of calls, in any order;
* `Coalesced`: one lookup for a key, and its result for everyone that joined it;
* **`resolveIpv4_coalesced`**: what a call returns was found for its host, and carries its port.
-/

set_option autoImplicit false

namespace RXCore

open SingleFlight (Answer)

/-! ## One thread -/

namespace SingleFlight

def Role.toCoalesce : Role → Coalesce.Role
  | leader ch => .leader ch
  | follower ch => .waiter ch

def Phase.toCoalesce : Phase → Coalesce.Phase Answer
  | returned res => .returned res
  | _ => .pending

def Caller.toCoalesce (c : Caller) : Coalesce.Call String Answer :=
  ⟨c.key, c.role.toCoalesce, c.phase.toCoalesce⟩

/-- The state without what only dropped callers change. -/
def State.toCoalesce (s : State) : Coalesce.State String Answer :=
  ⟨s.inflight, s.channels.map Channel.value, s.callers.map Caller.toCoalesce⟩

/-- A channel without a value has its sender. -/
def Open (s : State) : Prop := ∀ c ∈ s.channels, c.value = none → c.sender = true

theorem observe_of_open {s : State} (h : Open s) {ch : ℕ} {c : Channel} (hc : s.channels[ch]? = some c) :
    Coalesce.observe s.toCoalesce ch = (observe c).toCoalesce := by
  have hch : s.toCoalesce.channels[ch]? = some c.value := by simp [State.toCoalesce, hc]
  unfold observe Coalesce.observe
  rw [hch]
  cases hv : c.value with
  | some res => rfl
  | none =>
    have hsender := h c (List.mem_of_getElem? hc) hv
    simp [hsender, Phase.toCoalesce]

theorem toCoalesce_calls {s : State} {i : ℕ} {c : Caller} (hc : s.callers[i]? = some c) :
    s.toCoalesce.calls[i]? = some c.toCoalesce := by simp [State.toCoalesce, hc]

theorem setPhase_toCoalesce (s : State) (i : ℕ) (c : Caller) (p : Phase) :
    (setPhase s i c p).map Caller.toCoalesce =
      s.toCoalesce.calls.set i ⟨c.key, c.role.toCoalesce, p.toCoalesce⟩ := by
  rw [setPhase, List.map_set]
  rfl

/-- One step of the thread is a run of steps in any order. -/
theorem step_coalesce {s s' : State} (hopen : Open s) {a : Action} (ha : ∀ i, a ≠ .drop i)
    (h : step s a = some s') :
    Open s' ∧ ∃ bs, Run.exec Coalesce.step s.toCoalesce bs = some s'.toCoalesce := by
  cases a with
  | call key =>
    simp only [step, call] at h
    cases hl : s.inflight.lookup key with
    | some ch =>
      simp only [hl] at h
      obtain ⟨c, hc, h⟩ := Option.bind_eq_some_iff.mp h
      obtain rfl := Option.some.inj h
      refine ⟨hopen, [.join key, .observe s.callers.length], ?_⟩
      have hjoin : Coalesce.join s.toCoalesce key =
          { s.toCoalesce with calls := s.toCoalesce.calls ++ [⟨key, .waiter ch, .pending⟩] } := by
        have hl' : s.toCoalesce.inflight.lookup key = some ch := hl
        rw [Coalesce.join, hl']
      have hlen : s.toCoalesce.calls.length = s.callers.length := List.length_map _
      have hobserve := observe_of_open hopen hc
      rw [Run.exec_cons_of_step (t := Coalesce.join s.toCoalesce key) rfl, hjoin, Run.exec_cons, Coalesce.step,
        ← hlen, List.getElem?_concat_length]
      simp only [Option.bind_some, Run.exec_nil, List.set_append_right _ _ le_rfl, Nat.sub_self, List.set_cons_zero]
      simp only [State.toCoalesce, List.map_append, List.map_cons, List.map_nil]
      rw [show Caller.toCoalesce ⟨key, .follower ch, observe c⟩ = ⟨key, .waiter ch, (observe c).toCoalesce⟩ from rfl,
        ← hobserve]
      rfl
    | none =>
      simp only [hl] at h
      obtain rfl := Option.some.inj h
      refine ⟨fun c hc hv => ?_, [.join key], ?_⟩
      · rcases List.mem_append.mp hc with hc | hc
        · exact hopen c hc hv
        · obtain rfl := List.mem_singleton.mp hc
          rfl
      · have hl' : s.toCoalesce.inflight.lookup key = none := hl
        have hlen : s.toCoalesce.channels.length = s.channels.length := List.length_map _
        rw [Run.exec_cons, Coalesce.step, Coalesce.join, hl', hlen]
        simp [State.toCoalesce, Caller.toCoalesce, Role.toCoalesce, Phase.toCoalesce]
  | poll i =>
    simp only [step] at h
    split at h
    · next key ch hi =>
      obtain ⟨c, hc, h⟩ := Option.bind_eq_some_iff.mp h
      obtain rfl := Option.some.inj h
      refine ⟨hopen, [.observe i], ?_⟩
      have hcall : s.toCoalesce.calls[i]? = some ⟨key, .waiter ch, .pending⟩ := toCoalesce_calls hi
      rw [Run.exec_cons, Coalesce.step, hcall]
      simp only [Option.bind_some, Run.exec_nil, observe_of_open hopen hc]
      simp only [State.toCoalesce, setPhase_toCoalesce]
      rfl
    · cases h
  | finish i res =>
    obtain ⟨key, ch, hi, rfl⟩ := finish_cases h
    refine ⟨fun c hc hv => ?_, [.finish i res, .remove i, .publish i], ?_⟩
    · rcases List.mem_or_eq_of_mem_set hc with hc | rfl
      · exact hopen c hc hv
      · cases hv
    · have hcall : s.toCoalesce.calls[i]? = some ⟨key, .leader ch, .pending⟩ := toCoalesce_calls hi
      have hset : ∀ x, (s.toCoalesce.calls.set i x)[i]? = some x := Parties.getElem?_set_self hcall
      simp only [Run.exec_cons, Coalesce.step, hcall, Option.bind_some, hset, List.set_set, Run.exec_nil]
      simp only [State.toCoalesce, setPhase_toCoalesce, List.map_set]
      rfl
  | drop i => exact absurd rfl (ha i)

/-- **The engine's one thread**: a run in which no caller is dropped. -/
theorem exec_coalesce {s : State} {as : List Action} (has : ∀ a ∈ as, ∀ i, a ≠ .drop i)
    (h : Run.exec step init as = some s) : ∃ bs, Run.exec Coalesce.step Coalesce.init bs = some s.toCoalesce := by
  have hgen : ∀ (as : List Action) (t : State), (∀ a ∈ as, ∀ i, a ≠ .drop i) → Open t →
      Run.exec step t as = some s → ∃ bs, Run.exec Coalesce.step t.toCoalesce bs = some s.toCoalesce := by
    intro as
    induction as with
    | nil =>
      intro t _ _ h
      obtain rfl := Option.some.inj h
      exact ⟨[], rfl⟩
    | cons a as ih =>
      intro t has hopen h
      obtain ⟨t', ht, h⟩ := Run.exec_cons_some h
      obtain ⟨hopen', bs, hbs⟩ := step_coalesce hopen (has a List.mem_cons_self) ht
      obtain ⟨bs', hbs'⟩ := ih t' (fun b hb => has b (List.mem_cons_of_mem _ hb)) hopen' h
      refine ⟨bs ++ bs', ?_⟩
      rw [Run.exec_append, hbs]
      exact hbs'
  exact hgen as init has (fun c hc => absurd hc List.not_mem_nil) h

end SingleFlight

/-! ## The cache -/

/-- `CacheEntry`; an `Instant` is a number of milliseconds. -/
structure CacheEntry where
  ips : List Ipv4Addr
  expiresAt : ℕ

abbrev DnsEntries := AList fun _ : String => CacheEntry

/-- The size and the negative lifetime of both caches. -/
def maxEntries : ℕ := 1000

def negativeTtl : ℕ := 10

/-- The addresses with the port of a request. -/
def withPort (port : UInt16) (ips : List Ipv4Addr) : List SocketAddrV4 := ips.map fun ip => (ip, port)

/-- `DnsCache::get`: an entry that has not expired; one that has is removed. -/
def dnsGet (X : Crates) (entries : DnsEntries) (now : ℕ) (hostname : String) (port : UInt16) :
    Option (Except String (List SocketAddrV4)) × DnsEntries :=
  let key := X.toLowercase hostname
  match entries.lookup key with
  | some entry =>
    if now < entry.expiresAt then
      if entry.ips = [] then (some (.error "Cached negative DNS result"), entries)
      else (some (.ok (withPort port entry.ips)), entries)
    else (none, entries.erase key)
  | none => (none, entries)

/-- What `DnsCache::insert` removes from a full cache: what has expired, or else the `n`-th key, since it is
not said in which order a hash map gives its keys. -/
def dnsEvict (entries : DnsEntries) (now n : ℕ) : DnsEntries :=
  if maxEntries ≤ entries.keys.length then
    let expired := entries.keys.filter fun k => (entries.lookup k).any fun e => decide (e.expiresAt ≤ now)
    if expired ≠ [] then expired.foldl (fun m k => m.erase k) entries
    else match entries.keys[n % entries.keys.length]? with
      | some k => entries.erase k
      | none => entries
  else entries

/-- The addresses and the lifetime, in seconds, under which a result is cached. -/
def cached : Answer → List Ipv4Addr × ℕ
  | .ok (ips, rawTtl) => (ips, max 5 (min rawTtl 600))
  | .error _ => ([], negativeTtl)

/-- `DnsCache::insert`. -/
def dnsInsert (X : Crates) (entries : DnsEntries) (now n : ℕ) (hostname : String) (result : Answer) :
    DnsEntries :=
  (dnsEvict entries now n).insert (X.toLowercase hostname)
    ⟨(cached result).1, now + (cached result).2 * 1000⟩

/-! ## Lookups -/

structure ResolveRequest where
  hostname : String
  port : UInt16
  route : SelectedRoute
  ipv4Only : Bool
  outboundProxy : Option String
deriving DecidableEq

/-- What the surroundings answer to a lookup. -/
structure LookupAnswers where
  net : Answers
  /-- `resolve_dns_over_tcp_socks`, with the host, the server and the proxy. -/
  dnsOverTcp : String → String → String → Answer
  /-- The 2.5 seconds for the lookup over WARP are over. -/
  timedOut : Bool

/-- The loop over the addresses of a host: IPv4 addresses, each once. -/
def collectIpv4 (ipv4Only : Bool) : List Ipv4Addr → List SocketAddr → List Ipv4Addr
  | _, [] => []
  | seen, addr :: addrs =>
    let ip := match addr.ip with
      | .v4 ip => some ip
      | .v6 ip => if ipv4Only then none else ip.toIpv4
    match ip with
    | some ip =>
      if ip ∈ seen then collectIpv4 ipv4Only seen addrs
      else ip :: collectIpv4 ipv4Only (ip :: seen) addrs
    | none => collectIpv4 ipv4Only seen addrs

/-- The loop over the DNS servers behind WARP. -/
def askServers (N : LookupAnswers) (hostname proxy : String) : Option String → List String → Answer
  | lastErr, [] => .error (lastErr.getD "WARP DNS: all servers returned no IPv4 addresses")
  | lastErr, dns :: servers => match N.dnsOverTcp hostname dns proxy with
    | .ok (ips, ttl) => if ips ≠ [] then .ok (ips, ttl) else askServers N hostname proxy lastErr servers
    | .error e => askServers N hostname proxy (some e) servers

/-- `lookup_fut`: the lookup of a request. -/
def lookupIpv4 (N : LookupAnswers) (req : ResolveRequest) : Answer :=
  match req.route with
  | .direct => do
    let addrs ← N.net.toSocketAddrs (hostPort req.hostname req.port)
    refuseIf (collectIpv4 req.ipv4Only [] addrs = []) "No IPv4 addresses resolved"
    return (collectIpv4 req.ipv4Only [] addrs, 300)
  | .warp => match req.outboundProxy with
    | none => .error "WARP route selected but no WARP proxy is configured; refusing to fall back to system DNS (would cause DNS leak)"
    | some proxy =>
      if N.timedOut then .error "WARP DNS query timed out (overall 2.5s deadline reached)"
      else askServers N req.hostname proxy none ["1.1.1.1", "8.8.8.8"]

/-- A host that is an address needs no lookup. -/
def resolveLiteral (req : ResolveRequest) : Option (Except String (List SocketAddrV4)) :=
  (parseIpAddr req.hostname).map fun ip => (rejectIpv6Ip ip req.ipv4Only).map fun ipv4 => [(ipv4, req.port)]

/-! ## Calls -/

inductive ResolvePhase where
  /-- It is the `k`-th call of the single flight of its route. -/
  | flying (k : ℕ)
  | returned (res : Except String (List SocketAddrV4))

structure ResolveCall where
  req : ResolveRequest
  phase : ResolvePhase

structure Resolver where
  cache : SelectedRoute → DnsEntries
  flight : SelectedRoute → Coalesce.State String Answer
  calls : List ResolveCall
  /-- The lookups that were made, with what the surroundings answered. -/
  lookups : List (ResolveRequest × LookupAnswers)

inductive ResolverAct where
  /-- `resolve_ipv4` up to its first wait, at a time in milliseconds. -/
  | call (req : ResolveRequest) (now : ℕ)
  | observe (i : ℕ)
  | lookup (i : ℕ) (N : LookupAnswers)
  | remove (i : ℕ)
  | publish (i : ℕ)
  /-- The single flight has returned: the result is cached and returned. -/
  | conclude (i now n : ℕ)

def Resolver.init : Resolver := ⟨fun _ => ∅, fun _ => Coalesce.init, [], []⟩

/-- A step of the single flight of a call. -/
def Resolver.fly (R : Resolver) (i : ℕ) (act : ResolveRequest → ℕ → Coalesce.Action String Answer) : Option Resolver :=
  match R.calls[i]? with
  | some ⟨req, .flying k⟩ => (Coalesce.step (R.flight req.route) (act req k)).map fun f =>
    { R with flight := Function.update R.flight req.route f }
  | _ => none

/-- A new call, once the cache has been asked. -/
def Resolver.start (X : Crates) (R : Resolver) (req : ResolveRequest) :
    Option (Except String (List SocketAddrV4)) → Resolver
  | some res => { R with calls := R.calls ++ [⟨req, .returned res⟩] }
  | none => { R with
      flight := Function.update R.flight req.route
        (Coalesce.join (R.flight req.route) (X.toLowercase req.hostname))
      calls := R.calls ++ [⟨req, .flying (R.flight req.route).calls.length⟩] }

def resolverStep (X : Crates) (R : Resolver) : ResolverAct → Option Resolver
  | .call req now => match resolveLiteral req with
    | some res => some { R with calls := R.calls ++ [⟨req, .returned res⟩] }
    | none =>
      let (res, entries) := dnsGet X (R.cache req.route) now req.hostname req.port
      some ({ R with cache := Function.update R.cache req.route entries }.start X req res)
  | .observe i => R.fly i fun _ k => .observe k
  | .lookup i N => match R.calls[i]? with
    | some ⟨req, _⟩ => (R.fly i fun _ k => .finish k (lookupIpv4 N req)).map fun R' =>
      { R' with lookups := (req, N) :: R'.lookups }
    | none => none
  | .remove i => R.fly i fun _ k => .remove k
  | .publish i => R.fly i fun _ k => .publish k
  | .conclude i now n => match R.calls[i]? with
    | some ⟨req, .flying k⟩ => match (R.flight req.route).calls[k]? with
      | some ⟨_, _, .returned result⟩ => some { R with
          cache := Function.update R.cache req.route
            (dnsInsert X (R.cache req.route) now n req.hostname result)
          calls := R.calls.set i
            ⟨req, .returned (result.map fun found => withPort req.port found.1)⟩ }
      | _ => none
    | _ => none

/-! ## What is found -/

/-- The addresses were found by a lookup that was made on the route, for a host that is the same up to letter
case. -/
def Resolver.Found (X : Crates) (R : Resolver) (route : SelectedRoute) (key : String) (ips : List Ipv4Addr) : Prop :=
  ∃ p ∈ R.lookups, p.1.route = route ∧ X.toLowercase p.1.hostname = key ∧
    ∃ ttl, lookupIpv4 p.2 p.1 = .ok (ips, ttl)

/-- What a call may return: the address that its host is, or addresses that were found for its host, each
with the port of its own request. -/
def Resolver.Answers (X : Crates) (R : Resolver) (req : ResolveRequest) (addrs : List SocketAddrV4) : Prop :=
  resolveLiteral req = some (.ok addrs) ∨
    ∃ ips, R.Found X req.route (X.toLowercase req.hostname) ips ∧ addrs = withPort req.port ips

/-- The invariant: results, cache entries and answers were found for their hosts. -/
structure Resolver.Honest (X : Crates) (R : Resolver) : Prop where
  flights : ∀ route, Coalesce.Sound (R.flight route)
  flying : ∀ (i : ℕ) (req : ResolveRequest) (k : ℕ), R.calls[i]? = some ⟨req, .flying k⟩ →
    ∃ c : Coalesce.Call String Answer, (R.flight req.route).calls[k]? = some c ∧ c.key = X.toLowercase req.hostname
  results : ∀ route (k : ℕ) (c : Coalesce.Call String Answer) ips ttl, (R.flight route).calls[k]? = some c →
    c.phase.result = some (.ok (ips, ttl)) → R.Found X route c.key ips
  cached : ∀ route key entry, (R.cache route).lookup key = some entry → entry.ips ≠ [] →
    R.Found X route key entry.ips
  answers : ∀ (i : ℕ) (req : ResolveRequest) (addrs : List SocketAddrV4),
    R.calls[i]? = some ⟨req, .returned (.ok addrs)⟩ → R.Answers X req addrs

section

variable {X : Crates} {R R' : Resolver}

theorem Resolver.Found.mono {route : SelectedRoute} {key : String} {ips : List Ipv4Addr}
    (h : R.Found X route key ips) (hsub : ∀ p ∈ R.lookups, p ∈ R'.lookups) : R'.Found X route key ips := by
  obtain ⟨p, hp, hrest⟩ := h
  exact ⟨p, hsub p hp, hrest⟩

theorem Resolver.Answers.mono {req : ResolveRequest} {addrs : List SocketAddrV4} (h : R.Answers X req addrs)
    (hsub : ∀ p ∈ R.lookups, p ∈ R'.lookups) : R'.Answers X req addrs :=
  h.imp_right fun ⟨ips, hfound, heq⟩ => ⟨ips, hfound.mono hsub, heq⟩

theorem dnsGet_cases (entries : DnsEntries) (now : ℕ) (hostname : String) (port : UInt16) :
    (∀ key entry, (dnsGet X entries now hostname port).2.lookup key = some entry →
      entries.lookup key = some entry) ∧
      ∀ addrs, (dnsGet X entries now hostname port).1 = some (.ok addrs) →
        ∃ entry, entries.lookup (X.toLowercase hostname) = some entry ∧ entry.ips ≠ [] ∧
          addrs = withPort port entry.ips := by
  unfold dnsGet
  cases hl : entries.lookup (X.toLowercase hostname) with
  | none =>
    simp only [hl]
    exact ⟨fun _ _ h => h, fun _ h => by cases h⟩
  | some entry =>
    simp only [hl]
    split_ifs with hlive hempty
    · exact ⟨fun _ _ h => h, fun _ h => by cases h⟩
    · exact ⟨fun _ _ h => h, fun addrs h => ⟨entry, rfl, hempty, by cases h; rfl⟩⟩
    · exact ⟨fun _ _ h => (Tables.lookup_erase_cases h).2, fun _ h => by cases h⟩

theorem dnsEvict_lookup {entries : DnsEntries} {now n : ℕ} {key : String} {entry : CacheEntry}
    (h : (dnsEvict entries now n).lookup key = some entry) : entries.lookup key = some entry := by
  unfold dnsEvict at h
  split_ifs at h with hfull
  · dsimp only at h
    split_ifs at h
    · exact Tables.lookup_of_lookup_foldl_erase h
    · split at h
      · exact (Tables.lookup_erase_cases h).2
      · exact h
  · exact h

/-- An entry after an insertion was there before, or has the addresses of the result. -/
theorem dnsInsert_cases {entries : DnsEntries} {now n : ℕ} {hostname key : String} {result : Answer}
    {entry : CacheEntry} (h : (dnsInsert X entries now n hostname result).lookup key = some entry)
    (hips : entry.ips ≠ []) : entries.lookup key = some entry ∨
      (key = X.toLowercase hostname ∧ ∃ ttl, result = .ok (entry.ips, ttl)) := by
  unfold dnsInsert at h
  rcases Tables.lookup_insert_cases h with ⟨rfl, rfl⟩ | ⟨-, h⟩
  · cases result with
    | ok found => exact .inr ⟨rfl, found.2, rfl⟩
    | error e => exact absurd rfl hips
  · exact .inl (dnsEvict_lookup h)

/-- A call that has its answer at once. -/
theorem Resolver.Honest.answer (h : R.Honest X) {req : ResolveRequest} {res : Except String (List SocketAddrV4)}
    (hres : ∀ addrs, res = .ok addrs → R.Answers X req addrs) :
    Honest X { R with calls := R.calls ++ [⟨req, .returned res⟩] } := by
  refine ⟨h.flights, fun i req' k hi => ?_, h.results, h.cached, fun i req' addrs hi => ?_⟩
  · rcases Parties.getElem?_append_cases hi with hi | ⟨-, hcall⟩
    · exact h.flying i req' k hi
    · cases hcall
  · rcases Parties.getElem?_append_cases hi with hi | ⟨-, hcall⟩
    · exact h.answers i req' addrs hi
    · cases hcall
      exact hres addrs rfl

/-- A call that returns. -/
theorem Resolver.Honest.returns (h : R.Honest X) (i : ℕ) {req : ResolveRequest}
    {res : Except String (List SocketAddrV4)} (hres : ∀ addrs, res = .ok addrs → R.Answers X req addrs) :
    Honest X { R with calls := R.calls.set i ⟨req, .returned res⟩ } := by
  refine ⟨h.flights, fun j req' k hj => ?_, h.results, h.cached, fun j req' addrs hj => ?_⟩
  · rcases Parties.getElem?_set_cases hj with ⟨-, hcall⟩ | ⟨-, hj⟩
    · cases hcall
    · exact h.flying j req' k hj
  · rcases Parties.getElem?_set_cases hj with ⟨-, hcall⟩ | ⟨-, hj⟩
    · cases hcall
      exact hres addrs rfl
    · exact h.answers j req' addrs hj

/-- The cache of a route may take what was found on it. -/
theorem Resolver.Honest.remember (h : R.Honest X) (route : SelectedRoute) {entries : DnsEntries}
    (hnew : ∀ key entry, entries.lookup key = some entry → entry.ips ≠ [] →
      (R.cache route).lookup key = some entry ∨ R.Found X route key entry.ips) :
    Honest X { R with cache := Function.update R.cache route entries } := by
  refine ⟨h.flights, h.flying, h.results, fun route' key entry hl hne => ?_, h.answers⟩
  by_cases hroute : route' = route
  · subst hroute
    simp only [Function.update_self] at hl
    rcases hnew key entry hl hne with hold | hfound
    · exact h.cached _ key entry hold hne
    · exact hfound
  · simp only [Function.update_of_ne hroute] at hl
    exact h.cached route' key entry hl hne

/-- A step of the single flight of a route: what a lookup gives it must have been found. -/
theorem Resolver.Honest.flight_step (h : R.Honest X) {route : SelectedRoute} {act : Coalesce.Action String Answer}
    {f : Coalesce.State String Answer} (hf : Coalesce.step (R.flight route) act = some f)
    (lookups : List (ResolveRequest × LookupAnswers)) (hsub : ∀ p ∈ R.lookups, p ∈ lookups)
    (hfinish : ∀ j d ips ttl, act = .finish j (.ok (ips, ttl)) → (R.flight route).calls[j]? = some d →
      Found X { R with lookups := lookups } route d.key ips) :
    Honest X { R with flight := Function.update R.flight route f, lookups := lookups } := by
  have hsound := h.flights route
  refine ⟨fun route' => ?_, fun i req k hi => ?_, fun route' k c ips ttl hk hres => ?_,
    fun route' key entry hl hne => (h.cached route' key entry hl hne).mono hsub,
    fun i req addrs hi => (h.answers i req addrs hi).mono hsub⟩
  · by_cases hroute : route' = route
    · subst hroute
      simpa using hsound.step hf
    · simpa [Function.update_of_ne hroute] using h.flights route'
  · obtain ⟨c, hc, hkey⟩ := h.flying i req k hi
    by_cases hroute : req.route = route
    · rw [hroute] at hc
      obtain ⟨c', hc', hkey'⟩ := Coalesce.step_key hf hc
      exact ⟨c', by simpa [hroute] using hc', hkey'.trans hkey⟩
    · exact ⟨c, by simpa [Function.update_of_ne hroute] using hc, hkey⟩
  · by_cases hroute : route' = route
    · subst hroute
      simp only [Function.update_self] at hk
      obtain ⟨j, d, hd, hdkey, hdres | ⟨rfl, hact⟩⟩ := hsound.step_result hf hk hres
      · rw [← hdkey]
        exact (h.results _ j d ips ttl hd hdres).mono hsub
      · rw [← hdkey]
        exact hfinish j d ips ttl hact hd
    · simp only [Function.update_of_ne hroute] at hk
      exact (h.results route' k c ips ttl hk hres).mono hsub

/-- A call joins the single flight of its route, under the key of its host. -/
theorem Resolver.Honest.start (h : R.Honest X) (req : ResolveRequest) : Honest X (R.start X req none) := by
  have hjoin : Coalesce.step (R.flight req.route) (.join (X.toLowercase req.hostname)) =
      some (Coalesce.join (R.flight req.route) (X.toLowercase req.hostname)) := rfl
  obtain ⟨role, hcalls⟩ := Coalesce.join_calls (R.flight req.route) (X.toLowercase req.hostname)
  have hflight := h.flight_step hjoin R.lookups (fun _ hp => hp) (by simp)
  refine ⟨hflight.flights, fun i req' k hi => ?_, hflight.results, hflight.cached, fun i req' addrs hi => ?_⟩
  · rcases Parties.getElem?_append_cases hi with hi | ⟨-, hcall⟩
    · exact hflight.flying i req' k hi
    · cases hcall
      refine ⟨⟨X.toLowercase req.hostname, role, .pending⟩, ?_, rfl⟩
      simp [Resolver.start, hcalls]
  · rcases Parties.getElem?_append_cases hi with hi | ⟨-, hcall⟩
    · exact hflight.answers i req' addrs hi
    · cases hcall

/-- A step of the single flight of a call. -/
theorem Resolver.Honest.fly (h : R.Honest X) {i : ℕ} {act : ResolveRequest → ℕ → Coalesce.Action String Answer}
    (hs : R.fly i act = some R') (lookups : List (ResolveRequest × LookupAnswers))
    (hsub : ∀ p ∈ R.lookups, p ∈ lookups)
    (hfinish : ∀ req k j res, R.calls[i]? = some ⟨req, .flying k⟩ → act req k = .finish j res →
      j = k ∧ ∃ N, res = lookupIpv4 N req ∧ (req, N) ∈ lookups) :
    Honest X { R' with lookups := lookups } := by
  unfold Resolver.fly at hs
  split at hs
  · next req k hi =>
    obtain ⟨f, hf, rfl⟩ := Option.map_eq_some_iff.mp hs
    refine h.flight_step hf lookups hsub fun j d ips ttl hact hd => ?_
    -- the call asks under the key of its host
    obtain ⟨rfl, N, hN, hmem⟩ := hfinish req k j _ hi hact
    obtain ⟨c, hc, hkey⟩ := h.flying i req j hi
    rw [hd] at hc
    obtain rfl := Option.some.inj hc
    exact ⟨(req, N), hmem, rfl, hkey.symm, ttl, hN.symm⟩
  · cases hs

theorem Resolver.fly_lookups {i : ℕ} {act : ResolveRequest → ℕ → Coalesce.Action String Answer}
    (hs : R.fly i act = some R') : R'.lookups = R.lookups := by
  unfold Resolver.fly at hs
  split at hs
  · obtain ⟨f, -, rfl⟩ := Option.map_eq_some_iff.mp hs
    rfl
  · cases hs

/-- A step of the single flight that is not a lookup. -/
theorem Resolver.Honest.fly_on (h : R.Honest X) {i : ℕ} {act : ResolveRequest → ℕ → Coalesce.Action String Answer}
    (hs : R.fly i act = some R') (hact : ∀ req k j res, act req k ≠ .finish j res) : R'.Honest X := by
  have hfly := h.fly hs R.lookups (fun _ hp => hp) fun req k j res _ hfinish => absurd hfinish (hact req k j res)
  rwa [← Resolver.fly_lookups hs] at hfly

theorem Resolver.Honest.step {a : ResolverAct} (h : R.Honest X) (hs : resolverStep X R a = some R') :
    R'.Honest X := by
  cases a with
  | call req now =>
    simp only [resolverStep] at hs
    split at hs
    · next res hlit =>
      obtain rfl := Option.some.inj hs
      exact h.answer fun addrs hres => .inl (hlit.trans (congrArg some hres))
    · obtain rfl := Option.some.inj hs
      obtain ⟨hsame, hhit⟩ := dnsGet_cases (X := X) (R.cache req.route) now req.hostname req.port
      generalize dnsGet X (R.cache req.route) now req.hostname req.port = got at hsame hhit
      obtain ⟨res, entries⟩ := got
      have hcache := h.remember req.route fun key entry hl _ => .inl (hsame key entry hl)
      cases res with
      | some res =>
        refine hcache.answer fun addrs hres => ?_
        obtain ⟨entry, hentry, hne, rfl⟩ := hhit addrs (congrArg some hres)
        exact .inr ⟨entry.ips, h.cached _ _ entry hentry hne, rfl⟩
      | none => exact hcache.start req
  | observe i => exact h.fly_on hs (by simp)
  | lookup i N =>
    simp only [resolverStep] at hs
    split at hs
    · next req phase hi =>
      obtain ⟨R₁, hfly, rfl⟩ := Option.map_eq_some_iff.mp hs
      refine h.fly hfly _ (fun p hp => ?_) fun req' k j res hi' hact => ?_
      · rw [Resolver.fly_lookups hfly]
        exact List.mem_cons_of_mem _ hp
      · rw [hi] at hi'
        obtain ⟨rfl, -⟩ := ResolveCall.mk.inj (Option.some.inj hi')
        obtain ⟨rfl, rfl⟩ := Coalesce.Action.finish.inj hact
        exact ⟨rfl, N, rfl, List.mem_cons_self⟩
    · cases hs
  | remove i => exact h.fly_on hs (by simp)
  | publish i => exact h.fly_on hs (by simp)
  | conclude i now n =>
    simp only [resolverStep] at hs
    split at hs
    · next req k hi =>
      split at hs
      · next key role result hk =>
        obtain rfl := Option.some.inj hs
        obtain ⟨c, hc, hkey⟩ := h.flying i req k hi
        rw [hk] at hc
        obtain rfl := Option.some.inj hc
        have hfound : ∀ ips ttl, result = .ok (ips, ttl) → R.Found X req.route (X.toLowercase req.hostname) ips := by
          rintro ips ttl rfl
          rw [← hkey]
          exact h.results req.route k _ ips ttl hk rfl
        have hnew : ∀ key' entry, (dnsInsert X (R.cache req.route) now n req.hostname result).lookup key' = some entry →
            entry.ips ≠ [] → (R.cache req.route).lookup key' = some entry ∨ R.Found X req.route key' entry.ips := by
          intro key' entry hl hne
          rcases dnsInsert_cases hl hne with hl | ⟨rfl, ttl, hresult⟩
          · exact .inl hl
          · exact .inr (hfound entry.ips ttl hresult)
        refine (h.remember req.route hnew).returns i fun addrs hres => ?_
        cases result with
        | ok found =>
          cases hres
          exact .inr ⟨found.1, hfound found.1 found.2 rfl, rfl⟩
        | error e => cases hres
      · cases hs
    · cases hs

/-! ## Lookups and what they give -/

/-- The surroundings gave the address for the host of the request. -/
def LookupAnswers.Gives (N : LookupAnswers) (req : ResolveRequest) (ip : Ipv4Addr) : Prop :=
  match req.route with
  | .direct => ∃ addrs, N.net.toSocketAddrs (hostPort req.hostname req.port) = .ok addrs ∧
    ∃ addr ∈ addrs, addr.ip = .v4 ip ∨ ∃ ip6, addr.ip = .v6 ip6 ∧ ip6.toIpv4 = some ip
  | .warp => ∃ dns proxy ips ttl, N.dnsOverTcp req.hostname dns proxy = .ok (ips, ttl) ∧ ip ∈ ips

theorem collectIpv4_mem {ipv4Only : Bool} {seen : List Ipv4Addr} {addrs : List SocketAddr} {ip : Ipv4Addr}
    (h : ip ∈ collectIpv4 ipv4Only seen addrs) :
    ∃ addr ∈ addrs, addr.ip = .v4 ip ∨ ∃ ip6, addr.ip = .v6 ip6 ∧ ip6.toIpv4 = some ip := by
  induction addrs generalizing seen with
  | nil => exact absurd h List.not_mem_nil
  | cons addr addrs ih =>
    have hrest : ∀ {seen}, ip ∈ collectIpv4 ipv4Only seen addrs →
        ∃ addr' ∈ addr :: addrs, addr'.ip = .v4 ip ∨ ∃ ip6, addr'.ip = .v6 ip6 ∧ ip6.toIpv4 = some ip := by
      intro seen hmem
      obtain ⟨addr', haddr', hip⟩ := ih hmem
      exact ⟨addr', List.mem_cons_of_mem _ haddr', hip⟩
    simp only [collectIpv4] at h
    split at h
    · next ip' hip =>
      have hself : addr.ip = .v4 ip' ∨ ∃ ip6, addr.ip = .v6 ip6 ∧ ip6.toIpv4 = some ip' := by
        split at hip
        · next ip4 haddr => exact .inl (haddr.trans (congrArg _ (Option.some.inj hip)))
        · next ip6 haddr =>
          split_ifs at hip
          exact .inr ⟨ip6, haddr, hip⟩
      split_ifs at h
      · exact hrest h
      · rcases List.mem_cons.mp h with rfl | h
        · exact ⟨addr, List.mem_cons_self, hself⟩
        · exact hrest h
    · exact hrest h

theorem askServers_ok {N : LookupAnswers} {hostname proxy : String} {lastErr : Option String}
    {servers : List String} {found : List Ipv4Addr × ℕ}
    (h : askServers N hostname proxy lastErr servers = .ok found) :
    ∃ dns, N.dnsOverTcp hostname dns proxy = .ok found := by
  induction servers generalizing lastErr with
  | nil => cases h
  | cons dns servers ih =>
    simp only [askServers] at h
    split at h
    · next ips ttl hdns =>
      split_ifs at h
      · exact ⟨dns, hdns.trans h⟩
      · exact ih h
    · exact ih h

/-- **A lookup finds only addresses of its host.** -/
theorem lookupIpv4_gives {N : LookupAnswers} {req : ResolveRequest} {ips : List Ipv4Addr} {ttl : ℕ}
    (h : lookupIpv4 N req = .ok (ips, ttl)) : ∀ ip ∈ ips, N.Gives req ip := by
  intro ip hip
  unfold lookupIpv4 at h
  unfold LookupAnswers.Gives
  cases hroute : req.route with
  | direct =>
    simp only [hroute, bind_ok] at h
    obtain ⟨addrs, haddrs, -, -, h⟩ := h
    obtain ⟨rfl, -⟩ := Prod.mk.inj (Except.ok.inj h)
    exact ⟨addrs, haddrs, collectIpv4_mem hip⟩
  | warp =>
    simp only [hroute] at h
    split at h
    · cases h
    · next proxy _ =>
      split_ifs at h
      obtain ⟨dns, hdns⟩ := askServers_ok h
      exact ⟨dns, proxy, ips, ttl, hdns, hip⟩

/-! ## Runs -/

/-- A key has at most one call at work. Every waiter has a leader of its key; it returns what that one returned,
and gets it when it looks. No entry of the map belongs to a leader that has finished, and when a leader removes
its key there is none for it. -/
structure Coalesced (s : Coalesce.State String Answer) : Prop where
  one : ∀ (i j : ℕ) (c d : Coalesce.Call String Answer) (ch ch' : ℕ), s.calls[i]? = some c →
    s.calls[j]? = some d → c.role = .leader ch → d.role = .leader ch' → c.key = d.key →
      c.phase.Entered → d.phase.Entered → i = j
  waiter : ∀ (i : ℕ) (c : Coalesce.Call String Answer) (ch : ℕ), s.calls[i]? = some c → c.role = .waiter ch →
    ∃ (j : ℕ) (d : Coalesce.Call String Answer), s.calls[j]? = some d ∧ d.role = .leader ch ∧ d.key = c.key ∧
      (∀ res, c.phase = .returned res → d.phase = .returned res) ∧
      ∀ res, d.phase = .returned res → c.phase = .pending → Coalesce.step s (.observe i) =
        some { s with calls := s.calls.set i { c with phase := .returned res } }
  gone : ∀ (i : ℕ) (c : Coalesce.Call String Answer) (ch : ℕ), s.calls[i]? = some c → c.role = .leader ch →
    ¬ c.phase.Entered → ∀ key, s.inflight.lookup key ≠ some ch
  removed : ∀ i s', Coalesce.step s (.remove i) = some s' →
    ∃ c, s.calls[i]? = some c ∧ s'.inflight.lookup c.key = none

theorem coalesced_of_sound {s : Coalesce.State String Answer} (h : Coalesce.Sound s) : Coalesced s where
  one _ _ _ _ _ _ hi hj hc hd hkey hcp hdp := h.leader_unique hi hj hc hd hkey hcp hdp
  waiter i c ch hi hc := by
    obtain ⟨j, d, hj, hd, hkey, hres⟩ := h.joined i c ch hi hc
    refine ⟨j, d, hj, hd, hkey, fun res hret => ?_, fun res hdres hpending => ?_⟩
    · obtain ⟨k, e, hk, he, -, heres⟩ := h.waiter_result hi hc hret
      obtain rfl := h.own j k d e ch hj hk hd he
      rw [hj] at hk
      obtain rfl := Option.some.inj hk
      exact heres
    · obtain ⟨key, role, phase⟩ := c
      dsimp only at hc hpending
      subst hc hpending
      exact h.observe_returned hi hj hd hdres
  gone _ _ _ hi hc hp := h.removed_gone hi hc hp
  removed _ _ hs := Coalesce.remove_gone hs

theorem Resolver.init_honest : Resolver.init.Honest X where
  flights _ := Coalesce.sound_init
  flying _ _ _ h := by cases h
  results _ _ _ _ _ h := by cases h
  cached _ _ _ h := by cases h
  answers _ _ _ h := by cases h

/-- **Coalescing**, for calls that join any keys in any order, and so for the flights of the resolver: a key has
one lookup, everyone that joined it gets its result, and its key goes when it ends. Every call of
`resolve_ipv4` gets the address that its host is, or addresses that a lookup gave for its host, written in
the same or in other letters, each with the port of its own request. -/
theorem resolveIpv4_coalesced (X : Crates) :
    (∀ as s, Run.exec Coalesce.step Coalesce.init as = some s → Coalesced s) ∧
    (∀ as R, Run.exec (resolverStep X) .init as = some R → (∀ route, Coalesced (R.flight route)) ∧
      ∀ c ∈ R.calls, ∀ addrs, c.phase = .returned (.ok addrs) → R.Answers X c.req addrs) ∧
    ∀ N req ips ttl, lookupIpv4 N req = .ok (ips, ttl) → ∀ ip ∈ ips, N.Gives req ip := by
  refine ⟨fun as s h => coalesced_of_sound (Coalesce.sound_of_exec h), fun as R h => ?_,
    fun N req ips ttl h => lookupIpv4_gives h⟩
  have hhonest : R.Honest X := Run.exec_invariant (fun _ _ _ hI => hI.step) Resolver.init_honest h
  refine ⟨fun route => coalesced_of_sound (hhonest.flights route), fun c hc addrs haddrs => ?_⟩
  obtain ⟨i, hi⟩ := List.getElem?_of_mem hc
  obtain ⟨req, phase⟩ := c
  dsimp only at haddrs
  subst haddrs
  exact hhonest.answers i req addrs hi

end

/-! ## Two callers of one lookup -/

/-- A network in which every name has one address. -/
def oneAddress : LookupAnswers where
  net := {
    resolve := fun _ port _ => .ok [(.new 93 184 216 34, port)]
    lookupHost := fun _ port => .ok [⟨.v4 (.new 93 184 216 34), port⟩]
    accepts := fun _ => .ok ()
    connect := fun _ _ _ => .ok ()
    deadline := fun _ => false
    socksConnect := fun _ => .ok ()
    socksAssociate := fun _ _ => .ok ⟨.v4 .localhost, 40001⟩
    bindUdp := .ok ()
    udpConnect := fun _ => .ok () }
  dnsOverTcp _ _ _ := .ok ([.new 93 184 216 34], 60)
  timedOut := false

/-- Two calls for one host, in other letters and with another port: the second waits for the lookup of the
first. -/
def joinedCalls : List ResolverAct :=
  [.call ⟨"example.com", 443, .direct, true, none⟩ 0, .call ⟨"Example.COM", 80, .direct, true, none⟩ 1,
    .lookup 0 oneAddress, .remove 0, .publish 0, .observe 1, .conclude 0 2 0, .conclude 1 3 0]

def joinedEnd : Resolver := (Run.exec (resolverStep Sample.crates) .init joinedCalls).get (by decide)

/-- The addresses that a call has returned. -/
def ResolveCall.addresses (c : ResolveCall) : Option (List SocketAddrV4) :=
  match c.phase with
  | .returned (.ok addrs) => some addrs
  | _ => none

theorem resolveIpv4_coalesced_joined :
    joinedEnd.calls.map ResolveCall.addresses =
      [some [(.new 93 184 216 34, 443)], some [(.new 93 184 216 34, 80)]] ∧ joinedEnd.lookups.length = 1 ∧
    (∀ route, Coalesced (joinedEnd.flight route)) ∧
    ∀ c ∈ joinedEnd.calls, ∀ addrs, c.phase = .returned (.ok addrs) →
      joinedEnd.Answers Sample.crates c.req addrs :=
  ⟨by decide, by decide, (resolveIpv4_coalesced Sample.crates).2.1 joinedCalls _ (Option.some_get _).symm⟩

end RXCore
