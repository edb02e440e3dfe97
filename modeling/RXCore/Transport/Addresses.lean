import RXCore.Transport.Resolver

/-!
# Answers with addresses

`resolve_ipv4` on the engine's one thread, where a call may be dropped while it waits, and `dial_tcp` behind a proxy
with its panic apart. A cache stands for a failure by an entry without addresses.

* `Engaged`, `engagedStep`: the resolver with calls that may be dropped, whatever is in its caches;
* `Engaged.Filled`: no success without addresses is published, held or returned; **`Engaged.Filled.step`**;
* `Resolver.answers_ne_nil`: the same of the resolver on any number of threads, by what its answers are;
* `retryByName`, `dialTcpOrPanic`: the attempts of `dial_tcp`, of which the last error is unwrapped;
* **`resolveIpv4_ne_nil`**: the claims about both.
-/

set_option autoImplicit false

namespace RXCore

open SingleFlight (Answer)

/-! ## Lookups -/

/-- A success has addresses. -/
def Full (a : Answer) : Prop := ∀ ips ttl, a = .ok (ips, ttl) → ips ≠ []

theorem askServers_full {N : LookupAnswers} {hostname proxy : String} (lastErr : Option String)
    (servers : List String) : Full (askServers N hostname proxy lastErr servers) := by
  induction servers generalizing lastErr with
  | nil => exact fun _ _ h => nomatch h
  | cons dns servers ih =>
    intro ips ttl h
    simp only [askServers] at h
    split at h
    · split_ifs at h with hne
      · obtain ⟨rfl, -⟩ := Prod.mk.inj (Except.ok.inj h)
        exact hne
      · exact ih lastErr ips ttl h
    · exact ih _ ips ttl h

/-- **A lookup gives no success without addresses.** -/
theorem lookupIpv4_full (N : LookupAnswers) (req : ResolveRequest) : Full (lookupIpv4 N req) := by
  intro ips ttl h
  unfold lookupIpv4 at h
  cases hroute : req.route with
  | direct =>
    simp only [hroute, bind_ok] at h
    obtain ⟨addrs, -, u, hne, h⟩ := h
    obtain ⟨rfl, -⟩ := Prod.mk.inj (Except.ok.inj h)
    exact refuseIf_ok.mp hne
  | warp =>
    simp only [hroute] at h
    split at h
    · cases h
    · split_ifs at h
      exact askServers_full _ _ ips ttl h

/-- A host that is an address is one address. -/
theorem resolveLiteral_ne_nil {req : ResolveRequest} {addrs : List SocketAddrV4}
    (h : resolveLiteral req = some (.ok addrs)) : addrs ≠ [] := by
  obtain ⟨ip, -, h⟩ := Option.map_eq_some_iff.mp h
  cases hip : rejectIpv6Ip ip req.ipv4Only with
  | error e =>
    rw [hip] at h
    cases h
  | ok ipv4 =>
    rw [hip] at h
    obtain rfl := Except.ok.inj h
    exact List.cons_ne_nil _ _

theorem withPort_ne_nil {port : UInt16} {ips : List Ipv4Addr} : withPort port ips ≠ [] ↔ ips ≠ [] :=
  not_congr List.map_eq_nil_iff

/-- **A cache returns no success without addresses**, whatever is in it. -/
theorem dnsGet_ne_nil {X : Crates} {entries : DnsEntries} {now : ℕ} {hostname : String} {port : UInt16}
    {addrs : List SocketAddrV4} (h : (dnsGet X entries now hostname port).1 = some (.ok addrs)) : addrs ≠ [] := by
  obtain ⟨entry, -, hne, rfl⟩ := (dnsGet_cases (X := X) entries now hostname port).2 addrs h
  exact withPort_ne_nil.mpr hne

/-! ## One thread -/

/-- The resolver on the engine's one thread. -/
structure Engaged where
  cache : SelectedRoute → DnsEntries
  flight : SelectedRoute → SingleFlight.State
  calls : List ResolveCall

inductive EngagedAct where
  /-- The cache of a route has any contents. -/
  | cached (route : SelectedRoute) (entries : DnsEntries)
  /-- `resolve_ipv4` up to its first wait, at a time in milliseconds. -/
  | call (req : ResolveRequest) (now : ℕ)
  | poll (i : ℕ)
  | lookup (i : ℕ) (N : LookupAnswers)
  /-- The call is dropped while it waits. -/
  | drop (i : ℕ)
  /-- The single flight has returned: the result is cached and returned. -/
  | conclude (i now n : ℕ)

def Engaged.init (cache : SelectedRoute → DnsEntries) : Engaged := ⟨cache, fun _ => SingleFlight.init, []⟩

/-- A step of the single flight of a call. -/
def Engaged.fly (R : Engaged) (i : ℕ) (act : ResolveRequest → ℕ → SingleFlight.Action) : Option Engaged :=
  match R.calls[i]? with
  | some ⟨req, .flying k⟩ => (SingleFlight.step (R.flight req.route) (act req k)).map fun f =>
    { R with flight := Function.update R.flight req.route f }
  | _ => none

/-- A new call, once the cache has been asked. -/
def Engaged.start (X : Crates) (R : Engaged) (req : ResolveRequest) :
    Option (Except String (List SocketAddrV4)) → Option Engaged
  | some res => some { R with calls := R.calls ++ [⟨req, .returned res⟩] }
  | none => (SingleFlight.step (R.flight req.route) (.call (X.toLowercase req.hostname))).map fun f => { R with
      flight := Function.update R.flight req.route f
      calls := R.calls ++ [⟨req, .flying (R.flight req.route).callers.length⟩] }

def engagedStep (X : Crates) (R : Engaged) : EngagedAct → Option Engaged
  | .cached route entries => some { R with cache := Function.update R.cache route entries }
  | .call req now => match resolveLiteral req with
    | some res => some { R with calls := R.calls ++ [⟨req, .returned res⟩] }
    | none =>
      let (res, entries) := dnsGet X (R.cache req.route) now req.hostname req.port
      { R with cache := Function.update R.cache req.route entries }.start X req res
  | .poll i => R.fly i fun _ k => .poll k
  | .lookup i N => R.fly i fun req k => .finish k (lookupIpv4 N req)
  | .drop i => R.fly i fun _ k => .drop k
  | .conclude i now n => match R.calls[i]? with
    | some ⟨req, .flying k⟩ => match (R.flight req.route).callers[k]? with
      | some ⟨_, _, .returned result⟩ => some { R with
          cache := Function.update R.cache req.route (dnsInsert X (R.cache req.route) now n req.hostname result)
          calls := R.calls.set i ⟨req, .returned (result.map fun found => withPort req.port found.1)⟩ }
      | _ => none
    | _ => none

/-! ## Nothing without addresses -/

/-- What is published on the channels of a single flight, and what its callers have got, has addresses. -/
structure FlightFilled (f : SingleFlight.State) : Prop where
  channels : ∀ c ∈ f.channels, ∀ a, c.value = some a → Full a
  callers : ∀ c ∈ f.callers, ∀ a, c.phase = .returned a → Full a

/-- The results of the single flights and of the calls have addresses. Nothing is said of the caches. -/
structure Engaged.Filled (R : Engaged) : Prop where
  flights : ∀ route, FlightFilled (R.flight route)
  calls : ∀ c ∈ R.calls, ∀ addrs, c.phase = .returned (.ok addrs) → addrs ≠ []

section

variable {X : Crates} {R R' : Engaged} {f f' : SingleFlight.State}

/-- What a caller sees on a channel. -/
theorem observe_full {c : SingleFlight.Channel} (h : ∀ a, c.value = some a → Full a) {a : Answer}
    (ha : SingleFlight.observe c = .returned a) : Full a := by
  unfold SingleFlight.observe at ha
  split at ha
  · next res hres =>
    obtain rfl := SingleFlight.Phase.returned.inj ha
    exact h _ hres
  · split_ifs at ha
    obtain rfl := SingleFlight.Phase.returned.inj ha
    exact fun _ _ h => nomatch h

/-- A caller takes its next phase. -/
theorem FlightFilled.set (h : FlightFilled f) {i : ℕ} {c : SingleFlight.Caller} {p : SingleFlight.Phase}
    (hp : ∀ a, p = .returned a → Full a) :
    ∀ d ∈ SingleFlight.setPhase f i c p, ∀ a, d.phase = .returned a → Full a := by
  intro d hd a ha
  rcases List.mem_or_eq_of_mem_set hd with hd | rfl
  · exact h.callers d hd a ha
  · exact hp a ha

/-- **A step of a single flight** whose lookup gives addresses. -/
theorem FlightFilled.step (h : FlightFilled f) {act : SingleFlight.Action} (hs : SingleFlight.step f act = some f')
    (hact : ∀ i res, act = .finish i res → Full res) : FlightFilled f' := by
  cases act with
  | call key =>
    simp only [SingleFlight.step, SingleFlight.call] at hs
    split at hs
    · obtain ⟨c, hc, hs⟩ := Option.bind_eq_some_iff.mp hs
      obtain rfl := Option.some.inj hs
      refine ⟨h.channels, fun d hd a ha => ?_⟩
      rcases List.mem_append.mp hd with hd | hd
      · exact h.callers d hd a ha
      · obtain rfl := List.mem_singleton.mp hd
        exact observe_full (h.channels c (List.mem_of_getElem? hc)) ha
    · obtain rfl := Option.some.inj hs
      refine ⟨fun c hc a ha => ?_, fun d hd a ha => ?_⟩
      · rcases List.mem_append.mp hc with hc | hc
        · exact h.channels c hc a ha
        · obtain rfl := List.mem_singleton.mp hc
          cases ha
      · rcases List.mem_append.mp hd with hd | hd
        · exact h.callers d hd a ha
        · obtain rfl := List.mem_singleton.mp hd
          cases ha
  | poll i =>
    simp only [SingleFlight.step] at hs
    split at hs
    · obtain ⟨c, hc, hs⟩ := Option.bind_eq_some_iff.mp hs
      obtain rfl := Option.some.inj hs
      exact ⟨h.channels, h.set fun a ha => observe_full (h.channels c (List.mem_of_getElem? hc)) ha⟩
    · cases hs
  | finish i res =>
    obtain ⟨key, ch, -, rfl⟩ := SingleFlight.finish_cases hs
    have hfull := hact i res rfl
    refine ⟨fun c hc a ha => ?_, h.set fun a ha => SingleFlight.Phase.returned.inj ha ▸ hfull⟩
    rcases List.mem_or_eq_of_mem_set hc with hc | rfl
    · exact h.channels c hc a ha
    · exact Option.some.inj ha ▸ hfull
  | drop i =>
    simp only [SingleFlight.step] at hs
    split at hs
    · next key ch hi =>
      obtain rfl := Option.some.inj hs
      refine ⟨fun c hc a ha => ?_, h.set fun a ha => by cases ha⟩
      -- a channel that loses its sender keeps its value
      obtain ⟨j, hj⟩ := List.mem_iff_getElem?.mp hc
      rw [List.getElem?_modify] at hj
      obtain ⟨d, hd, rfl⟩ := Option.map_eq_some_iff.mp hj
      refine h.channels d (List.mem_of_getElem? hd) a ?_
      split_ifs at ha
      · exact ha
      · exact ha
    · obtain rfl := Option.some.inj hs
      exact ⟨h.channels, h.set fun a ha => by cases ha⟩
    · cases hs

theorem Engaged.init_filled (cache : SelectedRoute → DnsEntries) : (Engaged.init cache).Filled where
  flights _ := ⟨fun _ hc => absurd hc List.not_mem_nil, fun _ hc => absurd hc List.not_mem_nil⟩
  calls _ hc := absurd hc List.not_mem_nil

/-- One single flight is in another state. -/
theorem Engaged.Filled.update (h : R.Filled) (route : SelectedRoute) (hf : FlightFilled f) (r : SelectedRoute) :
    FlightFilled (Function.update R.flight route f r) := by
  by_cases hr : r = route
  · subst hr
    rw [Function.update_self]
    exact hf
  · rw [Function.update_of_ne hr]
    exact h.flights r

theorem Engaged.Filled.fly (h : R.Filled) {i : ℕ} {act : ResolveRequest → ℕ → SingleFlight.Action}
    (hs : R.fly i act = some R') (hact : ∀ req k j res, act req k = .finish j res → Full res) : R'.Filled := by
  unfold Engaged.fly at hs
  split at hs
  · next req k hi =>
    obtain ⟨f, hf, rfl⟩ := Option.map_eq_some_iff.mp hs
    exact ⟨h.update req.route ((h.flights req.route).step hf (hact req k)), h.calls⟩
  · cases hs

/-- A call that has returned at once. -/
theorem Engaged.Filled.answered (h : R.Filled) {c : ResolveCall}
    (hc : ∀ addrs, c.phase = .returned (.ok addrs) → addrs ≠ []) :
    ∀ d ∈ R.calls ++ [c], ∀ addrs, d.phase = .returned (.ok addrs) → addrs ≠ [] := by
  intro d hd addrs hret
  rcases List.mem_append.mp hd with hd | hd
  · exact h.calls d hd addrs hret
  · obtain rfl := List.mem_singleton.mp hd
    exact hc addrs hret

/-- **A step of the resolver** publishes and returns no success without addresses. -/
theorem Engaged.Filled.step (h : R.Filled) {a : EngagedAct} (hs : engagedStep X R a = some R') : R'.Filled := by
  cases a with
  | cached route entries =>
    obtain rfl := Option.some.inj hs
    exact ⟨h.flights, h.calls⟩
  | call req now =>
    simp only [engagedStep] at hs
    split at hs
    · next res hlit =>
      obtain rfl := Option.some.inj hs
      refine ⟨h.flights, h.answered fun addrs hret => ?_⟩
      obtain rfl := ResolvePhase.returned.inj hret
      exact resolveLiteral_ne_nil hlit
    · cases hget : (dnsGet X (R.cache req.route) now req.hostname req.port).1 with
      | some res =>
        rw [hget] at hs
        obtain rfl := Option.some.inj hs
        refine ⟨h.flights, h.answered fun addrs hret => ?_⟩
        obtain rfl := ResolvePhase.returned.inj hret
        exact dnsGet_ne_nil hget
      | none =>
        rw [hget] at hs
        obtain ⟨f, hf, rfl⟩ := Option.map_eq_some_iff.mp hs
        have hstep := (h.flights req.route).step hf fun _ _ h => nomatch h
        exact ⟨h.update req.route hstep, h.answered fun _ hret => nomatch hret⟩
  | poll i => exact h.fly hs fun _ _ _ _ h => nomatch h
  | lookup i N =>
    exact h.fly hs fun req k j res hres => (SingleFlight.Action.finish.inj hres).2 ▸ lookupIpv4_full N req
  | drop i => exact h.fly hs fun _ _ _ _ h => nomatch h
  | conclude i now n =>
    simp only [engagedStep] at hs
    split at hs
    · next req k hi =>
      split at hs
      · next key role result hk =>
        obtain rfl := Option.some.inj hs
        refine ⟨h.flights, fun d hd addrs hret => ?_⟩
        rcases List.mem_or_eq_of_mem_set hd with hd | rfl
        · exact h.calls d hd addrs hret
        · have hfull := (h.flights req.route).callers _ (List.mem_of_getElem? hk) result rfl
          cases result with
          | error e => cases hret
          | ok found =>
            obtain rfl := Except.ok.inj (ResolvePhase.returned.inj hret)
            exact withPort_ne_nil.mpr (hfull found.1 found.2 rfl)
      · cases hs
    · cases hs

end

/-! ## Any number of threads -/

/-- **What a call of the resolver may return** has addresses: they are the one that its host is, or were found. -/
theorem Resolver.answers_ne_nil {X : Crates} {R : Resolver} {req : ResolveRequest} {addrs : List SocketAddrV4}
    (h : R.Answers X req addrs) : addrs ≠ [] := by
  rcases h with hlit | ⟨ips, ⟨p, -, -, -, ttl, hfound⟩, rfl⟩
  · exact resolveLiteral_ne_nil hlit
  · exact withPort_ne_nil.mpr (lookupIpv4_full _ _ ips ttl hfound)

/-! ## The proxy of a connection -/

/-- The attempts of `dial_tcp` that leave the destination to the proxy; without an attempt there is no error to
unwrap. -/
def retryByName (A : Answers) (proxy : String) (bindIp : Option String) :
    Option String → List (ℕ × SocketAddrV4) → Option (Except String TcpPeer)
  | lastErr, [] => lastErr.map .error
  | _, (n, addr) :: rest => match A.connect n addr bindIp with
    | .error e => retryByName A proxy bindIp (some e) rest
    | .ok () => some ((A.socksConnect 0).map fun _ => .socks proxy addr)

/-- `dial_tcp` through a proxy; `none` is its panic. -/
def dialTcpOrPanic (A : Answers) (ipv4Only : Bool) (destHost : String) (destPort : UInt16) (bindIp : Option String)
    (proxyAddr : String) : Option (Except String TcpPeer) :=
  match parseEndpoint proxyAddr 1080 with
  | .error e => some (.error e)
  | .ok (proxyHost, proxyPort) => match A.resolve proxyHost proxyPort .direct with
    | .error e => some (.error e)
    | .ok proxyAddrs => match destIpsForProxy A ipv4Only destHost destPort with
      | .error e => some (.error e)
      | .ok resolvedDestIps =>
        if resolvedDestIps = [] then
          retryByName A proxyAddr bindIp none ([1, 2, 3].flatMap fun n => proxyAddrs.map fun a => (n, a))
        else some (dialSocks A proxyAddr proxyAddrs bindIp 0 none resolvedDestIps)

section

variable {A : Answers} {proxy : String} {bindIp : Option String}

theorem dialSocksByName_eq (lastErr : Option String) (attempts : List (ℕ × SocketAddrV4)) :
    dialSocksByName A proxy bindIp lastErr attempts = (retryByName A proxy bindIp lastErr attempts).getD
      (.error "called `Option::unwrap()` on a `None` value") := by
  induction attempts generalizing lastErr with
  | nil => cases lastErr <;> rfl
  | cons attempt rest ih =>
    rw [dialSocksByName, retryByName]
    cases A.connect attempt.1 attempt.2 bindIp with
    | error e => exact ih (some e)
    | ok _ => rfl

/-- **`dial_tcp` with its panic apart** is `dial_tcp`. -/
theorem dialTcp_eq (A : Answers) (ipv4Only : Bool) (destHost : String) (destPort : UInt16) (bindIp : Option String)
    (proxyAddr : String) : dialTcp A ipv4Only destHost destPort bindIp (some proxyAddr) =
      (dialTcpOrPanic A ipv4Only destHost destPort bindIp proxyAddr).getD
        (.error "called `Option::unwrap()` on a `None` value") := by
  rw [dialTcpOrPanic, dialTcp]
  dsimp only
  cases parseEndpoint proxyAddr 1080 with
  | error e => rfl
  | ok endpoint =>
    change (A.resolve endpoint.1 endpoint.2 .direct >>= fun proxyAddrs => _) = _
    dsimp only
    cases A.resolve endpoint.1 endpoint.2 .direct with
    | error e => rfl
    | ok proxyAddrs =>
      change (destIpsForProxy A ipv4Only destHost destPort >>= fun resolvedDestIps => _) = _
      dsimp only
      cases destIpsForProxy A ipv4Only destHost destPort with
      | error e => rfl
      | ok resolvedDestIps =>
        change (if resolvedDestIps = [] then _ else _) = _
        dsimp only
        split_ifs
        · exact dialSocksByName_eq none _
        · rfl

/-- An attempt leaves an error, or ends the loop. -/
theorem retryByName_isSome {lastErr : Option String} {attempts : List (ℕ × SocketAddrV4)}
    (h : lastErr.isSome ∨ attempts ≠ []) : (retryByName A proxy bindIp lastErr attempts).isSome := by
  induction attempts generalizing lastErr with
  | nil =>
    rw [retryByName, Option.isSome_map]
    exact h.resolve_right fun h => h rfl
  | cons attempt rest ih =>
    rw [retryByName]
    split
    · exact ih (.inl rfl)
    · rfl

/-- What `dial_tcp` is answered was returned by calls of `resolve_ipv4`. -/
def Answers.Resolved (A : Answers) (X : Crates) : Prop :=
  ∀ host port route addrs, A.resolve host port route = .ok addrs →
    ∃ cache as R, Run.exec (engagedStep X) (.init cache) as = some R ∧
      ∃ c ∈ R.calls, c.req.hostname = host ∧ c.req.port = port ∧ c.req.route = route ∧ c.phase = .returned (.ok addrs)

/-- **`resolve_ipv4` returns no success without addresses**: on the engine's thread, for any contents of the caches at
any time and whatever is in flight, with calls that are dropped; and on any number of threads. So the addresses of the
proxy in `dial_tcp` are not empty, and it does not unwrap an error that is not there. -/
theorem resolveIpv4_ne_nil (X : Crates) :
    (∀ cache as R, Run.exec (engagedStep X) (.init cache) as = some R →
      ∀ c ∈ R.calls, ∀ addrs, c.phase = .returned (.ok addrs) → addrs ≠ []) ∧
    (∀ as R, Run.exec (resolverStep X) .init as = some R →
      ∀ c ∈ R.calls, ∀ addrs, c.phase = .returned (.ok addrs) → addrs ≠ []) ∧
    ∀ A : Answers, A.Resolved X → ∀ ipv4Only destHost destPort bindIp proxyAddr,
      (∀ proxyHost proxyPort proxyAddrs, parseEndpoint proxyAddr 1080 = .ok (proxyHost, proxyPort) →
        A.resolve proxyHost proxyPort .direct = .ok proxyAddrs → proxyAddrs ≠ []) ∧
      (dialTcpOrPanic A ipv4Only destHost destPort bindIp proxyAddr).isSome := by
  have hengaged : ∀ cache as R, Run.exec (engagedStep X) (.init cache) as = some R →
      ∀ c ∈ R.calls, ∀ addrs, c.phase = .returned (.ok addrs) → addrs ≠ [] := by
    intro cache as R h
    have hfilled : R.Filled := Run.exec_invariant (fun _ _ _ hI => hI.step) (Engaged.init_filled cache) h
    exact hfilled.calls
  refine ⟨hengaged, fun as R h c hc addrs haddrs => ?_, fun A hA ipv4Only destHost destPort bindIp proxyAddr => ?_⟩
  · have hhonest : R.Honest X := Run.exec_invariant (fun _ _ _ hI => hI.step) Resolver.init_honest h
    obtain ⟨i, hi⟩ := List.mem_iff_getElem?.mp hc
    obtain ⟨req, phase⟩ := c
    dsimp only at haddrs
    subst haddrs
    exact Resolver.answers_ne_nil (hhonest.answers i req addrs hi)
  · have hproxy : ∀ host port route addrs, A.resolve host port route = .ok addrs → addrs ≠ [] := by
      intro host port route addrs h
      obtain ⟨cache, as, R, hrun, c, hc, -, -, -, hret⟩ := hA host port route addrs h
      exact hengaged cache as R hrun c hc addrs hret
    refine ⟨fun _ _ proxyAddrs _ h => hproxy _ _ _ proxyAddrs h, ?_⟩
    unfold dialTcpOrPanic
    split
    · rfl
    · split
      · rfl
      · next proxyAddrs hresolve =>
        split
        · rfl
        · split_ifs
          · refine retryByName_isSome (.inr ?_)
            have hne := hproxy _ _ _ proxyAddrs hresolve
            simp [hne]
          · rfl

end

/-! ## A proxy on this machine -/

/-- A name is looked up; the second call finds it in the cache. -/
def lookedUp : List EngagedAct :=
  [.call ⟨"example.com", 443, .direct, true, none⟩ 0, .lookup 0 oneAddress, .conclude 0 1 0,
    .call ⟨"Example.COM", 80, .direct, true, none⟩ 2]

def lookedUpEnd : Engaged := (Run.exec (engagedStep Sample.crates) (.init fun _ => ∅) lookedUp).get (by decide)

/-- Only this machine has an address. -/
def localAnswers : Answers :=
  { oneAddress.net with
    resolve := fun host port _ =>
      if host = "127.0.0.1" then .ok [(.localhost, port)] else .error "No IPv4 addresses resolved" }

theorem localAnswers_resolved : localAnswers.Resolved Sample.crates := by
  intro host port route addrs h
  dsimp only [localAnswers] at h
  split_ifs at h with hhost
  subst hhost
  obtain rfl := Except.ok.inj h
  have hliteral : resolveLiteral ⟨"127.0.0.1", port, route, true, none⟩ = some (.ok [(.localhost, port)]) := by
    have hip : parseIpAddr "127.0.0.1" = some (.v4 .localhost) := by decide
    rw [resolveLiteral, hip]
    rfl
  let call : ResolveCall := ⟨⟨"127.0.0.1", port, route, true, none⟩, .returned (.ok [(.localhost, port)])⟩
  have hrun : Run.exec (engagedStep Sample.crates) (.init fun _ => ∅)
      [.call ⟨"127.0.0.1", port, route, true, none⟩ 0] = some ⟨fun _ => ∅, fun _ => SingleFlight.init, [call]⟩ := by
    rw [Run.exec_cons, engagedStep, hliteral]
    rfl
  exact ⟨_, _, _, hrun, call, List.mem_singleton_self _, rfl, rfl, rfl, rfl⟩

theorem resolveIpv4_ne_nil_local :
    lookedUpEnd.calls.map ResolveCall.addresses =
      [some [(.new 93 184 216 34, 443)], some [(.new 93 184 216 34, 80)]] ∧
    (∀ c ∈ lookedUpEnd.calls, ∀ addrs, c.phase = .returned (.ok addrs) → addrs ≠ []) ∧
    (∀ c ∈ joinedEnd.calls, ∀ addrs, c.phase = .returned (.ok addrs) → addrs ≠ []) ∧
    (dialTcpOrPanic localAnswers true "example.com" 443 none "127.0.0.1:40000").isSome :=
  ⟨by decide,
    (resolveIpv4_ne_nil Sample.crates).1 _ lookedUp _ (Option.some_get _).symm,
    (resolveIpv4_ne_nil Sample.crates).2.1 joinedCalls _ (Option.some_get _).symm,
    ((resolveIpv4_ne_nil Sample.crates).2.2 localAnswers localAnswers_resolved true "example.com" 443 none
      "127.0.0.1:40000").2⟩

end RXCore
