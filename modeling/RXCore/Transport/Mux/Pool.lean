import RXCore.Transport.Mux.Registry

/-!
# The pool of mux connections

A call of `lease_stream` looks at the pool, and then waits: for the place of its open frame, or for a dial, after which
it looks again. `pre_warm` looks and dials. While a call waits, others look, streams come and go, and connections fail.

* `MuxCall`, `CallStage`, `MuxPool`, `MuxPool.look`, `MuxPool.step`;
* `MuxPool.look_some`, .. `MuxPool.dropPool_some`: what each step does;
* `connections_step`, **`pool_connections_reachable`**: every connection of a pool makes a run of a connection;
* `MuxPool.effect`, **`registries_step`**: what a step does to the registry of one connection;
* `Registry.Accounted`, `accounted_step`; `MuxConnection.Accounted`, `LeaseKept`, **`mux_accounting_iff`**,
  **`cancelled_lease_leaks`**: the runs in which the counters and the maps are those of the streams;
* `DialReserved`, **`mux_pool_bound_of_reserved`**: dials that count what is being dialed keep the pool small enough;
  **`overlapping_dials_exceed`**.
-/

set_option autoImplicit false

namespace RXCore

open Channel Parties Tables Run

/-! ## The pool -/

inductive MuxCall where
  | leaseStream (targetHost : String) (targetPort : UInt16) (isUdp : Bool)
  | preWarm

/-- A call is about to look at the pool, waits for a dial or for the place of the open frame of stream `i` on
connection `c`, or has ended. -/
inductive CallStage where
  | looking
  | dialing
  | opening (c i : ℕ)
  | ended
deriving DecidableEq

/-- `MuxPool` with all connections that were ever pushed, of which it has those that are `pooled`, in that order. -/
structure MuxPool where
  minConnections : ℕ
  maxConnections : ℕ
  maxStreamsPerConnection : UInt32
  connections : List MuxConnection
  calls : List (MuxCall × CallStage)

namespace MuxPool

/-- `MuxPool::new`, which spawns `pre_warm`. -/
def start (minConnections maxConnections : ℕ) (maxStreamsPerConnection : UInt32) : MuxPool :=
  ⟨minConnections, maxConnections, maxStreamsPerConnection, [], [(.preWarm, .looking)]⟩

/-- `connections.len()`. -/
def len (p : MuxPool) : ℕ := p.connections.countP (·.pooled)

/-- The dials in progress. -/
def dialing (p : MuxPool) : ℕ := p.calls.countP fun call => call.2 = .dialing

/-- `conns.retain(..)`: connections with a finished task are dropped. -/
def retain (p : MuxPool) : MuxPool :=
  { p with connections := p.connections.map fun s =>
      if s.writerEnd.isSome || s.readerEnd.isSome then { s with pooled := false } else s }

/-- The first connection with fewer streams than allowed. -/
def selected (p : MuxPool) : Option ℕ :=
  p.connections.findIdx? fun s => s.pooled && decide (s.streamCount < p.maxStreamsPerConnection)

def setStage (p : MuxPool) (t : ℕ) (call : MuxCall) (stage : CallStage) : MuxPool :=
  { p with calls := p.calls.set t (call, stage) }

/-- What a call does without an await from where it looks at the pool. -/
def look (p : MuxPool) (t : ℕ) : MuxCall → Option MuxPool
  | .preWarm => some (p.setStage t .preWarm (if p.minConnections ≤ p.len then .ended else .dialing))
  | .leaseStream targetHost targetPort isUdp =>
    let call := MuxCall.leaseStream targetHost targetPort isUdp
    match p.retain.selected with
    | some c => match p.retain.connections[c]? with
      | some s => some <| setStage
          { p.retain with connections := p.retain.connections.set c (s.lease targetHost targetPort isUdp) }
          t call (.opening c s.streams.length)
      | none => none
    | none => some (p.retain.setStage t call (if p.retain.len < p.maxConnections then .dialing else .ended))

/-- One step of a connection. -/
def onConnection (p : MuxPool) (c : ℕ) (e : MuxEvent) : Option MuxPool := match p.connections[c]? with
  | some s => (s.step e).map fun s' => { p with connections := p.connections.set c s' }
  | none => none

end MuxPool

/-- What happens: a call begins, looks at the pool, has its dial finished, or its open frame polled; its open frame fails
because the writer has ended; it is dropped while it waits; a step of a connection's streams and tasks; the pool is
dropped, when no call is in progress. -/
inductive PoolEvent where
  | call (call : MuxCall)
  | look (t : ℕ)
  | dialed (t : ℕ) (ok : Bool)
  | poll (t : ℕ)
  | fail (t : ℕ)
  | cancel (t : ℕ)
  | connection (c : ℕ) (e : MuxEvent)
  | dropPool

/-- The steps of a connection that are not a call's or the pool's. -/
def MuxEvent.own : MuxEvent → Bool
  | .lease .. | .opened _ | .abandon _ | .release => false
  | _ => true

/-- The stream is in use. -/
def MuxConnection.isLive (s : MuxConnection) (i : ℕ) : Bool := s.streams[i]?.any fun st => st.phase = .live

/-- The stream of a call's open frame is live, so the call returns it. -/
def MuxPool.returned (p : MuxPool) (c i : ℕ) : Bool := p.connections[c]?.any fun s => s.isLive i

/-- One step; `none` is a step that cannot be taken. -/
def MuxPool.step (p : MuxPool) : PoolEvent → Option MuxPool
  | .call call => some { p with calls := p.calls ++ [(call, .looking)] }
  | .look t => match p.calls[t]? with
    | some (call, .looking) => p.look t call
    | _ => none
  | .dialed t ok => match p.calls[t]? with
    | some (call, .dialing) => some <|
        if ok then { p.setStage t call .looking with connections := p.connections ++ [.start] }
        else p.setStage t call .ended
    | _ => none
  | .poll t => match p.calls[t]? with
    | some (call, .opening c i) => (p.onConnection c (.opened i)).map fun p' =>
        p'.setStage t call (if p'.returned c i then .ended else .opening c i)
    | _ => none
  | .fail t => match p.calls[t]? with
    | some (call, .opening c i) =>
      if p.connections[c]?.any fun s => s.writerEnd.isSome then
        (p.onConnection c (.abandon i)).map (·.setStage t call .ended)
      else none
    | _ => none
  | .cancel t => match p.calls[t]? with
    | some (call, .opening c i) => (p.onConnection c (.abandon i)).map (·.setStage t call .ended)
    | some (call, .dialing) => some (p.setStage t call .ended)
    | _ => none
  | .connection c e => if e.own then p.onConnection c e else none
  | .dropPool =>
    if p.calls.all fun call => call.2 = .ended then
      some { p with connections := p.connections.map fun s => { s with pooled := false } }
    else none

/-! ## What a step does -/

namespace MuxPool

section steps

variable {p p' : MuxPool} {t c : ℕ} {e : MuxEvent}

/-- The connection that is selected is in the pool and has fewer streams than allowed. -/
theorem selected_some (h : p.selected = some c) :
    ∃ s, p.connections[c]? = some s ∧ s.pooled = true ∧ s.streamCount < p.maxStreamsPerConnection := by
  obtain ⟨hlt, hp, -⟩ := List.findIdx?_eq_some_iff_getElem.mp h
  rw [Bool.and_eq_true, decide_eq_true_eq] at hp
  exact ⟨p.connections[c], List.getElem?_eq_getElem hlt, hp⟩

theorem onConnection_some (h : p.onConnection c e = some p') :
    ∃ s s', p.connections[c]? = some s ∧ s.step e = some s' ∧
      p' = { p with connections := p.connections.set c s' } := by
  unfold onConnection at h
  split at h
  · next s hs =>
    obtain ⟨s', hs', rfl⟩ := Option.map_eq_some_iff.mp h
    exact ⟨s, s', hs, hs', rfl⟩
  · cases h

/-- A look warms the pool, leases a stream of a connection that it has, or has to dial one if it may. -/
theorem look_some (h : p.step (.look t) = some p') :
    (p.calls[t]? = some (.preWarm, .looking) ∧
      p' = p.setStage t .preWarm (if p.minConnections ≤ p.len then .ended else .dialing)) ∨
    ∃ targetHost targetPort isUdp, p.calls[t]? = some (.leaseStream targetHost targetPort isUdp, .looking) ∧
      ((∃ c s, p.retain.selected = some c ∧ p.retain.connections[c]? = some s ∧
          s.step (.lease targetHost targetPort isUdp) = some (s.lease targetHost targetPort isUdp) ∧
          s.streamCount < p.maxStreamsPerConnection ∧
          p' = setStage
            { p.retain with connections := p.retain.connections.set c (s.lease targetHost targetPort isUdp) }
            t (.leaseStream targetHost targetPort isUdp) (.opening c s.streams.length)) ∨
        (p.retain.selected = none ∧ p' = p.retain.setStage t (.leaseStream targetHost targetPort isUdp)
          (if p.retain.len < p.maxConnections then .dialing else .ended))) := by
  simp only [step] at h
  split at h
  · next call ht =>
    cases call with
    | preWarm => exact .inl ⟨ht, (Option.some.inj h).symm⟩
    | leaseStream targetHost targetPort isUdp =>
      refine .inr ⟨targetHost, targetPort, isUdp, ht, ?_⟩
      simp only [look] at h
      split at h
      · next c hc =>
        obtain ⟨s, hs, hpooled, hcount⟩ := selected_some hc
        rw [hs] at h
        exact .inl ⟨c, s, hc, hs, if_pos hpooled, hcount, (Option.some.inj h).symm⟩
      · next hc => exact .inr ⟨hc, (Option.some.inj h).symm⟩
  · cases h

/-- The connection that was dialed is pushed, whatever else has been pushed in the meantime. -/
theorem dialed_some {ok : Bool} (h : p.step (.dialed t ok) = some p') :
    ∃ call, p.calls[t]? = some (call, .dialing) ∧
      (ok = true ∧ p' = { p.setStage t call .looking with connections := p.connections ++ [.start] } ∨
        ok = false ∧ p' = p.setStage t call .ended) := by
  simp only [step] at h
  split at h
  · next call ht =>
    refine ⟨call, ht, ?_⟩
    cases ok with
    | true => exact .inl ⟨rfl, (Option.some.inj h).symm⟩
    | false => exact .inr ⟨rfl, (Option.some.inj h).symm⟩
  · cases h

theorem poll_some (h : p.step (.poll t) = some p') :
    ∃ call c i p₁, p.calls[t]? = some (call, .opening c i) ∧ p.onConnection c (.opened i) = some p₁ ∧
      p' = p₁.setStage t call (if p₁.returned c i then .ended else .opening c i) := by
  simp only [step] at h
  split at h
  · next call c i ht =>
    obtain ⟨p₁, h₁, rfl⟩ := Option.map_eq_some_iff.mp h
    exact ⟨call, c, i, p₁, ht, h₁, rfl⟩
  · cases h

theorem fail_some (h : p.step (.fail t) = some p') :
    ∃ call c i p₁, p.calls[t]? = some (call, .opening c i) ∧
      (p.connections[c]?.any fun s => s.writerEnd.isSome) = true ∧ p.onConnection c (.abandon i) = some p₁ ∧
      p' = p₁.setStage t call .ended := by
  simp only [step] at h
  split at h
  · next call c i ht =>
    split_ifs at h with hended
    obtain ⟨p₁, h₁, rfl⟩ := Option.map_eq_some_iff.mp h
    exact ⟨call, c, i, p₁, ht, hended, h₁, rfl⟩
  · cases h

theorem cancel_some (h : p.step (.cancel t) = some p') :
    (∃ call c i p₁, p.calls[t]? = some (call, .opening c i) ∧ p.onConnection c (.abandon i) = some p₁ ∧
      p' = p₁.setStage t call .ended) ∨
    ∃ call, p.calls[t]? = some (call, .dialing) ∧ p' = p.setStage t call .ended := by
  simp only [step] at h
  split at h
  · next call c i ht =>
    obtain ⟨p₁, h₁, rfl⟩ := Option.map_eq_some_iff.mp h
    exact .inl ⟨call, c, i, p₁, ht, h₁, rfl⟩
  · next call ht => exact .inr ⟨call, ht, (Option.some.inj h).symm⟩
  · cases h

theorem connection_some (h : p.step (.connection c e) = some p') : e.own = true ∧ p.onConnection c e = some p' := by
  simp only [step] at h
  split_ifs at h with hown
  exact ⟨hown, h⟩

theorem dropPool_some (h : p.step .dropPool = some p') :
    (p.calls.all fun call => call.2 = .ended) = true ∧
      p' = { p with connections := p.connections.map fun s => { s with pooled := false } } := by
  simp only [step] at h
  split_ifs at h with hended
  exact ⟨hended, (Option.some.inj h).symm⟩

end steps

end MuxPool

/-! ## The connections of a pool -/

section connections

variable {I : MuxConnection → Prop} {p p' : MuxPool}

theorem onConnection_mem (hstep : ∀ s e s', I s → s.step e = some s' → I s') {c : ℕ} {e : MuxEvent}
    (h : p.onConnection c e = some p') (hp : ∀ s ∈ p.connections, I s) : ∀ s ∈ p'.connections, I s := by
  obtain ⟨s, s', hs, hs', rfl⟩ := MuxPool.onConnection_some h
  intro u hu
  rcases List.mem_or_eq_of_mem_set hu with hu | rfl
  · exact hp u hu
  · exact hstep s e u (hp s (List.mem_of_getElem? hs)) hs'

/-- To leave the pool is a step of a connection, or nothing if it has left. -/
theorem unpooled (hstep : ∀ s e s', I s → s.step e = some s' → I s') {s : MuxConnection} (hs : I s) :
    I { s with pooled := false } := by
  by_cases hp : s.pooled
  · exact hstep s .release _ hs (if_pos hp)
  · have : { s with pooled := false } = s := by rw [← Bool.eq_false_iff.mpr hp]
    rwa [this]

theorem retain_mem (hstep : ∀ s e s', I s → s.step e = some s' → I s') (hp : ∀ s ∈ p.connections, I s) :
    ∀ s ∈ p.retain.connections, I s := by
  intro u hu
  obtain ⟨s, hs, rfl⟩ := List.mem_map.mp hu
  split_ifs
  · exact unpooled hstep (hp s hs)
  · exact hp s hs

/-- **What a connection starts with and its steps keep, all connections of a pool have.** -/
theorem connections_step (hstart : I .start) (hstep : ∀ s e s', I s → s.step e = some s' → I s') {e : PoolEvent}
    (h : p.step e = some p') (hp : ∀ s ∈ p.connections, I s) : ∀ s ∈ p'.connections, I s := by
  cases e with
  | call call =>
    obtain rfl := Option.some.inj h
    exact hp
  | look t =>
    obtain ⟨-, rfl⟩ | ⟨targetHost, targetPort, isUdp, -, ⟨c, s, -, hs, hlease, -, rfl⟩ | ⟨-, rfl⟩⟩ :=
      MuxPool.look_some h
    · exact hp
    · intro u hu
      rcases List.mem_or_eq_of_mem_set hu with hu | rfl
      · exact retain_mem hstep hp u hu
      · exact hstep s _ _ (retain_mem hstep hp s (List.mem_of_getElem? hs)) hlease
    · exact retain_mem hstep hp
  | dialed t ok =>
    obtain ⟨call, -, ⟨-, rfl⟩ | ⟨-, rfl⟩⟩ := MuxPool.dialed_some h
    · intro u hu
      rcases List.mem_append.mp hu with hu | hu
      · exact hp u hu
      · rwa [List.mem_singleton.mp hu]
    · exact hp
  | poll t =>
    obtain ⟨call, c, i, p₁, -, h₁, rfl⟩ := MuxPool.poll_some h
    have hmem := onConnection_mem hstep h₁ hp
    exact hmem
  | fail t =>
    obtain ⟨call, c, i, p₁, -, -, h₁, rfl⟩ := MuxPool.fail_some h
    have hmem := onConnection_mem hstep h₁ hp
    exact hmem
  | cancel t =>
    obtain ⟨call, c, i, p₁, -, h₁, rfl⟩ | ⟨call, -, rfl⟩ := MuxPool.cancel_some h
    · have hmem := onConnection_mem hstep h₁ hp
      exact hmem
    · exact hp
  | connection c e => exact onConnection_mem hstep (MuxPool.connection_some h).2 hp
  | dropPool =>
    obtain ⟨-, rfl⟩ := MuxPool.dropPool_some h
    intro u hu
    obtain ⟨s, hs, rfl⟩ := List.mem_map.mp hu
    exact unpooled hstep (hp s hs)

/-- **The connections of a pool make runs of a connection**, so what holds in all of these holds of them. -/
theorem pool_connections_reachable {minConnections maxConnections : ℕ} {maxStreams : UInt32} {es : List PoolEvent}
    (h : exec MuxPool.step (.start minConnections maxConnections maxStreams) es = some p) :
    ∀ s ∈ p.connections, Reachable MuxConnection.step .start s := by
  refine exec_invariant (I := fun p => ∀ s ∈ p.connections, Reachable MuxConnection.step .start s)
    (fun p e p' hp h => connections_step ⟨[], rfl⟩ (fun s e s' ⟨as, has⟩ hs => ⟨as ++ [e], ?_⟩) h hp)
    (fun s hs => by cases hs) h
  rw [exec_append, has]
  exact exec_cons_of_step hs []

end connections

/-! ## What a step does to a connection -/

/-- The step of a registry that a step of the pool makes, and whose. -/
def MuxPool.effect (p : MuxPool) : PoolEvent → Option (ℕ × RegistryEvent)
  | .look t => match p.calls[t]? with
    | some (.leaseStream .., .looking) => p.retain.selected.map (·, .lease)
    | _ => none
  | .poll t => match p.calls[t]? with
    | some (_, .opening c _) => some (c, .other)
    | _ => none
  | .fail t | .cancel t => match p.calls[t]? with
    | some (_, .opening c i) => some (c, .abandon i)
    | _ => none
  | .connection c e => some (c, e.registry)
  | _ => none

def MuxPool.registries (p : MuxPool) : List Registry := p.connections.map MuxConnection.registry

section registries

variable {p p' : MuxPool} {c : ℕ} {e : MuxEvent}

theorem retain_registries (p : MuxPool) : p.retain.registries = p.registries := by
  rw [MuxPool.registries, MuxPool.retain, List.map_map]
  refine List.map_congr_left fun s _ => ?_
  simp only [Function.comp_apply]
  split_ifs <;> rfl

theorem registries_getElem? {s : MuxConnection} (h : p.connections[c]? = some s) : p.registries[c]? = some s.registry := by
  rw [MuxPool.registries, List.getElem?_map, h]
  rfl

/-- A step of a connection is one of its registry. -/
theorem onConnection_registries (h : p.onConnection c e = some p') :
    ∃ r r', p.registries[c]? = some r ∧ r.step e.registry = some r' ∧ p'.registries = p.registries.set c r' ∧
      p'.maxStreamsPerConnection = p.maxStreamsPerConnection := by
  obtain ⟨s, s', hs, hs', rfl⟩ := MuxPool.onConnection_some h
  exact ⟨s.registry, s'.registry, registries_getElem? hs, registry_step hs', List.map_set .., rfl⟩

/-- **A step of the pool** leaves the registries of the connections as they are, adds a new one, or makes a step of one
of them, which is a lease only if there are fewer streams than allowed. -/
theorem registries_step {e : PoolEvent} (h : p.step e = some p') :
    (p.effect e = none ∧
        (p'.registries = p.registries ∨ p'.registries = p.registries ++ [MuxConnection.start.registry]) ∨
      ∃ c re r r', p.effect e = some (c, re) ∧ p.registries[c]? = some r ∧ r.step re = some r' ∧
        p'.registries = p.registries.set c r' ∧ (re = .lease → r.streamCount < p.maxStreamsPerConnection)) ∧
      p'.maxStreamsPerConnection = p.maxStreamsPerConnection := by
  cases e with
  | call call =>
    obtain rfl := Option.some.inj h
    exact ⟨.inl ⟨rfl, .inl rfl⟩, rfl⟩
  | look t =>
    obtain ⟨ht, rfl⟩ | ⟨targetHost, targetPort, isUdp, ht, ⟨c, s, hc, hs, hlease, hcount, rfl⟩ | ⟨hc, rfl⟩⟩ :=
      MuxPool.look_some h
    · exact ⟨.inl ⟨by simp only [MuxPool.effect, ht], .inl rfl⟩, rfl⟩
    · refine ⟨.inr ⟨c, .lease, s.registry, (s.lease targetHost targetPort isUdp).registry, ?_, ?_, registry_step hlease,
        ?_, fun _ => hcount⟩, rfl⟩
      · simp only [MuxPool.effect, ht, hc, Option.map_some]
      · rw [← retain_registries]
        exact registries_getElem? hs
      · rw [← retain_registries p]
        exact List.map_set ..
    · exact ⟨.inl ⟨by simp only [MuxPool.effect, ht, hc, Option.map_none], .inl (retain_registries p)⟩, rfl⟩
  | dialed t ok =>
    obtain ⟨call, -, ⟨-, rfl⟩ | ⟨-, rfl⟩⟩ := MuxPool.dialed_some h
    · exact ⟨.inl ⟨rfl, .inr (List.map_append ..)⟩, rfl⟩
    · exact ⟨.inl ⟨rfl, .inl rfl⟩, rfl⟩
  | poll t =>
    obtain ⟨call, c, i, p₁, ht, h₁, rfl⟩ := MuxPool.poll_some h
    obtain ⟨r, r', hr, hstep, hreg, hmax⟩ := onConnection_registries h₁
    refine ⟨.inr ⟨c, .other, r, r', ?_, hr, hstep, hreg, fun he => by cases he⟩, hmax⟩
    simp only [MuxPool.effect, ht]
  | fail t =>
    obtain ⟨call, c, i, p₁, ht, -, h₁, rfl⟩ := MuxPool.fail_some h
    obtain ⟨r, r', hr, hstep, hreg, hmax⟩ := onConnection_registries h₁
    refine ⟨.inr ⟨c, .abandon i, r, r', ?_, hr, hstep, hreg, fun he => by cases he⟩, hmax⟩
    simp only [MuxPool.effect, ht]
  | cancel t =>
    obtain ⟨call, c, i, p₁, ht, h₁, rfl⟩ | ⟨call, ht, rfl⟩ := MuxPool.cancel_some h
    · obtain ⟨r, r', hr, hstep, hreg, hmax⟩ := onConnection_registries h₁
      refine ⟨.inr ⟨c, .abandon i, r, r', ?_, hr, hstep, hreg, fun he => by cases he⟩, hmax⟩
      simp only [MuxPool.effect, ht]
    · exact ⟨.inl ⟨by simp only [MuxPool.effect, ht], .inl rfl⟩, rfl⟩
  | connection c e =>
    obtain ⟨hown, h⟩ := MuxPool.connection_some h
    obtain ⟨r, r', hr, hstep, hreg, hmax⟩ := onConnection_registries h
    refine ⟨.inr ⟨c, e.registry, r, r', rfl, hr, hstep, hreg, fun he => ?_⟩, hmax⟩
    -- a step of the connection's own is not a lease
    cases e <;> first | exact absurd hown Bool.false_ne_true | cases he
  | dropPool =>
    obtain ⟨-, rfl⟩ := MuxPool.dropPool_some h
    exact ⟨.inl ⟨rfl, .inl (by rw [MuxPool.registries, List.map_map]; rfl)⟩, rfl⟩

end registries

/-! ## Accounting -/

/-- The number is that of the present streams, it is not above the limit, and the map has exactly the present streams,
each under its identifier. -/
def Registry.Accounted (maxStreams : UInt32) (r : Registry) : Prop :=
  r.streamCount.toNat = r.entries.countP (·.2) ∧ r.streamCount ≤ maxStreams ∧
    ∀ (k : UInt32) (i : ℕ), r.activeStreams.lookup k = some i ↔ r.entries[i]? = some (k, true)

/-- The steps that keep the accounts. -/
def Registry.Kept (r : Registry) : RegistryEvent → Prop
  | .lease => r.activeStreams.lookup r.nextStreamId = none
  | .abandon _ => False
  | _ => True

section accounted

variable {maxStreams : UInt32} {r r' : Registry} {i : ℕ}

theorem accounted_lease (hr : r.Accounted maxStreams) (hcount : r.streamCount < maxStreams)
    (h : r.step .lease = some r') :
    r'.Accounted maxStreams ↔ r.activeStreams.lookup r.nextStreamId = none := by
  obtain rfl := Option.some.inj h
  obtain ⟨hnum, -, hmap⟩ := hr
  have hlt := UInt32.lt_iff_toNat_lt.mp hcount
  have hsucc : (r.streamCount + 1).toNat = r.streamCount.toNat + 1 := by
    rw [UInt32.toNat_add]
    exact Nat.mod_eq_of_lt (by have := maxStreams.toNat_lt; simp; omega)
  constructor
  · rintro ⟨-, -, hmap'⟩
    by_contra hsome
    obtain ⟨j, hj⟩ := Option.ne_none_iff_exists'.mp hsome
    -- the entry of the stream that had the identifier is overwritten
    have hjn := (hmap' r.nextStreamId j).mpr (getElem?_append_of_some _ ((hmap _ j).mp hj))
    rw [AList.lookup_insert] at hjn
    exact absurd (lt_of_getElem? ((hmap _ j).mp hj)) (by rw [← Option.some.inj hjn]; exact lt_irrefl _)
  · intro hnone
    refine ⟨?_, ?_, fun k j => ?_⟩
    · rw [hsucc, hnum, List.countP_append]
      rfl
    · rw [UInt32.le_iff_toNat_le, hsucc]
      exact hlt
    · constructor
      · intro hk
        rcases lookup_insert_cases hk with ⟨rfl, rfl⟩ | ⟨-, hk⟩
        · exact List.getElem?_concat_length
        · exact getElem?_append_of_some _ ((hmap k j).mp hk)
      · intro hj
        rcases getElem?_append_cases hj with hj | ⟨rfl, hk⟩
        · have hk := (hmap k j).mpr hj
          rw [AList.lookup_insert_ne (fun he => by rw [he, hnone] at hk; cases hk)]
          exact hk
        · obtain ⟨rfl, -⟩ := Prod.mk.inj hk
          exact AList.lookup_insert _

/-- **An abandoned lease is never undone.** -/
theorem accounted_abandon (hr : r.Accounted maxStreams) (h : r.step (.abandon i) = some r') :
    ¬ r'.Accounted maxStreams := by
  obtain ⟨id, hid, rfl⟩ := abandon_some h
  rintro ⟨-, -, hmap'⟩
  have hset := (hmap' id i).mp ((hr.2.2 id i).mpr hid)
  rw [getElem?_set_self hid] at hset
  cases hset

theorem accounted_drop (hr : r.Accounted maxStreams) (h : r.step (.drop i) = some r') : r'.Accounted maxStreams := by
  obtain ⟨id, hid, rfl⟩ := drop_some h
  obtain ⟨hnum, hle, hmap⟩ := hr
  have hcount := countP_set (·.2) hid (id, false)
  simp only [if_true, Bool.false_eq_true, if_false, add_zero] at hcount
  have hpred : (r.streamCount - 1).toNat = r.streamCount.toNat - 1 :=
    UInt32.toNat_sub_of_le _ _ (UInt32.le_iff_toNat_le.mpr (by simp; omega))
  refine ⟨?_, ?_, fun k j => ?_⟩
  · rw [hpred]
    simp only
    omega
  · rw [UInt32.le_iff_toNat_le] at hle ⊢
    rw [hpred]
    omega
  · rw [entries_set_gone]
    by_cases hk : k = id
    · subst hk
      rw [AList.lookup_erase]
      refine ⟨fun he => (by cases he), fun ⟨hne, hj⟩ => ?_⟩
      -- the map has one stream for an identifier
      have := (hmap k j).mpr hj
      rw [(hmap k i).mpr hid] at this
      exact absurd (Option.some.inj this).symm hne
    · rw [AList.lookup_erase_ne hk, hmap]
      refine ⟨fun hj => ⟨fun hji => ?_, hj⟩, fun h => h.2⟩
      subst hji
      rw [hid] at hj
      exact hk (Prod.mk.inj (Option.some.inj hj)).1.symm

/-- **The steps that keep the accounts** are those that do not abandon a lease, nor lease an identifier of the map. -/
theorem accounted_step {e : RegistryEvent} (hr : r.Accounted maxStreams)
    (hcount : e = .lease → r.streamCount < maxStreams) (h : r.step e = some r') : r'.Accounted maxStreams ↔ r.Kept e := by
  cases e with
  | lease => exact accounted_lease hr (hcount rfl) h
  | abandon i => exact iff_of_false (accounted_abandon hr h) id
  | drop i => exact iff_of_true (accounted_drop hr h) trivial
  | other =>
    obtain rfl := Option.some.inj h
    exact iff_of_true hr trivial

end accounted

/-- On a connection: the number of streams is that of the streams that are live or being leased, it is not above the
limit, and the map has exactly these streams, each under its identifier. -/
def MuxConnection.Accounted (maxStreams : UInt32) (s : MuxConnection) : Prop :=
  s.streamCount.toNat = s.streams.countP (·.present) ∧ s.streamCount ≤ maxStreams ∧
    ∀ (k : UInt32) (i : ℕ), s.activeStreams.lookup k = some i ↔
      ∃ st, s.streams[i]? = some st ∧ st.streamId = k ∧ st.present

/-- So on every connection. -/
def MuxPool.Accounted (p : MuxPool) : Prop :=
  ∀ (c : ℕ) (s : MuxConnection), p.connections[c]? = some s → s.Accounted p.maxStreamsPerConnection

/-- No lease fails or is cancelled while its open frame waits for a place, and none takes an identifier that is in the
map of its connection. -/
def LeaseKept (p : MuxPool) (e : PoolEvent) : Prop := match p.effect e with
  | some (c, .lease) => ∀ s, p.connections[c]? = some s → s.activeStreams.lookup s.nextStreamId = none
  | some (_, .abandon _) => False
  | _ => True

theorem accounted_iff_registry {maxStreams : UInt32} {s : MuxConnection} :
    s.Accounted maxStreams ↔ s.registry.Accounted maxStreams := by
  have hcount : s.registry.entries.countP (·.2) = s.streams.countP (·.present) := List.countP_map ..
  rw [Registry.Accounted, hcount]
  refine and_congr_right fun _ => and_congr_right fun _ => forall_congr' fun k => forall_congr' fun i => ?_
  rw [entries_getElem?, Option.map_eq_some_iff]
  simp only [MuxVirtualStream.entry, Prod.mk.injEq]
  rfl

theorem pool_accounted_iff {p : MuxPool} :
    p.Accounted ↔ ∀ (c : ℕ) (r : Registry), p.registries[c]? = some r → r.Accounted p.maxStreamsPerConnection := by
  simp only [MuxPool.Accounted, MuxPool.registries, List.getElem?_map, Option.map_eq_some_iff]
  constructor
  · rintro h c r ⟨s, hs, rfl⟩
    exact accounted_iff_registry.mp (h c s hs)
  · intro h c s hs
    exact accounted_iff_registry.mpr (h c _ ⟨s, hs, rfl⟩)

theorem leaseKept_iff {p : MuxPool} {e : PoolEvent} {c : ℕ} {re : RegistryEvent} {r : Registry}
    (heff : p.effect e = some (c, re)) (hr : p.registries[c]? = some r) : LeaseKept p e ↔ r.Kept re := by
  obtain ⟨s, hs, rfl⟩ : ∃ s, p.connections[c]? = some s ∧ s.registry = r := by
    rw [MuxPool.registries, List.getElem?_map] at hr
    exact Option.map_eq_some_iff.mp hr
  rw [LeaseKept, heff]
  cases re with
  | lease =>
    simp only [Registry.Kept]
    exact ⟨fun h => h s hs, fun h s' hs' => by obtain rfl := Option.some.inj (hs.symm.trans hs'); exact h⟩
  | abandon i => exact Iff.rfl
  | drop i => exact Iff.rfl
  | other => exact Iff.rfl

/-- **Mux lease accounting**: the runs of a pool in which all accounts are always right are those in which no lease is
abandoned and none overwrites an entry. -/
theorem mux_accounting_iff (minConnections maxConnections : ℕ) (maxStreams : UInt32) (es : List PoolEvent) :
    Always MuxPool.step MuxPool.Accounted (.start minConnections maxConnections maxStreams) es ↔
      Meets MuxPool.step LeaseKept (.start minConnections maxConnections maxStreams) es := by
  refine always_iff_meets (I := fun _ => True) (fun _ _ _ _ _ _ _ => trivial) (fun p e p' _ hp h => ?_) trivial
    (fun c s hs => by cases hs) es
  rw [pool_accounted_iff] at hp ⊢
  obtain ⟨⟨heff, hreg | hreg⟩ | ⟨c, re, r, r', heff, hr, hstep, hreg, hcount⟩, hmax⟩ := registries_step h
  · rw [hreg, hmax, LeaseKept, heff]
    exact iff_of_true hp trivial
  · rw [hreg, hmax, LeaseKept, heff]
    refine iff_of_true (fun c r hc => ?_) trivial
    rcases getElem?_append_cases hc with hc | ⟨-, rfl⟩
    · exact hp c r hc
    · -- a new connection has no streams
      exact ⟨rfl, UInt32.le_iff_toNat_le.mpr (Nat.zero_le _), fun k i => ⟨fun h => (by cases h), fun h => (by cases h)⟩⟩
  · rw [hreg, hmax, leaseKept_iff heff hr, ← accounted_step (hp c r hr) hcount hstep]
    refine ⟨fun h => h c r' (getElem?_set_self hr _), fun h c' r'' hc' => ?_⟩
    rcases getElem?_set_cases hc' with ⟨-, rfl⟩ | ⟨-, hc'⟩
    · exact h
    · exact hp c' r'' hc'

/-- **A cancelled lease leaks**: the only place of the only connection is taken by a stream that nobody has. -/
theorem cancelled_lease_leaks :
    ¬ ∀ (minConnections maxConnections : ℕ) (maxStreams : UInt32) (es : List PoolEvent),
      Always MuxPool.step MuxPool.Accounted (.start minConnections maxConnections maxStreams) es := by
  intro hall
  have hrun : (exec MuxPool.step (.start 0 1 1) [.call (.leaseStream "a" 80 false), .look 1, .dialed 1 true, .look 1,
      .cancel 1]).map (fun p => p.connections.map fun s => (s.streamCount.toNat, s.streams.countP (·.present))) =
        some [(1, 0)] := by
    decide
  obtain ⟨p, hp, hcounts⟩ := Option.map_eq_some_iff.mp hrun
  obtain ⟨s, hs, hcount⟩ := List.map_eq_singleton_iff.mp hcounts
  have hacc := (hall 0 1 1 _).last hp 0 s (by rw [hs]; rfl)
  obtain ⟨h1, h0⟩ := Prod.mk.inj hcount
  have := hacc.1
  omega

/-! ## The size of the pool -/

section size

variable {s s' : MuxConnection} {e : MuxEvent} {p p' : MuxPool} {c : ℕ}

/-- A connection leaves the pool by no step of its own. -/
theorem pooled_step (h : s.step e = some s') (he : e ≠ .release) : s'.pooled = s.pooled := by
  by_cases hstream : e.ofStream
  · exact congrArg Prod.fst (MuxConnection.rest_of_ofStream h hstream)
  · cases e with
    | read bs =>
      obtain ⟨-, -, rfl⟩ := read_some h
      rfl
    | dispatch capacity =>
      obtain ⟨-, f, rest, -, rfl⟩ := dispatch_some h
      obtain ⟨streams, hstreams⟩ := dispatch_eq s f
      rw [hstreams]
    | readEnd failed =>
      obtain ⟨-, e, rfl⟩ := readEnd_some h
      rfl
    | write =>
      obtain ⟨-, ⟨isUdp, m, c, -, rfl⟩ | ⟨-, rfl⟩⟩ := write_some h
      · exact MuxConnection.setTx_pooled
      · rfl
    | writeFail =>
      obtain ⟨-, rfl⟩ := writeFail_some h
      rfl
    | release => exact absurd rfl he
    | _ => exact absurd rfl hstream

/-- A connection that is set to one that is as much in the pool. -/
theorem countP_pooled_set {l : List MuxConnection} (hs : l[c]? = some s) (hp : s'.pooled = s.pooled) :
    (l.set c s').countP (·.pooled) = l.countP (·.pooled) := by
  have := countP_set (·.pooled) hs s'
  rw [hp] at this
  omega

theorem onConnection_len (h : p.onConnection c e = some p') (he : e ≠ .release) :
    p'.len = p.len ∧ p'.calls = p.calls ∧ p'.maxConnections = p.maxConnections := by
  obtain ⟨s, s', hs, hs', rfl⟩ := MuxPool.onConnection_some h
  exact ⟨countP_pooled_set hs (pooled_step hs' he), rfl, rfl⟩

theorem retain_len_le (p : MuxPool) : p.retain.len ≤ p.len := by
  rw [MuxPool.len, MuxPool.retain, List.countP_map]
  refine List.countP_mono_left fun s _ hs => ?_
  simp only [Function.comp_apply] at hs
  split_ifs at hs
  exact hs

/-- The dials in progress after a call has got on. -/
theorem dialing_setStage {t : ℕ} {call : MuxCall} {stage : CallStage} (h : p.calls[t]? = some (call, stage))
    (call' : MuxCall) (stage' : CallStage) :
    (p.setStage t call' stage').dialing + (if stage = .dialing then 1 else 0) =
      p.dialing + if stage' = .dialing then 1 else 0 := by
  have := countP_set (fun call : MuxCall × CallStage => decide (call.2 = .dialing)) h (call', stage')
  simp only [decide_eq_true_eq] at this
  exact this

/-- The dial of an event is one that is started. -/
def DialStarts (p : MuxPool) : PoolEvent → Prop
  | .look t => match p.calls[t]? with
    | some (.preWarm, .looking) => p.len < p.minConnections
    | some (.leaseStream .., .looking) => p.retain.selected = none ∧ p.retain.len < p.maxConnections
    | _ => False
  | _ => False

/-- A call that waits for the place of its open frame gets on with a step of its connection: nothing is dialed. -/
theorem opening_len {t i : ℕ} {call : MuxCall} {p₁ : MuxPool} (ht : p.calls[t]? = some (call, .opening c i))
    (h : p.onConnection c e = some p₁) (he : e ≠ .release) (stage : CallStage) (hstage : stage ≠ .dialing) :
    p₁.maxConnections = p.maxConnections ∧ p₁.len = p.len ∧ (p₁.setStage t call stage).dialing = p.dialing := by
  obtain ⟨hlen, hcalls, hmax⟩ := onConnection_len h he
  rw [← hcalls] at ht
  have hdial := dialing_setStage ht call stage
  have hsame : p₁.dialing = p.dialing := congrArg (List.countP _) hcalls
  rw [if_neg (by simp), if_neg hstage, hsame] at hdial
  exact ⟨hmax, hlen, hdial⟩

/-- **What a step does to the size of the pool and the dials in progress**: a dial that is finished moves a connection
from the one to the other, a dial is started by a look, and everything else adds to neither. -/
theorem len_step {e : PoolEvent} (h : p.step e = some p') :
    p'.maxConnections = p.maxConnections ∧
      (((∃ t, e = .dialed t true) ∧ p'.len = p.len + 1 ∧ p'.dialing + 1 = p.dialing) ∨
        ((∀ t, e ≠ .dialed t true) ∧ p'.len ≤ p.len ∧
          (p'.dialing ≤ p.dialing ∨ DialStarts p e ∧ p'.dialing = p.dialing + 1))) := by
  cases e with
  | call call =>
    obtain rfl := Option.some.inj h
    refine ⟨rfl, .inr ⟨fun t => by simp, le_refl _, .inl ?_⟩⟩
    rw [MuxPool.dialing, List.countP_append]
    rfl
  | look t =>
    obtain ⟨ht, rfl⟩ | ⟨targetHost, targetPort, isUdp, ht, ⟨c, s, hc, hs, -, -, rfl⟩ | ⟨hc, rfl⟩⟩ := MuxPool.look_some h
    · have hdial := dialing_setStage ht .preWarm (if p.minConnections ≤ p.len then .ended else .dialing)
      refine ⟨rfl, .inr ⟨fun t => by simp, le_refl _, ?_⟩⟩
      by_cases hlen : p.minConnections ≤ p.len
      · simp only [if_pos hlen] at hdial ⊢
        exact .inl hdial.le
      · simp only [if_neg hlen] at hdial ⊢
        refine .inr ⟨?_, hdial⟩
        simp only [DialStarts, ht]
        omega
    · have hdial := dialing_setStage ht (.leaseStream targetHost targetPort isUdp) (.opening c s.streams.length)
      have hset : (p.retain.connections.set c (s.lease targetHost targetPort isUdp)).countP (·.pooled) = p.retain.len :=
        countP_pooled_set hs rfl
      exact ⟨rfl, .inr ⟨fun t => by simp, hset.le.trans (retain_len_le p), .inl hdial.le⟩⟩
    · have hdial := dialing_setStage ht (.leaseStream targetHost targetPort isUdp)
        (if p.retain.len < p.maxConnections then .dialing else .ended)
      refine ⟨rfl, .inr ⟨fun t => by simp, retain_len_le p, ?_⟩⟩
      by_cases hlen : p.retain.len < p.maxConnections
      · simp only [if_pos hlen] at hdial
        rw [if_pos hlen]
        refine .inr ⟨?_, hdial⟩
        simp only [DialStarts, ht]
        exact ⟨hc, hlen⟩
      · simp only [if_neg hlen] at hdial
        rw [if_neg hlen]
        exact .inl hdial.le
  | dialed t ok =>
    obtain ⟨call, ht, ⟨rfl, rfl⟩ | ⟨rfl, rfl⟩⟩ := MuxPool.dialed_some h
    · have hdial := dialing_setStage ht call .looking
      refine ⟨rfl, .inl ⟨⟨t, rfl⟩, ?_, hdial⟩⟩
      rw [MuxPool.len, List.countP_append]
      rfl
    · have hdial := dialing_setStage ht call .ended
      exact ⟨rfl, .inr ⟨fun t => by simp, le_refl _, .inl ((Nat.le_succ _).trans hdial.le)⟩⟩
  | poll t =>
    obtain ⟨call, c, i, p₁, ht, h₁, rfl⟩ := MuxPool.poll_some h
    obtain ⟨hmax, hlen, hdial⟩ := opening_len ht h₁ (by simp) (if p₁.returned c i then .ended else .opening c i)
      (by split_ifs <;> simp)
    exact ⟨hmax, .inr ⟨fun t => by simp, hlen.le, .inl hdial.le⟩⟩
  | fail t =>
    obtain ⟨call, c, i, p₁, ht, -, h₁, rfl⟩ := MuxPool.fail_some h
    obtain ⟨hmax, hlen, hdial⟩ := opening_len ht h₁ (by simp) .ended (by simp)
    exact ⟨hmax, .inr ⟨fun t => by simp, hlen.le, .inl hdial.le⟩⟩
  | cancel t =>
    obtain ⟨call, c, i, p₁, ht, h₁, rfl⟩ | ⟨call, ht, rfl⟩ := MuxPool.cancel_some h
    · obtain ⟨hmax, hlen, hdial⟩ := opening_len ht h₁ (by simp) .ended (by simp)
      exact ⟨hmax, .inr ⟨fun t => by simp, hlen.le, .inl hdial.le⟩⟩
    · have hdial := dialing_setStage ht call .ended
      exact ⟨rfl, .inr ⟨fun t => by simp, le_refl _, .inl ((Nat.le_succ _).trans hdial.le)⟩⟩
  | connection c e =>
    obtain ⟨hown, h⟩ := MuxPool.connection_some h
    obtain ⟨hlen, hcalls, hmax⟩ := onConnection_len h (by rintro rfl; exact absurd hown Bool.false_ne_true)
    exact ⟨hmax, .inr ⟨fun t => by simp, hlen.le, .inl (congrArg (List.countP _) hcalls).le⟩⟩
  | dropPool =>
    obtain ⟨-, rfl⟩ := MuxPool.dropPool_some h
    refine ⟨rfl, .inr ⟨fun t => by simp, ?_, .inl le_rfl⟩⟩
    rw [MuxPool.len, List.countP_map, List.countP_eq_zero.mpr (fun s _ => by simp)]
    exact Nat.zero_le _

/-- The pool has no more connections than allowed. -/
def MuxPool.Bounded (p : MuxPool) : Prop := p.len ≤ p.maxConnections

/-- A dial is started only if the connections in the pool and those that are being dialed are fewer than allowed. -/
def DialReserved (p : MuxPool) (e : PoolEvent) : Prop := DialStarts p e → p.len + p.dialing < p.maxConnections

/-- **Dials that count what is being dialed keep the pool small enough**, whatever the order of the steps. -/
theorem mux_pool_bound_of_reserved (minConnections maxConnections : ℕ) (maxStreams : UInt32) (es : List PoolEvent)
    (h : Meets MuxPool.step DialReserved (.start minConnections maxConnections maxStreams) es) :
    Always MuxPool.step MuxPool.Bounded (.start minConnections maxConnections maxStreams) es := by
  refine always_of_meets (I := fun p => p.len + p.dialing ≤ p.maxConnections) (fun p e p' hp hres h => ?_)
    (fun p hp => (Nat.le_add_right _ _).trans hp) (Nat.zero_le _) h
  obtain ⟨hmax, ⟨-, hlen, hdial⟩ | ⟨-, hlen, hdial | ⟨hstart, hdial⟩⟩⟩ := len_step h
  · omega
  · omega
  · have := hres hstart
    omega

/-- Two leases that overlap, in a pool of two. -/
theorem mux_pool_bound_of_two : Always MuxPool.step MuxPool.Bounded (.start 0 2 1)
    [.call (.leaseStream "a" 80 false), .call (.leaseStream "b" 80 false), .look 1, .look 2, .dialed 1 true,
      .dialed 2 true] :=
  mux_pool_bound_of_reserved 0 2 1 _
    ⟨False.elim, False.elim, fun _ => by decide, fun _ => by decide, False.elim, False.elim, trivial⟩

/-- **Overlapping dials exceed the bound**: two leases look at an empty pool before either has dialed. -/
theorem overlapping_dials_exceed :
    ¬ ∀ (minConnections maxConnections : ℕ) (maxStreams : UInt32) (es : List PoolEvent),
      Always MuxPool.step MuxPool.Bounded (.start minConnections maxConnections maxStreams) es := by
  intro hall
  have hrun : (exec MuxPool.step (.start 0 1 1) [.call (.leaseStream "a" 80 false), .call (.leaseStream "b" 80 false),
      .look 1, .look 2, .dialed 1 true, .dialed 2 true]).map (fun p => (p.len, p.maxConnections)) = some (2, 1) := by
    decide
  obtain ⟨p, hp, hsize⟩ := Option.map_eq_some_iff.mp hrun
  obtain ⟨hlen, hmax⟩ := Prod.mk.inj hsize
  have hbound : p.len ≤ p.maxConnections := (hall 0 1 1 _).last hp
  omega

end size

end RXCore
