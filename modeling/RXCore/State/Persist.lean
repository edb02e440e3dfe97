import RXCore.State.Engine

/-!
# The persistence worker

What `start_persistence_worker` does with the requests in its queue, up to the configuration that it
writes.

* `Client.withSnapshot`, `PersistRequest.merged`, `PersistRequest.changed`: the configuration that a
  request asks for, and whether the worker writes it;
* `newest`: the request that is left after the queue is drained;
* `EngineState.rendered`: the configuration with the current counters of every account;
* **`persist_merged`**: a request made in a coherent state asks for just that.
-/

set_option autoImplicit false

namespace RXCore

/-- The saved fields of a client, from a snapshot. -/
def Client.withSnapshot (c : Client) (u : UserSnapshot) : Client :=
  { c with
    remainingGb := bytesToGb u.remainingBytes
    totalGb := totalToConfig u.totalGb
    rx := some u.rx
    tx := some u.tx }

/-- A saved field of a client differs from the snapshot. -/
def Client.differs (c : Client) (u : UserSnapshot) : Bool :=
  c.remainingGb != bytesToGb u.remainingBytes || c.totalGb != totalToConfig u.totalGb ||
    c.rx != some u.rx || c.tx != some u.tx

/-- A client of a request, with the snapshot under its identifier if there is one. -/
def PersistRequest.mergeClient (req : PersistRequest) (c : Client) : Client :=
  match req.userSnapshots.lookup c.id with
  | some u => c.withSnapshot u
  | none => c

/-- The configuration that a request asks for. -/
def PersistRequest.merged (req : PersistRequest) : Config := req.config.mapClients req.mergeClient

/-- The worker's flag `changed`: it writes only if some saved field has changed. -/
def PersistRequest.changed (req : PersistRequest) : Bool :=
  req.config.clients.any fun c => match req.userSnapshots.lookup c.id with
    | some u => c.differs u
    | none => false

/-- The request with the highest generation of those taken from the queue. -/
def newest (req : PersistRequest) (rest : List PersistRequest) : PersistRequest :=
  rest.foldl (fun latest next => if latest.generation < next.generation then next else latest) req

/-- The configuration with the current counters of every account. -/
def EngineState.rendered (X : Crates) (s : EngineState) : Config :=
  s.config.mapClients fun c => match (X.parseUuid c.id).bind (owner s.users) with
    | some r => c.withSnapshot (s.heap r).snapshot
    | none => c

theorem PersistRequest.mergeClient_id (req : PersistRequest) (c : Client) :
    (req.mergeClient c).id = c.id := by
  rw [mergeClient]
  split <;> rfl

theorem PersistRequest.mergeClient_claims (X : Crates) (req : PersistRequest) (c : Client) :
    (req.mergeClient c).claims X = c.claims X := by
  rw [mergeClient]
  split <;> rfl

/-! ## Snapshots -/

section

variable {α : Type*} {β γ : Type} [DecidableEq β] {key : α → β} {val : α → γ} {b : β}

theorem lookup_foldl_insert {v : γ} {es : List α} {m : AList fun _ : β => γ}
    (h : ∀ e ∈ es, key e = b → val e = v) (hb : m.lookup b = some v ∨ ∃ e ∈ es, key e = b) :
    (es.foldl (fun m e => m.insert (key e) (val e)) m).lookup b = some v := by
  induction es generalizing m with
  | nil => exact hb.resolve_right fun ⟨e, he, _⟩ => absurd he List.not_mem_nil
  | cons e es ih =>
    refine ih (fun d hd => h d (List.mem_cons_of_mem _ hd)) ?_
    by_cases he : key e = b
    · left
      rw [← he, AList.lookup_insert, h e List.mem_cons_self he]
    · rw [AList.lookup_insert_ne (Ne.symm he)]
      refine hb.imp_right fun ⟨d, hd, hdb⟩ => ?_
      rcases List.mem_cons.mp hd with rfl | hd
      · exact absurd hdb he
      · exact ⟨d, hd, hdb⟩

theorem lookup_foldl_insert_of_ne {es : List α} {m : AList fun _ : β => γ} (h : ∀ e ∈ es, key e ≠ b) :
    (es.foldl (fun m e => m.insert (key e) (val e)) m).lookup b = m.lookup b := by
  induction es generalizing m with
  | nil => rfl
  | cons e es ih =>
    refine (ih fun d hd => h d (List.mem_cons_of_mem _ hd)).trans ?_
    exact AList.lookup_insert_ne (Ne.symm (h e List.mem_cons_self))

end

theorem owner_of_mem_entries {users : UserMap} {e : Σ _ : Uuid, ℕ × ClientRouteMode}
    (h : e ∈ users.entries) : owner users e.1 = some e.2.1 := by
  have h : users.lookup e.1 = some e.2 := AList.mem_lookup_iff.mpr h
  rw [owner, h, Option.map_some]

theorem mem_entries_of_owner {users : UserMap} {u : Uuid} {r : ℕ} (h : owner users u = some r) :
    ∃ e ∈ users.entries, e.2.1 = r := by
  obtain ⟨e, he, rfl⟩ := Option.map_eq_some_iff.mp h
  exact ⟨⟨u, e⟩, AList.mem_lookup_iff.mp he, rfl⟩

/-- The snapshot under an identifier, if only one reference carries it. -/
theorem userSnapshots_lookup {s : EngineState} {u : Uuid} {r : ℕ} (hr : owner s.users u = some r)
    (honly : ∀ v r', owner s.users v = some r' → (s.heap r').id = (s.heap r).id → r' = r) :
    s.userSnapshots.lookup (s.heap r).id = some (s.heap r).snapshot := by
  refine lookup_foldl_insert (fun e he hid => ?_) (.inr ?_)
  · rw [honly e.1 e.2.1 (owner_of_mem_entries he) hid]
  · obtain ⟨e, he, her⟩ := mem_entries_of_owner hr
    exact ⟨e, he, by rw [her]⟩

theorem userSnapshots_none {s : EngineState} {id : String}
    (h : ∀ u r, owner s.users u = some r → (s.heap r).id ≠ id) : s.userSnapshots.lookup id = none := by
  refine (lookup_foldl_insert_of_ne fun e he => ?_).trans rfl
  exact h e.1 e.2.1 (owner_of_mem_entries he)

/-- **A request made in a coherent state asks for the current counters of every account.** -/
theorem persist_merged {X : Crates} {s : EngineState} (hs : Coherent X s)
    (hd : Distinct X s.config.clients) (gen : ℕ) :
    (PersistRequest.mk gen s.config s.userSnapshots).merged = s.rendered X := by
  refine Config.mapClients_congr fun c hc => ?_
  rw [PersistRequest.mergeClient]
  dsimp only
  cases hp : X.parseUuid c.id with
  | none =>
    have hnone : s.userSnapshots.lookup c.id = none := userSnapshots_none fun u r h hid => by
      have := hs.ref_eq h
      rw [hid, hp] at this
      exact Option.some_ne_none r this.symm
    rw [hnone]
    rfl
  | some v =>
    have hv := Client.mem_claims_self hp
    obtain ⟨r, hr⟩ := hs.found c hc v hv
    have hid := hs.id_eq hd hc hv hr
    have hsnap : s.userSnapshots.lookup c.id = some (s.heap r).snapshot := by
      rw [← hid]
      refine userSnapshots_lookup hr fun w r' h hid' => ?_
      have h' := hs.ref_eq h
      rw [hid', hid, hp] at h'
      exact Option.some.inj (h'.symm.trans hr)
    rw [hsnap]
    change _ = match owner s.users v with
      | some r => c.withSnapshot (s.heap r).snapshot
      | none => c
    rw [hr]

end RXCore
