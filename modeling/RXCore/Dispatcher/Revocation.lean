import RXCore.Dispatcher.Containment

/-!
# Deleted accounts

What the connections of an account still forward once `delete_user` has completed. The deletion takes the
account out of the configuration and the user map, and sends the shutdown signal to the connections that
are registered under its identifier. A connection that is authenticated but not dispatched has no entry
yet, and the tasks of a handler do not see the signal.

* `Revoked`: nothing is forwarded for an account that was deleted before;
* `Stage.Severed`, `Server.Prompt`: what a deletion has to find, and how a signalled connection is polled;
* **`revoked_of_prompt`**: runs whose steps meet this;
* **`forwards_after_deletion`**: a connection that was authenticated before the deletion forwards after it.
-/

set_option autoImplicit false

namespace RXCore

open Arrivals Parties

/-- The accounts that have been deleted. -/
def deletions : List Entry → List String
  | [] => []
  | .forwarded _ _ _ :: log => deletions log
  | .deleted id :: log => id :: deletions log

/-- No byte was forwarded for an account after its deletion. -/
def Revoked : List Entry → Prop
  | [] => True
  | .forwarded _ a e :: log => (e.payload ≠ [] → a.id ∉ deletions log) ∧ Revoked log
  | .deleted _ :: log => Revoked log

instance decidableRevoked : DecidablePred Revoked
  | [] => isTrue trivial
  | .forwarded _ _ _ :: log => @instDecidableAnd _ _ _ (decidableRevoked log)
  | .deleted _ :: log => decidableRevoked log

/-- No task of the handler can take a step. -/
def Relay.TaskFree : Relay → Prop
  | fragment _ _ _ up down => (up.phase matches .ended) = true ∧ down.ended.isSome = true
  | udp r => (∀ e ∈ r.sessions.entries, e.2.receiving = false) ∧ r.queue = []
  | _ => True

/-- A deletion of the account reaches the connection. -/
def EngineState.Reaches (X : Crates) (s : EngineState) (id : String) (connId : Uuid) : Prop :=
  s.signalled connId = true ∨
    (X.parseUuid id).isSome ∧ (s.connectionOf connId).bind (·.userUuid) = X.parseUuid id

/-- A deletion of the account finds the connection, if it is one of the account, registered and without
tasks of its own. -/
def Stage.Severed (X : Crates) (s : EngineState) (id : String) : Stage → Prop
  | authenticated _ a => a.id ≠ id
  | relaying connId a relay => a.id = id → s.Reaches X id connId ∧ relay.TaskFree
  | detached a relay => a.id = id → relay.TaskFree
  | _ => True

/-- No other client is filed under the statistics of the account. -/
def EngineState.Alone (X : Crates) (s : EngineState) (id : String) : Prop :=
  ∀ c ∈ s.config.clients, c.id ≠ id →
    ∀ r ∈ (X.parseUuid c.id).bind (owner s.users), (s.heap r).id ≠ id

/-- What a step has to meet. -/
def Server.Prompt (X : Crates) (v : Server) : ServerAct → Prop
  | .deleteUser id => (∀ stage ∈ v.conns, stage.Severed X v.engine id) ∧ v.engine.Alone X id
  | .poll i first _ => match v.conns[i]? with
    | some (.relaying connId _ _) => v.engine.signalled connId = true → first = true
    | _ => True
  | _ => True

instance (r : Relay) : Decidable r.TaskFree := by
  unfold Relay.TaskFree
  split <;> infer_instance

instance (X : Crates) (s : EngineState) (id : String) (connId : Uuid) :
    Decidable (s.Reaches X id connId) := instDecidableOr

instance (X : Crates) (s : EngineState) (id : String) (stage : Stage) :
    Decidable (stage.Severed X s id) := by
  unfold Stage.Severed
  split <;> infer_instance

instance (X : Crates) (s : EngineState) (id : String) : Decidable (s.Alone X id) :=
  inferInstanceAs (Decidable (∀ c ∈ s.config.clients, c.id ≠ id →
    ∀ r ∈ (X.parseUuid c.id).bind (owner s.users), (s.heap r).id ≠ id))

instance Server.decidablePolled (s : EngineState) (first : Bool) : (stage : Option Stage) → Decidable (match stage with
    | some (.relaying connId _ _) => s.signalled connId = true → first = true
    | _ => True)
  | some (.relaying connId _ _) => inferInstanceAs (Decidable (s.signalled connId = true → first = true))
  | some .header => isTrue trivial
  | some (.authenticated _ _) => isTrue trivial
  | some (.detached _ _) => isTrue trivial
  | some .closed => isTrue trivial
  | none => isTrue trivial

instance (X : Crates) (v : Server) : (a : ServerAct) → Decidable (v.Prompt X a)
  | .deleteUser _ => inferInstanceAs (Decidable (_ ∧ _))
  | .poll i first _ => inferInstanceAs (Decidable (match v.conns[i]? with
    | some (.relaying connId _ _) => v.engine.signalled connId = true → first = true
    | _ => True))
  | .accept => isTrue trivial
  | .authenticate _ _ _ => isTrue trivial
  | .request _ _ => isTrue trivial
  | .task _ _ => isTrue trivial

/-- A connection of a deleted account that can do no more than close. -/
def Stage.Quiet (s : EngineState) (id : String) : Stage → Prop
  | authenticated _ a => a.id ≠ id
  | relaying connId a relay => a.id = id → s.signalled connId = true ∧ relay.TaskFree
  | detached a relay => a.id = id → relay.TaskFree
  | _ => True

/-- An account that is in neither the configuration nor the user map. -/
structure EngineState.Gone (s : EngineState) (id : String) : Prop where
  clients : ∀ c ∈ s.config.clients, c.id ≠ id
  owners : ∀ u r, owner s.users u = some r → (s.heap r).id ≠ id

/-- The invariant. -/
structure Server.Severing (v : Server) : Prop where
  registered : v.Registered
  allocated : ∀ u r, owner v.engine.users u = some r → r < v.engine.nextRef
  gone : ∀ id ∈ deletions v.log, v.engine.Gone id
  quiet : ∀ (i : ℕ) (stage : Stage), v.conns[i]? = some stage → ∀ id ∈ deletions v.log,
    stage.Quiet v.engine id
  revoked : Revoked v.log

/-! ## Identifiers and tasks -/

section

variable {X : Crates} {s : EngineState} {connId : Uuid} {r : Relay} {o : Outcome}

@[simp] theorem countBytes_id (heap : Heap) (stats : Option ℕ) (d : Direction) (n r : ℕ) :
    (countBytes heap stats d n r).id = (heap r).id := by
  unfold countBytes
  split
  · next r' =>
    by_cases h : r = r'
    · subst h
      simp
    · rw [Function.update_of_ne h]
  · rfl

@[simp] theorem Half.store_id (heap : Heap) (user : Option ℕ) (h : Half) (r : ℕ) :
    (h.store heap user r).id = (heap r).id := by
  unfold Half.store
  cases user with
  | none => rfl
  | some r' =>
    cases h.copy.user with
    | none => rfl
    | some u =>
      by_cases h : r = r'
      · subst h
        simp
      · simp [Function.update_of_ne h]

@[simp] theorem Relay.join_id (heap : Heap) (peer : TcpPeer) (header : List UInt8) (stats : Option ℕ)
    (up down : Pipe) (upBytes downBytes : ℕ) (sent : List Egress) (r : ℕ) :
    ((Relay.join heap peer header stats up down upBytes downBytes sent).heap r).id = (heap r).id := by
  unfold Relay.join
  split <;> simp

/-- A step changes no identifier of an account. -/
theorem Relay.step_id {e : RelayEvent} (hs : r.step X s connId e = some o) (ref : ℕ) :
    (o.heap ref).id = (s.heap ref).id := by
  unfold Relay.step at hs
  split at hs
  · split at hs
    · obtain rfl := Option.some.inj hs
      rfl
    · obtain rfl := Option.some.inj hs
      rfl
  · obtain ⟨_, -, rfl⟩ := Option.map_eq_some_iff.mp hs
    simp
  · obtain ⟨_, -, rfl⟩ := Option.map_eq_some_iff.mp hs
    simp
  · split at hs
    · obtain rfl := Option.some.inj hs
      rfl
    · cases hs
  · obtain ⟨_, -, rfl⟩ := Option.map_eq_some_iff.mp hs
    simp
  · obtain ⟨_, -, rfl⟩ := Option.map_eq_some_iff.mp hs
    simp
  · obtain ⟨_, -, rfl⟩ := Option.map_eq_some_iff.mp hs
    simp
  · split at hs
    · obtain rfl := Option.some.inj hs
      rfl
    · cases hs
  · cases hs

theorem Relay.task_id {e : TaskEvent} (hs : r.task s e = some o) (ref : ℕ) :
    (o.heap ref).id = (s.heap ref).id := by
  unfold Relay.task at hs
  split at hs
  · obtain ⟨_, -, rfl⟩ := Option.map_eq_some_iff.mp hs
    simp
  · obtain ⟨_, -, rfl⟩ := Option.map_eq_some_iff.mp hs
    simp
  · obtain ⟨_, -, rfl⟩ := Option.map_eq_some_iff.mp hs
    simp
  · obtain ⟨_, -, rfl⟩ := Option.map_eq_some_iff.mp hs
    rfl
  · cases hs

/-- **A relay without tasks takes no step of a task.** -/
theorem Relay.TaskFree.task_none (h : r.TaskFree) (e : TaskEvent) : r.task s e = none := by
  unfold Relay.task
  split
  · next peer stats settings up down e =>
    have hphase : up.phase = .ended := by
      cases hp : up.phase <;> simp_all [Relay.TaskFree]
    cases e <;> simp [FragmentUp.step, hphase]
  · simp [Pipe.step, h.2]
  · next u key udpBuf remoteAddr writeOk =>
    unfold UdpRelay.receive
    split
    · rfl
    · next session hsession =>
      have hrec : session.receiving = false := h.1 ⟨key, session⟩ (AList.mem_lookup_iff.mp hsession)
      simp [hrec]
  · simp [UdpRelay.write, h.2]
  · rfl

theorem Relay.TaskFree.detach (h : r.TaskFree) : r.detach.TaskFree := by
  cases r <;> exact h

end

/-! ## The deletion -/

section

variable {X : Crates} {s s' : EngineState} {id : String}

/-- The user map after a deletion: every entry is of a client that is left, and leads to statistics that
were under its UUID before or were made for it. -/
theorem deleteUser_owner (h : deleteUser X s id = (s', .done true))
    (hbound : ∀ u r, owner s.users u = some r → r < s.nextRef) {u : Uuid} {r : ℕ}
    (hr : owner s'.users u = some r) : r < s'.nextRef ∧ ∃ c ∈ s.config.clients, c.id ≠ id ∧
      ((∃ w, X.parseUuid c.id = some w ∧ owner s.users w = some r) ∨ (s'.heap r).id = c.id) := by
  obtain ⟨-, husers, hheap, hnext⟩ := deleteUser_maps h
  have hbuilt : Built X s.users s.heap s.nextRef (s.config.clients.filter (·.id != id))
      (mapsWithout X s id) := buildUserMaps_built hbound _
  rw [husers] at hr
  rw [hnext, hheap]
  obtain ⟨c, hc, -, hlocal⟩ := hbuilt.owned u r hr
  obtain ⟨hc, hne⟩ := List.mem_filter.mp hc
  refine ⟨hbuilt.bound c.id r hlocal, c, hc, by simpa using hne, ?_⟩
  obtain ⟨w, hw, hold | ⟨-, -, d, -, hid, hnew⟩⟩ := hbuilt.origin c.id r hlocal
  · exact .inl ⟨w, hw, hold⟩
  · rw [hnew]
    exact .inr hid

/-- **An account that is deleted is gone**, if no other client is filed under it. -/
theorem gone_of_deleteUser (h : deleteUser X s id = (s', .done true))
    (hbound : ∀ u r, owner s.users u = some r → r < s.nextRef) (halone : s.Alone X id) : s'.Gone id where
  clients c hc := by
    rw [(deleteUser_maps h).1] at hc
    simpa using (List.mem_filter.mp hc).2
  owners u r hr := by
    obtain ⟨-, c, hc, hne, ⟨w, hw, hold⟩ | hnew⟩ := deleteUser_owner h hbound hr
    · rw [((deleteUser_kept h).2 r (hbound w r hold)).1]
      exact halone c hc hne r (by simp [hw, hold])
    · rw [hnew]
      exact hne

/-- An account that is gone stays so when another is deleted. -/
theorem EngineState.Gone.deleteUser {id' : String} (hg : s.Gone id)
    (h : deleteUser X s id' = (s', .done true))
    (hbound : ∀ u r, owner s.users u = some r → r < s.nextRef) : s'.Gone id where
  clients c hc := by
    rw [(deleteUser_maps h).1] at hc
    exact hg.clients c (List.mem_filter.mp hc).1
  owners u r hr := by
    obtain ⟨-, c, hc, -, ⟨w, -, hold⟩ | hnew⟩ := deleteUser_owner h hbound hr
    · rw [((deleteUser_kept h).2 r (hbound w r hold)).1]
      exact hg.owners w r hold
    · rw [hnew]
      exact hg.clients c hc

end

/-! ## The server -/

section

variable {X : Crates} {v v' : Server} {id : String}

@[simp] theorem deletions_append (log log' : List Entry) :
    deletions (log ++ log') = deletions log ++ deletions log' := by
  induction log with
  | nil => rfl
  | cons e log ih => cases e <;> simp [deletions, ih]

@[simp] theorem deletions_forwarded (i : ℕ) (a : Identity) (es : List Egress) :
    deletions (es.map (.forwarded i a)).reverse = [] := by
  induction es with
  | nil => rfl
  | cons e es ih => simp [ih, deletions]

/-- What is forwarded for an account that is not deleted. -/
theorem Revoked.forwarded {log : List Entry} (h : Revoked log) {a : Identity} (ha : a.id ∉ deletions log)
    (i : ℕ) (es : List Egress) : Revoked ((es.map (.forwarded i a)).reverse ++ log) := by
  induction es using List.reverseRecOn with
  | nil => exact h
  | append_singleton es e ih =>
    simp only [List.map_append, List.map_cons, List.map_nil, List.reverse_append, List.reverse_cons,
      List.reverse_nil, List.nil_append, List.cons_append]
    exact ⟨fun _ => by simpa using ha, ih⟩

theorem Stage.Quiet.mono {s s' : EngineState} {stage : Stage} (h : stage.Quiet s id)
    (hs : ∀ connId, s.signalled connId = true → s'.signalled connId = true) : stage.Quiet s' id := by
  cases stage with
  | relaying connId a relay => exact fun ha => ⟨hs connId (h ha).1, (h ha).2⟩
  | _ => exact h

/-- A connection changes its stage. -/
theorem Server.Severing.set {i : ℕ} {new : Stage} {engine : EngineState} (h : v.Severing)
    (hreg : Server.Registered { v with engine := engine, conns := v.conns.set i new })
    (husers : engine.users = v.engine.users) (hnext : engine.nextRef = v.engine.nextRef)
    (hheap : ∀ r, (engine.heap r).id = (v.engine.heap r).id)
    (hconfig : engine.config = v.engine.config)
    (hquiet : ∀ (j : ℕ) (stage : Stage), j ≠ i → v.conns[j]? = some stage → ∀ id ∈ deletions v.log,
      stage.Quiet engine id)
    (hnew : ∀ id ∈ deletions v.log, new.Quiet engine id) :
    Server.Severing { v with engine := engine, conns := v.conns.set i new } where
  registered := hreg
  allocated := by
    rw [husers, hnext]
    exact h.allocated
  gone id hid := by
    have hgone := h.gone id hid
    refine ⟨?_, fun u r hr => ?_⟩
    · rw [hconfig]
      exact hgone.clients
    · rw [hheap]
      rw [husers] at hr
      exact hgone.owners u r hr
  quiet j stage hj id hid := by
    rcases getElem?_set_cases hj with ⟨-, rfl⟩ | ⟨hji, hj⟩
    · exact hnew id hid
    · exact hquiet j stage hji hj id hid
  revoked := h.revoked

/-- A connection that is not of a deleted account forwards. -/
theorem Server.Severing.forward {log : List Entry} (h : v.Severing) (hdel : deletions log = deletions v.log)
    (hrev : Revoked log) : Server.Severing { v with log := log } where
  registered := ⟨h.registered.present, h.registered.distinct⟩
  allocated := h.allocated
  gone := by
    rw [hdel]
    exact h.gone
  quiet := by
    rw [hdel]
    exact h.quiet
  revoked := hrev

theorem Server.Severing.apply {i : ℕ} {account : Identity} {stage : Relay → Stage}
    {o : Outcome} (h : v.Severing) (hreg : (v.apply i account stage o).Registered)
    (hheap : ∀ r, (o.heap r).id = (v.engine.heap r).id)
    (halive : account.id ∉ deletions v.log)
    (hnew : ∀ id ∈ deletions v.log, account.id ≠ id → (stage o.relay).Quiet v.engine id) :
    (v.apply i account stage o).Severing := by
  have hne : ∀ id ∈ deletions v.log, account.id ≠ id := fun id hid heq => halive (heq ▸ hid)
  have hset : Server.Severing { v with
      engine := (v.apply i account stage o).engine
      conns := v.conns.set i (stage o.relay) } :=
    h.set ⟨hreg.present, hreg.distinct⟩ rfl rfl hheap rfl
      (fun j st _ hj id hid => (h.quiet j st hj id hid).mono fun _ hc => hc)
      (fun id hid => (hnew id hid (hne id hid)).mono fun _ hc => hc)
  exact hset.forward (by simp) (h.revoked.forwarded halive i o.sent)

theorem signalled_of_deleteUser {s s' : EngineState} (h : deleteUser X s id = (s', .done true))
    {connId : Uuid} (hs : s.Reaches X id connId) : s'.signalled connId = true := by
  unfold EngineState.Reaches EngineState.signalled at hs
  unfold EngineState.signalled
  rw [deleteUser_connectionOf h]
  cases hc : s.connectionOf connId with
  | none => rfl
  | some c =>
    simp only [hc, Option.map_some, Option.bind_some] at hs ⊢
    split_ifs with hif
    · rfl
    · rcases hs with hs | hs
      · exact hs
      · exact absurd hs hif

/-- Another connection is registered under an identifier of its own. -/
theorem signalled_register {s : EngineState} {c : ConnectionInfo} {connId : Uuid} (hne : connId ≠ c.id)
    (hs : s.signalled connId = true) : (s.registerConnection c).signalled connId = true := by
  unfold EngineState.signalled at hs ⊢
  rw [EngineState.connectionOf_register_ne _ hne]
  exact hs

/-- A connection that is not registered counts as signalled. -/
theorem signalled_deregister {s : EngineState} (id : Uuid) {connId : Uuid} (hs : s.signalled connId = true) :
    (s.deregisterConnection id).signalled connId = true := by
  by_cases hid : connId = id
  · subst hid
    have hnone : (s.deregisterConnection connId).connectionOf connId = none := by
      simp [EngineState.connectionOf, EngineState.deregisterConnection]
    simp [EngineState.signalled, hnone]
  · unfold EngineState.signalled at hs ⊢
    rw [EngineState.connectionOf_deregister_ne _ hid]
    exact hs

/-- A client that is let in owns its account. -/
theorem owner_of_authenticateClient {s : EngineState} {now : ℤ} {u : Uuid} {r : ℕ} {mode : ClientRouteMode}
    (h : s.authenticateClient now u = some (r, mode)) : owner s.users u = some r := by
  unfold EngineState.authenticateClient at h
  split at h
  · cases h
  · next r' mode' hlookup =>
    dsimp only at h
    split_ifs at h
    obtain ⟨rfl, -⟩ := Prod.mk.inj (Option.some.inj h)
    simp [owner, hlookup]

/-- **Each part of a step** keeps the invariant. -/
theorem Server.Severing.part {a : ServerAct} (h : v.Severing) (hC : v.Prompt X a) (hp : Part X v a v') :
    v'.Severing := by
  have hreg := h.registered.part hp
  cases hp with
  | accept =>
    refine ⟨hreg, h.allocated, h.gone, fun i stage hi id hid => ?_, h.revoked⟩
    by_cases hlt : i < v.conns.length
    · rw [List.getElem?_append_left hlt] at hi
      exact h.quiet i stage hi id hid
    · rw [List.getElem?_append_right (by omega)] at hi
      obtain rfl := List.mem_singleton.mp (List.mem_of_getElem? hi)
      trivial
  | reject hi hs =>
    exact h.set hreg rfl rfl (fun _ => rfl) rfl (fun j st _ hj => h.quiet j st hj) fun _ _ => trivial
  | @authenticate i userUuid now r mode hi hr =>
    refine h.set hreg rfl rfl (fun _ => rfl) rfl (fun j st _ hj => h.quiet j st hj) fun id hid => ?_
    exact (h.gone id hid).owners userUuid r (owner_of_authenticateClient hr)
  | @launch i q userUuid account engine relay hi hfresh hd =>
    obtain ⟨tag, config, handler, -, -, -, rfl, -⟩ := dispatchConnection_engine hd
    refine h.set hreg rfl rfl (fun _ => rfl) rfl (fun j st _ hj id hid => ?_) fun id hid ha => ?_
    · have hquiet := h.quiet j st hj id hid
      cases st with
      | relaying connId a r =>
        -- the identifier of the new connection is not in use
        have hne : connId ≠ q.connId := by
          rintro rfl
          have := h.registered.present j q.connId (Server.idOf_relaying hj)
          simp [hfresh] at this
        exact fun ha => ⟨signalled_register hne (hquiet ha).1, (hquiet ha).2⟩
      | _ => exact hquiet
    · exact absurd ha (h.quiet i _ hi id hid)
  | @handler i first connId account relay e o hi hsignal ho =>
    have halive : account.id ∉ deletions v.log := fun hid => by
      have hsig := (h.quiet i _ hi _ hid rfl).1
      have hfirst : first = false := hsignal hsig
      simp only [Server.Prompt, hi] at hC
      exact absurd (hC hsig) (by simp [hfirst])
    exact h.apply hreg (Relay.step_id ho) halive fun id hid hne ha => absurd ha hne
  | @close i first events connId account relay hi =>
    refine h.set hreg rfl rfl (fun _ => rfl) rfl (fun j st _ hj id hid => ?_) fun id hid ha => ?_
    · exact (h.quiet j st hj id hid).mono fun c hc => signalled_deregister connId hc
    · exact (h.quiet i _ hi id hid ha).2.detach
  | @task i e connId account relay o hi ho =>
    have halive : account.id ∉ deletions v.log := fun hid => by
      have hfree := (h.quiet i _ hi _ hid rfl).2
      rw [hfree.task_none] at ho
      cases ho
    exact h.apply hreg (Relay.task_id ho) halive fun id hid hne ha => absurd ha hne
  | @taskDetached i e account relay o hi ho =>
    have halive : account.id ∉ deletions v.log := fun hid => by
      have hfree : relay.TaskFree := h.quiet i _ hi _ hid rfl
      rw [hfree.task_none] at ho
      cases ho
    exact h.apply hreg (Relay.task_id ho) halive fun id hid hne ha => absurd ha hne
  | @deleted id engine hd =>
    obtain ⟨hsevered, halone⟩ := hC
    refine ⟨hreg, fun u r hr => (deleteUser_owner hd h.allocated hr).1, fun id' hid => ?_,
      fun i stage hi id' hid => ?_, h.revoked⟩
    · rcases List.mem_cons.mp hid with rfl | hid
      · exact gone_of_deleteUser hd h.allocated halone
      · exact (h.gone id' hid).deleteUser hd h.allocated
    · rcases List.mem_cons.mp hid with rfl | hid
      · have hs := hsevered stage (List.mem_of_getElem? hi)
        cases stage with
        | relaying connId a relay =>
          exact fun ha => ⟨signalled_of_deleteUser hd (hs ha).1, (hs ha).2⟩
        | _ => exact hs
      · exact (h.quiet i stage hi id' hid).mono fun c hc => signalled_of_deleteUser hd (.inl hc)
  | refused => exact h

theorem Server.Severing.step {a : ServerAct} (h : v.Severing) (hC : v.Prompt X a)
    (hs : serverStep X v a = some v') : v'.Severing := by
  refine serverStep_invariant (C := Server.Prompt X) (fun _ _ _ hI hC hp => hI.part hC hp) ?_ h hC hs
  intro i first e events w w' hC hstep
  refine ⟨hC, ?_⟩
  have hsame := Server.handlerStep_sameIds (v := w) ⟨rfl, fun _ => rfl⟩ hstep
  simp only [Server.Prompt] at hC ⊢
  split
  · next connId account relay hi =>
    have hid := hsame.ids i
    rw [Server.idOf_relaying hi] at hid
    obtain ⟨account', relay', hi'⟩ := Server.relaying_of_idOf hid.symm
    simp only [hi'] at hC
    intro hsig
    refine hC ?_
    simpa [EngineState.signalled, EngineState.connectionOf, hsame.registry] using hsig
  · trivial

/-- **Revocation**: in a run in which every deletion finds the connections of its account registered and
without tasks of their own, and a signalled connection is polled for its signal first, no account forwards
a byte after its deletion. -/
theorem revoked_of_prompt (hbound : ∀ u r, owner v.engine.users u = some r → r < v.engine.nextRef)
    (hconns : v.conns = []) (hlog : v.log = []) {as : List ServerAct}
    (h : Run.Meets (serverStep X) (Server.Prompt X) v as) :
    Run.Always (serverStep X) (fun w => Revoked w.log) v as := by
  have hid : ∀ i, v.idOf i = none := fun i => by simp [Server.idOf, hconns]
  refine Run.always_of_meets (I := Server.Severing) (fun w a w' hI hC hs => hI.step hC hs) (fun w hI => hI.revoked) ?_ h
  refine ⟨⟨fun i c hi => ?_, fun i j c hi => ?_⟩, hbound, ?_, ?_, ?_⟩
  · rw [hid] at hi
    cases hi
  · rw [hid] at hi
    cases hi
  · simp [hlog, deletions]
  · simp [hconns]
  · rw [hlog]
    trivial

/-! ## Runs with a deletion -/

/-- The identifier of the built-in account. -/
def builtInId : String := "ad60c2b2-cc0c-492a-89aa-c92330a10cc9"

/-- The theorem on a connection that forwards a byte, is disconnected by the deletion of its account and
polled once more. -/
theorem revoked_of_prompt_run :
    Run.Always (serverStep Sample.crates) (fun w => Revoked w.log) (Server.start builtInConfig)
      (oneConnection builtInUuid toWeb forwardOnce ++ [.deleteUser builtInId, .poll 0 true []]) :=
  revoked_of_prompt (new_bound _ _) rfl rfl (by decide)

/-- A connection is authenticated, its account deleted, and its request dispatched. -/
def lateRun : Server :=
  (Run.exec (serverStep Sample.crates) (Server.start builtInConfig)
    [.accept, .authenticate 0 builtInUuid 0, .deleteUser builtInId, .request 0 toWeb,
      .poll 0 false (.connect sampleConnect :: forwardOnce)]).get (by decide)

/-- **A byte after the deletion** of the account. -/
theorem forwards_after_deletion :
    Run.Reachable (serverStep Sample.crates) (Server.start builtInConfig) lateRun ∧ ¬ Revoked lateRun.log :=
  ⟨⟨_, (Option.some_get _).symm⟩, by decide⟩

end

end RXCore
