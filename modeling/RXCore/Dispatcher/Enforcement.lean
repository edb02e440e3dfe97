import RXCore.Dispatcher.Containment

/-!
# The quota over all traffic

What is forwarded for the connections of one account, against the bytes that it has left. A relay of
protocol `freedom` reserves before it writes; all other relays only count.

* `forwardedOf`: the payload of all that was forwarded for an account;
* `Relay.reserved`, `Relay.Pays`, `Relay.Charged`: what a relay holds of a quota, and who pays for it;
* **`Relay.step_pays`**: a step forwards and holds no more than it takes from the quota;
* **`forwardedOf_le_quota`**: runs in which every relay of the account pays;
* **`datagram_exceeds_quota`**: a datagram leaves although the quota is used up.
-/

set_option autoImplicit false

namespace RXCore

open Arrivals Parties

/-- The bytes of payload in some traffic. -/
def payloadBytes (es : List Egress) : ℕ := (es.map fun e => e.payload.length).sum

/-- The bytes that have been forwarded for an account. -/
def forwardedOf (r : ℕ) : List Entry → ℕ
  | [] => 0
  | .forwarded _ a e :: log => (if a.ref = r then e.payload.length else 0) + forwardedOf r log
  | .deleted _ :: log => forwardedOf r log

/-- The bytes that a relay has reserved of an account and not written yet. -/
def Relay.reserved (r : ℕ) : Relay → ℕ
  | freedom _ user _ up down => if user = some r then up.outstanding + down.outstanding else 0
  | _ => 0

def Stage.reserved (r : ℕ) : Stage → ℕ
  | relaying _ _ relay => relay.reserved r
  | detached _ relay => relay.reserved r
  | _ => 0

/-- The account from which a relay reserves. -/
def Relay.payer : Relay → Option ℕ
  | freedom _ user _ _ _ => user
  | _ => none

/-- A relay that has found the account reserves from it. -/
def Relay.Pays (r : ℕ) : Relay → Prop
  | freedom _ user kind _ _ => user = some r → kind.metered = true
  | _ => True

/-- A relay that forwards nothing, or reserves from the account. -/
def Relay.Charged (r : ℕ) : Relay → Prop
  | starting (.freedom _ _) _ _ _ => True
  | starting .blackhole _ _ _ => True
  | freedom _ user _ _ _ => user = some r
  | ended => True
  | _ => False

/-- The account that a connection finds under the UUID of its entry in the registry. -/
def EngineState.payerOf (s : EngineState) (connId : Uuid) : Option ℕ :=
  ((s.connectionOf connId).bind (·.userUuid)).bind (owner s.users)

/-- A relay that connects finds the account. -/
def Relay.Finds (r : ℕ) (s : EngineState) (connId : Uuid) : Relay → RelayEvent → Prop
  | starting (.freedom _ _) _ _ _, .connect _ => s.payerOf connId = some r
  | _, _ => True

/-! ## Steps of a relay -/

section

variable {X : Crates} {s : EngineState} {connId : Uuid} {ref : ℕ} {r : Relay} {o : Outcome}

@[simp] theorem payloadBytes_nil : payloadBytes [] = 0 := rfl

@[simp] theorem payloadBytes_forwardTcp (peer : TcpPeer) (d : Direction) (bytes : List UInt8) :
    payloadBytes (forwardTcp peer d bytes) = bytes.length := by
  unfold forwardTcp
  split_ifs with h
  · simp [h]
  · cases d <;> simp [payloadBytes, Egress.payload]

@[simp] theorem countBytes_remaining (heap : Heap) (stats : Option ℕ) (d : Direction) (n r : ℕ) :
    (countBytes heap stats d n r).remainingBytes = (heap r).remainingBytes := by
  unfold countBytes
  split
  · next r' =>
    by_cases h : r = r'
    · subst h
      simp
    · rw [Function.update_of_ne h]
  · rfl

theorem Relay.reserved_freedom (peer : TcpPeer) (user : Option ℕ) (kind : Kind) (up down : Half) :
    (Relay.freedom peer user kind up down).reserved ref =
      if user = some ref then up.outstanding + down.outstanding else 0 := rfl

/-- A handler starts without reservations. -/
theorem Handler.start_pays {h : Handler} {c : Connect} {t : Target} {client : List (Arrival UInt8)}
    {email : Option String} (hrem : 0 ≤ (s.heap ref).remainingBytes)
    (hs : h.start X s connId c t client email = .ok r) : r.Pays ref ∧ r.reserved ref = 0 := by
  cases h with
  | freedom outboundProxy bindAddress =>
    simp only [Handler.start, bind_ok] at hs
    obtain ⟨peer, -, hs⟩ := hs
    obtain rfl := Except.ok.inj hs
    refine ⟨fun huser => ?_, by simp [startFreedom, Relay.reserved, Half.start, Half.outstanding]⟩
    have hne : (s.heap ref).remainingBytes ≠ -1 := by omega
    rw [huser, copyKind]
    split
    · rfl
    · simpa using hne
  | fragment settings =>
    simp only [Handler.start, bind_ok] at hs
    obtain ⟨-, -, addr, -, hs⟩ := hs
    obtain rfl := Except.ok.inj hs
    exact ⟨trivial, rfl⟩
  | vless config isUdp outboundProxy bindAddress =>
    simp only [Handler.start, bind_ok] at hs
    obtain ⟨-, -, peer, -, header, -, hs⟩ := hs
    obtain rfl := Except.ok.inj hs
    exact ⟨trivial, rfl⟩
  | udp outbound =>
    simp only [Handler.start, bind_ok] at hs
    obtain ⟨u, -, hs⟩ := hs
    obtain rfl := Except.ok.inj hs
    exact ⟨trivial, rfl⟩
  | blackhole =>
    obtain rfl := Except.ok.inj hs
    exact ⟨trivial, rfl⟩

/-- One direction of a relay and the account: what it forwards and holds is taken from the quota. -/
theorem Half.step_store {user : Option ℕ} {k : Kind} {d : Direction} {h h' : Half} {e : HalfEvent}
    {bytes : List UInt8} {heap : Heap} (hk : user = some ref → k.metered = true)
    (hrem : 0 ≤ (heap ref).remainingBytes) (hs : (h.load heap user).step k d e = some (h', bytes)) :
    0 ≤ (h'.store heap user ref).remainingBytes ∧
      ((if user = some ref then bytes.length + h'.outstanding else 0 : ℕ) : ℤ) +
        (h'.store heap user ref).remainingBytes ≤
      (if user = some ref then h.outstanding else 0 : ℕ) + (heap ref).remainingBytes := by
  by_cases huser : user = some ref
  · subst huser
    obtain ⟨u', hu', hnonneg, hsum⟩ :=
      Half.step_conserves (h := h.load heap (some ref)) (u := heap ref) (hk rfl) rfl hrem hs
    have hstore : (h'.store heap (some ref) ref).remainingBytes = u'.remainingBytes := by
      simp [Half.store, hu']
    have hload : (h.load heap (some ref)).outstanding = h.outstanding := rfl
    rw [hstore, if_pos rfl, if_pos rfl]
    rw [hload] at hsum
    exact ⟨hnonneg, by push_cast; omega⟩
  · have hstore : h'.store heap user ref = heap ref := by
      unfold Half.store
      cases user with
      | none => rfl
      | some r' =>
        have hne : ref ≠ r' := fun h => huser (by rw [h])
        cases h'.copy.user with
        | none => rfl
        | some u' => exact Function.update_of_ne hne _ _
    rw [hstore, if_neg huser, if_neg huser]
    exact ⟨hrem, le_rfl⟩

theorem Relay.select_pays (ref : ℕ) {peer : TcpPeer} {user : Option ℕ} {kind : Kind} (up down : Half)
    (h : user = some ref → kind.metered = true) : (Relay.select peer user kind up down).Pays ref ∧
      (Relay.select peer user kind up down).reserved ref ≤
        if user = some ref then up.outstanding + down.outstanding else 0 := by
  unfold Relay.select
  split
  · exact ⟨trivial, Nat.zero_le _⟩
  · exact ⟨trivial, Nat.zero_le _⟩
  · exact ⟨h, le_rfl⟩

theorem Relay.join_pays (ref : ℕ) (heap : Heap) (peer : TcpPeer) (header : List UInt8) (stats : Option ℕ)
    (up down : Pipe) (upBytes downBytes : ℕ) (sent : List Egress) :
    (Relay.join heap peer header stats up down upBytes downBytes sent).relay.Pays ref ∧
    (Relay.join heap peer header stats up down upBytes downBytes sent).relay.reserved ref = 0 ∧
    ((Relay.join heap peer header stats up down upBytes downBytes sent).heap ref).remainingBytes =
      (heap ref).remainingBytes := by
  unfold Relay.join
  split
  · exact ⟨trivial, rfl, rfl⟩
  · exact ⟨trivial, rfl, rfl⟩
  · exact ⟨trivial, rfl, by simp⟩
  · exact ⟨trivial, rfl, rfl⟩

/-- What a step leaves of the account and has forwarded on it, against the state before. -/
structure Relay.Paid (ref : ℕ) (heap : Heap) (r : Relay) (o : Outcome) : Prop where
  pays : o.relay.Pays ref
  nonneg : 0 ≤ (o.heap ref).remainingBytes
  le : ((if r.payer = some ref then payloadBytes o.sent else 0 : ℕ) : ℤ) + o.relay.reserved ref +
    (o.heap ref).remainingBytes ≤ r.reserved ref + (heap ref).remainingBytes

/-- A step that leaves the quota alone, of a relay that does not pay. -/
theorem Relay.Paid.of_eq (hpayer : r.payer ≠ some ref) (hpays : o.relay.Pays ref)
    (hreserved : o.relay.reserved ref = 0) (hrem : 0 ≤ (s.heap ref).remainingBytes)
    (heq : (o.heap ref).remainingBytes = (s.heap ref).remainingBytes) : r.Paid ref s.heap o where
  pays := hpays
  nonneg := heq ▸ hrem
  le := by
    rw [if_neg hpayer, hreserved, heq]
    push_cast
    omega

/-- **A step of a handler** forwards and holds no more of an account than it takes from it. -/
theorem Relay.step_pays {e : RelayEvent} (h : r.Pays ref) (hrem : 0 ≤ (s.heap ref).remainingBytes)
    (hs : r.step X s connId e = some o) : r.Paid ref s.heap o := by
  unfold Relay.step at hs
  split at hs
  · split at hs
    · next hstart =>
      obtain rfl := Option.some.inj hs
      obtain ⟨hpays, hreserved⟩ := Handler.start_pays hrem hstart
      exact .of_eq (by simp [payer]) hpays hreserved hrem rfl
    · obtain rfl := Option.some.inj hs
      exact .of_eq (by simp [payer]) trivial rfl hrem rfl
  · obtain ⟨⟨up, bytes⟩, hstep, rfl⟩ := Option.map_eq_some_iff.mp hs
    obtain ⟨hnonneg, hle⟩ := Half.step_store h hrem hstep
    obtain ⟨hpays, hreserved⟩ := Relay.select_pays ref up _ h
    refine ⟨hpays, hnonneg, ?_⟩
    simp only [payer, reserved_freedom, payloadBytes_forwardTcp]
    split_ifs at * <;> push_cast at * <;> omega
  · obtain ⟨⟨down, bytes⟩, hstep, rfl⟩ := Option.map_eq_some_iff.mp hs
    obtain ⟨hnonneg, hle⟩ := Half.step_store h hrem hstep
    obtain ⟨hpays, hreserved⟩ := Relay.select_pays ref _ down h
    refine ⟨hpays, hnonneg, ?_⟩
    simp only [payer, reserved_freedom, payloadBytes_forwardTcp]
    split_ifs at * <;> push_cast at * <;> omega
  · split at hs
    · obtain rfl := Option.some.inj hs
      refine ⟨trivial, hrem, ?_⟩
      simp only [payloadBytes_nil, ite_self]
      have hended : Relay.ended.reserved ref = 0 := rfl
      omega
    · cases hs
  · obtain ⟨⟨up, bytes, n⟩, -, rfl⟩ := Option.map_eq_some_iff.mp hs
    obtain ⟨hpays, hreserved, heq⟩ := Relay.join_pays ref ..
    exact .of_eq (by simp [payer]) hpays hreserved hrem heq
  · obtain ⟨⟨down, bytes, n⟩, -, rfl⟩ := Option.map_eq_some_iff.mp hs
    obtain ⟨hpays, hreserved, heq⟩ := Relay.join_pays ref ..
    exact .of_eq (by simp [payer]) hpays hreserved hrem heq
  · obtain ⟨⟨r', sent⟩, -, rfl⟩ := Option.map_eq_some_iff.mp hs
    exact .of_eq (by simp [payer]) trivial rfl hrem (by simp)
  · split at hs
    · obtain rfl := Option.some.inj hs
      exact .of_eq (by simp [payer]) trivial rfl hrem rfl
    · cases hs
  · cases hs

/-- A step of a task does not touch the quota. -/
theorem Relay.task_pays {e : TaskEvent} (hrem : 0 ≤ (s.heap ref).remainingBytes)
    (hs : r.task s e = some o) : r.Paid ref s.heap o := by
  unfold Relay.task at hs
  split at hs
  · obtain ⟨⟨up, bytes, n⟩, -, rfl⟩ := Option.map_eq_some_iff.mp hs
    exact .of_eq (by simp [payer]) trivial rfl hrem (by simp)
  · obtain ⟨⟨down, bytes, n⟩, -, rfl⟩ := Option.map_eq_some_iff.mp hs
    exact .of_eq (by simp [payer]) trivial rfl hrem (by simp)
  · obtain ⟨⟨r', sent, n⟩, -, rfl⟩ := Option.map_eq_some_iff.mp hs
    exact .of_eq (by simp [payer]) trivial rfl hrem (by simp)
  · obtain ⟨⟨r', sent⟩, -, rfl⟩ := Option.map_eq_some_iff.mp hs
    exact .of_eq (by simp [payer]) trivial rfl hrem rfl
  · cases hs

theorem Relay.detach_pays (ref : ℕ) (r : Relay) : r.detach.Pays ref ∧ r.detach.reserved ref = 0 := by
  cases r <;> exact ⟨trivial, rfl⟩

theorem Handler.start_charged {h : Handler} {c : Connect} {t : Target} {client : List (Arrival UInt8)}
    {email : Option String} (hh : (Relay.starting h t client email).Charged ref)
    (hfinds : (Relay.starting h t client email).Finds ref s connId (.connect c))
    (hs : h.start X s connId c t client email = .ok r) : r.Charged ref := by
  cases h with
  | freedom outboundProxy bindAddress =>
    simp only [Handler.start, bind_ok] at hs
    obtain ⟨peer, -, hs⟩ := hs
    obtain rfl := Except.ok.inj hs
    exact hfinds
  | blackhole =>
    obtain rfl := Except.ok.inj hs
    trivial
  | _ => exact hh.elim

/-- **A relay that is charged stays so**, and forwards only what it pays for. -/
theorem Relay.step_charged {e : RelayEvent} (h : r.Charged ref) (hfinds : r.Finds ref s connId e)
    (hs : r.step X s connId e = some o) : o.relay.Charged ref ∧ (r.payer = some ref ∨ o.sent = []) := by
  have hselect : ∀ (peer : TcpPeer) (kind : Kind) (up down : Half),
      (Relay.select peer (some ref) kind up down).Charged ref := by
    intro peer kind up down
    unfold Relay.select
    split
    · trivial
    · trivial
    · rfl
  unfold Relay.step at hs
  split at hs
  · split at hs
    · next hstart =>
      obtain rfl := Option.some.inj hs
      exact ⟨Handler.start_charged h hfinds hstart, .inr rfl⟩
    · obtain rfl := Option.some.inj hs
      exact ⟨trivial, .inr rfl⟩
  · obtain rfl : _ = some ref := h
    obtain ⟨⟨up, bytes⟩, -, rfl⟩ := Option.map_eq_some_iff.mp hs
    exact ⟨hselect .., .inl rfl⟩
  · obtain rfl : _ = some ref := h
    obtain ⟨⟨down, bytes⟩, -, rfl⟩ := Option.map_eq_some_iff.mp hs
    exact ⟨hselect .., .inl rfl⟩
  · split at hs
    · obtain rfl := Option.some.inj hs
      exact ⟨trivial, .inl h⟩
    · cases hs
  all_goals first | exact h.elim | cases hs

theorem Relay.task_charged {e : TaskEvent} (h : r.Charged ref) (hs : r.task s e = some o) : False := by
  unfold Relay.task at hs
  split at hs
  all_goals first | exact h.elim | cases hs

theorem Relay.detach_charged (h : r.Charged ref) : r.detach.Charged ref := by
  cases r <;> first | exact h.elim | trivial

end

/-! ## The server -/

@[simp] theorem forwardedOf_append (r : ℕ) (log log' : List Entry) :
    forwardedOf r (log ++ log') = forwardedOf r log + forwardedOf r log' := by
  induction log with
  | nil => simp [forwardedOf]
  | cons e log ih =>
    cases e with
    | forwarded i a e =>
      simp only [List.cons_append, forwardedOf, ih]
      omega
    | deleted id => exact ih

@[simp] theorem forwardedOf_forwarded (r i : ℕ) (a : Identity) (es : List Egress) :
    forwardedOf r (es.map (.forwarded i a)).reverse = if a.ref = r then payloadBytes es else 0 := by
  induction es with
  | nil => simp [forwardedOf]
  | cons e es ih =>
    simp only [List.map_cons, List.reverse_cons, forwardedOf_append, ih, forwardedOf, payloadBytes,
      List.sum_cons]
    split_ifs <;> omega

/-- The relay of a stage, with the account of the connection. -/
def Stage.relay : Stage → Option (Identity × Relay)
  | relaying _ account relay => some (account, relay)
  | detached account relay => some (account, relay)
  | _ => none

/-- The handlers that reserve or forward nothing. -/
def Handler.Metered : Handler → Prop
  | freedom _ _ => True
  | blackhole => True
  | _ => False

/-- The handler to which a request of a user leads. -/
def handlerFor (X : Crates) (s : EngineState) (userUuid : Uuid) (q : InboundRequest) : Option Handler := do
  let outboundTag ← routeOf X s userUuid q
  let config ← outboundConfigOf s outboundTag
  (handlerOf config (q.cmd == 2)).toOption

/-- The handler of a connection of the account finds the account when it connects. -/
def Server.Connects (r i : ℕ) (v : Server) (e : RelayEvent) : Prop :=
  match v.conns[i]? with
  | some (.relaying connId account relay) => account.ref = r → relay.Finds r v.engine connId e
  | _ => True

/-- What a step has to meet for the quota of an account: a request of a connection of the account leads
to a handler that reserves, and this handler finds the account when it connects. -/
def Server.Enforces (X : Crates) (r : ℕ) (v : Server) : ServerAct → Prop
  | .request i q => match v.conns[i]? with
    | some (.authenticated userUuid account) =>
      account.ref = r → ∀ handler ∈ handlerFor X v.engine userUuid q, handler.Metered
    | _ => True
  | .poll i _ events => Run.Meets (handlerStep X i) (Server.Connects r i) v events
  | _ => True

instance (h : Handler) : Decidable h.Metered :=
  match h with
  | .freedom _ _ => isTrue trivial
  | .blackhole => isTrue trivial
  | .fragment _ => isFalse id
  | .vless _ _ _ _ => isFalse id
  | .udp _ => isFalse id

instance (r : ℕ) (s : EngineState) (connId : Uuid) (relay : Relay) (e : RelayEvent) :
    Decidable (relay.Finds r s connId e) := by
  unfold Relay.Finds
  split <;> infer_instance

instance (r i : ℕ) (v : Server) (e : RelayEvent) : Decidable (v.Connects r i e) := by
  unfold Server.Connects
  split <;> infer_instance

instance (X : Crates) (r : ℕ) (v : Server) (a : ServerAct) : Decidable (v.Enforces X r a) := by
  unfold Server.Enforces
  split
  · split <;> infer_instance
  · infer_instance
  · infer_instance

/-- The invariant: what is forwarded, reserved and left is within the quota. -/
structure Server.WithinQuota (r : ℕ) (quota : ℤ) (v : Server) : Prop where
  allocated : r < v.engine.nextRef
  nonneg : 0 ≤ (v.engine.heap r).remainingBytes
  pays : ∀ (i : ℕ) (stage : Stage) (account : Identity) (relay : Relay), v.conns[i]? = some stage →
    stage.relay = some (account, relay) → relay.Pays r ∧ (account.ref = r → relay.Charged r)
  le : (forwardedOf r v.log : ℤ) + (v.conns.map (Stage.reserved r)).sum +
    (v.engine.heap r).remainingBytes ≤ quota

section

variable {X : Crates} {r : ℕ} {quota : ℤ} {v v' : Server}

theorem Stage.reserved_of_relay {stage : Stage} {account : Identity} {relay : Relay}
    (h : stage.relay = some (account, relay)) : stage.reserved r = relay.reserved r := by
  cases stage with
  | relaying connId a rel =>
    obtain ⟨rfl, rfl⟩ := Prod.mk.inj (Option.some.inj h)
    rfl
  | detached a rel =>
    obtain ⟨rfl, rfl⟩ := Prod.mk.inj (Option.some.inj h)
    rfl
  | _ => cases h

/-- A connection changes its stage, and nothing is forwarded. -/
theorem Server.WithinQuota.set {i : ℕ} {stage new : Stage} (engine : EngineState)
    (h : v.WithinQuota r quota) (hi : v.conns[i]? = some stage) (hnext : engine.nextRef = v.engine.nextRef)
    (hheap : engine.heap = v.engine.heap) (hreserved : new.reserved r ≤ stage.reserved r)
    (hpays : ∀ account relay, new.relay = some (account, relay) →
      relay.Pays r ∧ (account.ref = r → relay.Charged r)) :
    Server.WithinQuota r quota { v with engine := engine, conns := v.conns.set i new } where
  allocated := hnext ▸ h.allocated
  nonneg := hheap ▸ h.nonneg
  pays j stage account relay hj hr := by
    rcases getElem?_set_cases hj with ⟨-, rfl⟩ | ⟨-, hj⟩
    · exact hpays account relay hr
    · exact h.pays j stage account relay hj hr
  le := by
    have hsum := sum_map_set (Stage.reserved r) hi new
    have hle := h.le
    rw [hheap]
    dsimp only
    omega

/-- A relay takes a step that it pays for. -/
theorem Server.WithinQuota.apply {i : ℕ} {account : Identity} {relay : Relay} {stage : Relay → Stage}
    {o : Outcome} (h : v.WithinQuota r quota) (hstage : ∀ r, (stage r).relay = some (account, r))
    (hi : v.conns[i]? = some (stage relay)) (hpaid : relay.Paid r v.engine.heap o)
    (hcharged : account.ref = r → o.relay.Charged r ∧ (relay.payer = some r ∨ o.sent = [])) :
    (v.apply i account stage o).WithinQuota r quota where
  allocated := h.allocated
  nonneg := hpaid.nonneg
  pays j stage' account' relay' hj hr := by
    rcases getElem?_set_cases hj with ⟨-, rfl⟩ | ⟨-, hj⟩
    · rw [hstage] at hr
      obtain ⟨rfl, rfl⟩ := Prod.mk.inj (Option.some.inj hr)
      exact ⟨hpaid.pays, fun ha => (hcharged ha).1⟩
    · exact h.pays j stage' account' relay' hj hr
  le := by
    have hsum := sum_map_set (Stage.reserved r) hi (stage o.relay)
    rw [Stage.reserved_of_relay (hstage _), Stage.reserved_of_relay (hstage _)] at hsum
    have hle := h.le
    have hpaid := hpaid.le
    have hforwarded : (if account.ref = r then payloadBytes o.sent else 0) ≤
        if relay.payer = some r then payloadBytes o.sent else 0 := by
      by_cases ha : account.ref = r
      · rcases (hcharged ha).2 with hp | hp
        · rw [if_pos hp, if_pos ha]
        · simp [hp]
      · rw [if_neg ha]
        exact Nat.zero_le _
    simp only [Server.apply, forwardedOf_append, forwardedOf_forwarded, Nat.cast_add]
    omega

theorem Server.WithinQuota.part {a : ServerAct} (h : v.WithinQuota r quota) (hC : v.Enforces X r a)
    (hp : Part X v a v') : v'.WithinQuota r quota := by
  cases hp with
  | accept =>
    refine ⟨h.allocated, h.nonneg, fun i stage account relay hi hr => ?_, ?_⟩
    · by_cases hlt : i < v.conns.length
      · rw [List.getElem?_append_left hlt] at hi
        exact h.pays i stage account relay hi hr
      · rw [List.getElem?_append_right (by omega)] at hi
        obtain rfl := List.mem_singleton.mp (List.mem_of_getElem? hi)
        cases hr
    · simpa [Stage.reserved] using h.le
  | reject hi hs => exact h.set _ hi rfl rfl (Nat.zero_le _) fun _ _ hr => nomatch hr
  | authenticate hi hr => exact h.set _ hi rfl rfl (Nat.zero_le _) fun _ _ hr => nomatch hr
  | @launch i q userUuid account engine relay hi hfresh hd =>
    obtain ⟨tag, config, handler, htag, hconfig, hhandler, rfl, rfl⟩ := dispatchConnection_engine hd
    refine h.set _ hi rfl rfl (Nat.zero_le _) fun account relay hr => ?_
    obtain ⟨rfl, rfl⟩ := Prod.mk.inj (Option.some.inj hr)
    refine ⟨trivial, fun ha => ?_⟩
    have hfor : handlerFor X v.engine userUuid q = some handler := by
      simp [handlerFor, htag, hconfig, hhandler, Except.toOption]
    simp only [Server.Enforces, hi] at hC
    have hmetered := hC ha handler hfor
    cases handler <;> trivial
  | @handler i first connId account relay e o hi hsignal ho =>
    obtain ⟨hpays, hcharged⟩ := h.pays i _ account relay hi rfl
    have hstep : v.handlerStep X i e = some (v.apply i account (.relaying connId account) o) := by
      simp [Server.handlerStep, hi, ho]
    simp only [Server.Enforces] at hC
    have hfinds := ((Run.meets_cons hstep).mp hC).1
    simp only [Server.Connects, hi] at hfinds
    exact h.apply (fun _ => rfl) hi (Relay.step_pays hpays h.nonneg ho)
      fun ha => Relay.step_charged (hcharged ha) (hfinds ha) ho
  | @close i first events connId account relay hi =>
    obtain ⟨-, hcharged⟩ := h.pays i _ account relay hi rfl
    obtain ⟨hpays, hreserved⟩ := Relay.detach_pays r relay
    refine h.set _ hi rfl rfl ?_ fun account' relay' hr => ?_
    · show relay.detach.reserved r ≤ _
      rw [hreserved]
      exact Nat.zero_le _
    · obtain ⟨rfl, rfl⟩ := Prod.mk.inj (Option.some.inj hr)
      exact ⟨hpays, fun ha => Relay.detach_charged (hcharged ha)⟩
  | @task i e connId account relay o hi ho =>
    obtain ⟨-, hcharged⟩ := h.pays i _ account relay hi rfl
    exact h.apply (fun _ => rfl) hi (Relay.task_pays h.nonneg ho)
      fun ha => (Relay.task_charged (hcharged ha) ho).elim
  | @taskDetached i e account relay o hi ho =>
    obtain ⟨-, hcharged⟩ := h.pays i _ account relay hi rfl
    exact h.apply (fun _ => rfl) hi (Relay.task_pays h.nonneg ho)
      fun ha => (Relay.task_charged (hcharged ha) ho).elim
  | deleted hd =>
    obtain ⟨hle, hkept⟩ := deleteUser_kept hd
    have hrem := congrArg UserSnapshot.remainingBytes (hkept r h.allocated).2
    simp only [UserStats.snapshot] at hrem
    exact ⟨lt_of_lt_of_le h.allocated hle, hrem ▸ h.nonneg, h.pays, by
      rw [hrem]
      exact h.le⟩
  | refused => exact h

theorem Server.WithinQuota.step {a : ServerAct} (h : v.WithinQuota r quota) (hC : v.Enforces X r a)
    (hs : serverStep X v a = some v') : v'.WithinQuota r quota := by
  refine serverStep_invariant (C := Server.Enforces X r) (fun _ _ _ hI hC hp => hI.part hC hp) ?_ h hC hs
  intro i first e events w w' hC hstep
  simp only [Server.Enforces] at hC ⊢
  obtain ⟨he, hrest⟩ := (Run.meets_cons hstep).mp hC
  exact ⟨(Run.meets_cons hstep).mpr ⟨he, trivial⟩, hrest⟩

/-- **Quota enforcement**: in a run in which the connections of an account lead to handlers that reserve
from it, the bytes forwarded are never more than it had left. -/
theorem forwardedOf_le_quota (hr : r < v.engine.nextRef) (hquota : 0 ≤ (v.engine.heap r).remainingBytes)
    (hconns : v.conns = []) (hlog : v.log = []) {as : List ServerAct}
    (h : Run.Meets (serverStep X) (Server.Enforces X r) v as) :
    Run.Always (serverStep X) (fun w => (forwardedOf r w.log : ℤ) ≤ (v.engine.heap r).remainingBytes) v as := by
  have hstart : v.WithinQuota r (v.engine.heap r).remainingBytes := by
    refine ⟨hr, hquota, fun i stage account relay hi _ => ?_, ?_⟩
    · rw [hconns] at hi
      cases hi
    · simp [hconns, hlog, forwardedOf]
  refine Run.always_of_meets (fun w a w' hI hC hs => hI.step hC hs) (fun w hI => ?_) hstart h
  have hle := hI.le
  have hnonneg := hI.nonneg
  omega

/-! ## Runs with a quota of one byte -/

/-- The built-in server when its account has one byte left. -/
def meteredServer : Server :=
  { Server.start builtInConfig with
    engine := (Server.start builtInConfig).engine.modifyUser 0 fun u => { u with remainingBytes := 1 } }

/-- The theorem on a TCP connection that forwards this byte. -/
theorem forwardedOf_le_quota_run :
    Run.Always (serverStep Sample.crates)
      (fun w => (forwardedOf 0 w.log : ℤ) ≤ (meteredServer.engine.heap 0).remainingBytes) meteredServer
      (oneConnection builtInUuid toWeb forwardOnce) :=
  forwardedOf_le_quota (by decide) (by decide) rfl rfl (by decide)

/-- **Two bytes leave in a datagram**, of an account that has one. -/
theorem datagram_exceeds_quota :
    (meteredServer.engine.heap 0).remainingBytes = 1 ∧
    (Run.exec (serverStep Sample.crates) meteredServer
      (oneConnection builtInUuid (sampleRequest "1.1.1.1" 53 2 [0, 2, 65, 66])
        [.turn ⟨openNetwork, true, fun _ => false⟩])).map (fun v => forwardedOf 0 v.log) = some 2 := by
  decide

end

end RXCore
