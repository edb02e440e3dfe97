import RXCore.Lib.Run
import RXCore.Lib.Tally
import RXCore.Inbound.Handshakes

/-!
# Permits and slots, lock by lock

`accept_reality_bounded` takes a permit, then locks the map to take a slot, and gives them back in the reverse
order: the `HandshakeGuard` locks the map in its `drop`, and the permit in it is dropped after that. Other calls run
between any two of these.

* `takeSlot`, `dropGuard`: what is done under the lock, with `enter_eq` and `release_eq`;
* `BoundedCall`, `BoundedState`, `boundedStep`: calls in any number and in any order;
* `BoundedState.Balanced`: permits and slots are those of the calls that hold them;
* **`handshakes_balanced`**: that is so in every state, and a call that is turned away leaves nothing behind.
-/

set_option autoImplicit false

namespace RXCore

open Parties Tally

/-- What is done under the lock of the map to take a slot. -/
def takeSlot (map : AList fun _ : IpAddr => ℕ) (ip : IpAddr) : Except String (AList fun _ : IpAddr => ℕ) := do
  let currentCnt := (map.lookup ip).getD 0
  refuseIf (2 ≤ currentCnt) "Rejecting connection: IP active handshake limit exceeded"
  refuseIf (1000 ≤ map.keys.length ∧ currentCnt = 0) "Rejecting connection: IP tracking map is full"
  return map.insert ip (currentCnt + 1)

/-- `drop` of a `HandshakeGuard`. -/
def dropGuard (map : AList fun _ : IpAddr => ℕ) (ip : IpAddr) : AList fun _ : IpAddr => ℕ :=
  match map.lookup ip with
  | some cnt => if 1 < cnt then map.insert ip (cnt - 1) else map.erase ip
  | none => map

/-- What a call of `accept_reality_bounded` comes to. -/
inductive BoundedResult where
  | rejected (error : String)
  | accepted
  | failed (error : String)
  | timedOut
  /-- The future was dropped. -/
  | cancelled
deriving DecidableEq

/-- Where a call is. -/
inductive BoundedPhase where
  /-- It was not polled yet. -/
  | called
  /-- It holds a permit, and the map is still to be locked. -/
  | permitted
  /-- The map had no slot for it, and it still holds the permit. -/
  | refused (error : String)
  /-- It holds a `HandshakeGuard` and awaits `server.accept`. -/
  | inFlight
  /-- The slot was given back, and the permit in the guard was not. -/
  | dropping (result : BoundedResult)
  | over (result : BoundedResult)
deriving DecidableEq

structure BoundedCall where
  clientIp : IpAddr
  phase : BoundedPhase

/-- The key of the map. -/
def BoundedCall.ip (c : BoundedCall) : IpAddr := slotIp c.clientIp

/-- The call holds a permit. -/
def BoundedCall.holds (c : BoundedCall) : Bool :=
  match c.phase with
  | .called | .over _ => false
  | _ => true

/-- The call holds a slot. -/
def BoundedCall.inFlight (c : BoundedCall) : Bool := c.phase = .inFlight

/-- The call is rejected, or is about to be. -/
def BoundedCall.turnedAway (c : BoundedCall) : Bool :=
  match c.phase with
  | .refused _ | .over (.rejected _) => true
  | _ => false

/-- `handshake_semaphore` and `active_handshakes_per_ip` of the engine, and the calls so far. -/
structure BoundedState where
  permits : ℕ
  activeHandshakesPerIp : AList fun _ : IpAddr => ℕ
  calls : List BoundedCall

def BoundedState.start : BoundedState := ⟨handshakePermits, ∅, []⟩

/-- A call goes on to a phase. -/
def BoundedState.moveTo (s : BoundedState) (i : ℕ) (c : BoundedCall) (phase : BoundedPhase) : BoundedState :=
  { s with calls := s.calls.set i { c with phase := phase } }

inductive BoundedAct where
  | start (clientIp : IpAddr)
  /-- `try_acquire_owned` of a call. -/
  | acquire (i : ℕ)
  /-- The map is locked for a call that holds a permit. -/
  | lock (i : ℕ)
  /-- `server.accept` returns, the timeout ends or the future is dropped: the guard locks the map. -/
  | finish (i : ℕ) (ok : Except String Unit)
  | timeout (i : ℕ)
  | cancel (i : ℕ)
  /-- The permit of a call is dropped. -/
  | drop (i : ℕ)

/-- The call that an action is one of. -/
def BoundedAct.call : BoundedAct → Option ℕ
  | .start _ => none
  | .acquire i | .lock i | .finish i _ | .timeout i | .cancel i | .drop i => some i

/-- The guard of a call is dropped, up to its permit. -/
def BoundedState.endFlight (s : BoundedState) (i : ℕ) (c : BoundedCall) (result : BoundedResult) : BoundedState :=
  { s.moveTo i c (.dropping result) with activeHandshakesPerIp := dropGuard s.activeHandshakesPerIp c.ip }

/-- A step of a call. -/
def callStep (s : BoundedState) (i : ℕ) (c : BoundedCall) : BoundedAct → Option BoundedState
  | .start _ => none
  | .acquire _ => match c.phase with
    | .called =>
      if s.permits = 0 then
        some (s.moveTo i c (.over (.rejected "Rejecting connection: Global handshake semaphore limit exceeded")))
      else some { s.moveTo i c .permitted with permits := s.permits - 1 }
    | _ => none
  | .lock _ => match c.phase with
    | .permitted => match takeSlot s.activeHandshakesPerIp c.ip with
      | .error e => some (s.moveTo i c (.refused e))
      | .ok map => some { s.moveTo i c .inFlight with activeHandshakesPerIp := map }
    | _ => none
  | .finish _ ok => match c.phase with
    | .inFlight => some (s.endFlight i c (match ok with
      | .ok () => .accepted
      | .error e => .failed e))
    | _ => none
  | .timeout _ => match c.phase with
    | .inFlight => some (s.endFlight i c .timedOut)
    | _ => none
  -- there is no other await than that of the accept
  | .cancel _ => match c.phase with
    | .called => some (s.moveTo i c (.over .cancelled))
    | .inFlight => some (s.endFlight i c .cancelled)
    | _ => none
  | .drop _ => match c.phase with
    | .refused e => some { s.moveTo i c (.over (.rejected e)) with permits := s.permits + 1 }
    | .dropping result => some { s.moveTo i c (.over result) with permits := s.permits + 1 }
    | _ => none

def boundedStep (s : BoundedState) (a : BoundedAct) : Option BoundedState :=
  match a.call with
  | none => match a with
    | .start clientIp => some { s with calls := s.calls ++ [⟨clientIp, .called⟩] }
    | _ => none
  | some i => s.calls[i]?.bind fun c => callStep s i c a

/-! ## The steps of `HandshakeGate` are made of these -/

theorem HandshakeGate.enter_eq (s : HandshakeGate) (ip : IpAddr) : s.enter ip =
    if s.permits = 0 then .error "Rejecting connection: Global handshake semaphore limit exceeded"
    else (takeSlot s.activeHandshakesPerIp ip).map fun map =>
      { s with permits := s.permits - 1, activeHandshakesPerIp := map } := by
  by_cases hp : s.permits = 0
  · simp [HandshakeGate.enter, refuseIf, hp, bind, Except.bind]
  rw [if_neg hp]
  unfold HandshakeGate.enter takeSlot HandshakeGate.taken
  generalize (s.activeHandshakesPerIp.lookup ip).getD 0 = currentCnt
  by_cases hip : 2 ≤ currentCnt
  · simp [refuseIf, hp, hip, bind, Except.bind, Except.map]
  by_cases hfull : 1000 ≤ s.activeHandshakesPerIp.keys.length ∧ currentCnt = 0
  · simp [refuseIf, hp, hfull, bind, Except.bind, Except.map]
  · simp [refuseIf, hp, hip, hfull, bind, Except.bind, Except.map, pure, Except.pure]

theorem HandshakeGate.release_eq (s : HandshakeGate) (ip : IpAddr) : s.release ip =
    { s with permits := s.permits + 1, activeHandshakesPerIp := dropGuard s.activeHandshakesPerIp ip } := rfl

/-! ## What a step does -/

namespace BoundedState

variable {s s' : BoundedState} {c : BoundedCall} {i : ℕ} {a : BoundedAct} {phase : BoundedPhase}

@[simp] theorem moveTo_permits : (s.moveTo i c phase).permits = s.permits := rfl

@[simp] theorem moveTo_calls : (s.moveTo i c phase).calls = s.calls.set i { c with phase := phase } := rfl

@[simp] theorem moveTo_activeHandshakesPerIp :
    (s.moveTo i c phase).activeHandshakesPerIp = s.activeHandshakesPerIp := rfl

theorem callStep_cases (h : callStep s i c a = some s') :
    (∃ r, c.phase = .called ∧ s' = s.moveTo i c (.over r)) ∨
    (c.phase = .called ∧ s.permits ≠ 0 ∧ s' = { s.moveTo i c .permitted with permits := s.permits - 1 }) ∨
    (∃ e, c.phase = .permitted ∧ s' = s.moveTo i c (.refused e)) ∨
    (∃ map, c.phase = .permitted ∧ takeSlot s.activeHandshakesPerIp c.ip = .ok map ∧
      s' = { s.moveTo i c .inFlight with activeHandshakesPerIp := map }) ∨
    (∃ r, c.phase = .inFlight ∧ s' = s.endFlight i c r) ∨
    ∃ r, ((∃ e, c.phase = .refused e) ∨ c.phase = .dropping r) ∧
      s' = { s.moveTo i c (.over r) with permits := s.permits + 1 } := by
  cases a with
  | start clientIp => cases h
  | acquire j =>
    simp only [callStep] at h
    split at h
    · next hphase =>
      split_ifs at h with hp
      · exact .inl ⟨_, hphase, (Option.some.inj h).symm⟩
      · exact .inr (.inl ⟨hphase, hp, (Option.some.inj h).symm⟩)
    · cases h
  | lock j =>
    simp only [callStep] at h
    split at h
    · next hphase =>
      split at h
      · next e he => exact .inr (.inr (.inl ⟨e, hphase, (Option.some.inj h).symm⟩))
      · next map hmap => exact .inr (.inr (.inr (.inl ⟨map, hphase, hmap, (Option.some.inj h).symm⟩)))
    · cases h
  | finish j ok =>
    simp only [callStep] at h
    split at h
    · next hphase => exact .inr (.inr (.inr (.inr (.inl ⟨_, hphase, (Option.some.inj h).symm⟩))))
    · cases h
  | timeout j =>
    simp only [callStep] at h
    split at h
    · next hphase => exact .inr (.inr (.inr (.inr (.inl ⟨_, hphase, (Option.some.inj h).symm⟩))))
    · cases h
  | cancel j =>
    simp only [callStep] at h
    split at h
    · next hphase => exact .inl ⟨_, hphase, (Option.some.inj h).symm⟩
    · next hphase => exact .inr (.inr (.inr (.inr (.inl ⟨_, hphase, (Option.some.inj h).symm⟩))))
    · cases h
  | drop j =>
    simp only [callStep] at h
    split at h
    · next e hphase =>
      exact .inr (.inr (.inr (.inr (.inr ⟨_, .inl ⟨e, hphase⟩, (Option.some.inj h).symm⟩))))
    · next r hphase =>
      exact .inr (.inr (.inr (.inr (.inr ⟨r, .inr hphase, (Option.some.inj h).symm⟩))))
    · cases h

theorem boundedStep_cases (h : boundedStep s a = some s') :
    (∃ clientIp, s' = { s with calls := s.calls ++ [⟨clientIp, .called⟩] }) ∨
    ∃ i c, a.call = some i ∧ s.calls[i]? = some c ∧ callStep s i c a = some s' := by
  unfold boundedStep at h
  split at h
  · split at h
    · exact .inl ⟨_, (Option.some.inj h).symm⟩
    · cases h
  · next i hi =>
    obtain ⟨c, hc, h⟩ := Option.bind_eq_some_iff.mp h
    exact .inr ⟨i, c, hi, hc, h⟩

/-- A step of a call changes no other call. -/
theorem callStep_calls (h : callStep s i c a = some s') :
    ∃ phase, s'.calls = s.calls.set i { c with phase := phase } := by
  obtain ⟨r, -, rfl⟩ | ⟨-, -, rfl⟩ | ⟨e, -, rfl⟩ | ⟨map, -, -, rfl⟩ | ⟨r, -, rfl⟩ | ⟨r, -, rfl⟩ :=
    callStep_cases h
  all_goals exact ⟨_, rfl⟩

/-! ## Permits and slots -/

/-- The handshakes in flight that count for an address. -/
def inFlightOf (calls : List BoundedCall) (ip : IpAddr) : ℕ := calls.countP fun c => c.inFlight && c.ip = ip

/-- Permits and slots are those of the calls that hold them. -/
structure Balanced (permits : ℕ) (map : AList fun _ : IpAddr => ℕ) (calls : List BoundedCall) : Prop where
  permits : permits + calls.countP BoundedCall.holds = handshakePermits
  slots : Tallies map (inFlightOf calls)
  two : ∀ ip, inFlightOf calls ip ≤ 2

theorem inFlightOf_set {calls : List BoundedCall} (hc : calls[i]? = some c) (phase : BoundedPhase) (ip : IpAddr) :
    inFlightOf (calls.set i { c with phase := phase }) ip + (if c.inFlight && c.ip = ip then 1 else 0) =
      inFlightOf calls ip + if decide (phase = .inFlight) && c.ip = ip then 1 else 0 :=
  countP_set (fun c : BoundedCall => c.inFlight && c.ip = ip) hc { c with phase := phase }

theorem holds_set {calls : List BoundedCall} (hc : calls[i]? = some c) (phase : BoundedPhase) :
    (calls.set i { c with phase := phase }).countP BoundedCall.holds + (if c.holds then 1 else 0) =
      calls.countP BoundedCall.holds + if BoundedCall.holds { c with phase := phase } then 1 else 0 :=
  countP_set BoundedCall.holds hc { c with phase := phase }

variable {permits : ℕ} {map : AList fun _ : IpAddr => ℕ} {calls : List BoundedCall}

theorem takeSlot_ok {map' : AList fun _ : IpAddr => ℕ} {ip : IpAddr} (h : takeSlot map ip = .ok map') :
    (map.lookup ip).getD 0 < 2 ∧ map' = take map ip := by
  simp only [takeSlot, bind_ok] at h
  obtain ⟨u, htwo, v, -, h⟩ := h
  exact ⟨not_le.mp (refuseIf_ok.mp htwo), (Except.ok.inj h).symm⟩

theorem dropGuard_eq (map : AList fun _ : IpAddr => ℕ) (ip : IpAddr) : dropGuard map ip = give map ip := rfl

theorem inFlightOf_set_ne {calls : List BoundedCall} (hc : calls[i]? = some c) (phase : BoundedPhase) {ip : IpAddr}
    (hip : ip ≠ c.ip) : inFlightOf (calls.set i { c with phase := phase }) ip = inFlightOf calls ip := by
  simpa [Ne.symm hip] using inFlightOf_set hc phase ip

/-- After a step of a call only the permits, the table and its own address are to be looked at. -/
theorem Balanced.set (h : Balanced permits map calls) (hc : calls[i]? = some c) {permits' : ℕ}
    {map' : AList fun _ : IpAddr => ℕ}
    (hp : permits' + (if BoundedCall.holds { c with phase := phase } then 1 else 0) =
      permits + if c.holds then 1 else 0)
    (hslots : Tallies map' (inFlightOf (calls.set i { c with phase := phase })))
    (htwo : inFlightOf (calls.set i { c with phase := phase }) c.ip ≤ 2) :
    Balanced permits' map' (calls.set i { c with phase := phase }) := by
  refine ⟨?_, hslots, fun ip => ?_⟩
  · have hn := holds_set hc phase
    have := h.permits
    omega
  · by_cases hip : ip = c.ip
    · rwa [hip]
    · rw [inFlightOf_set_ne hc phase hip]
      exact h.two ip

/-- A call that is in flight neither before nor after changes nothing but the permits. -/
theorem Balanced.moved (h : Balanced permits map calls) (hc : calls[i]? = some c) (hf : c.phase ≠ .inFlight)
    (hf' : phase ≠ .inFlight) {permits' : ℕ}
    (hp : permits' + (if BoundedCall.holds { c with phase := phase } then 1 else 0) =
      permits + if c.holds then 1 else 0) : Balanced permits' map (calls.set i { c with phase := phase }) := by
  have hsame : ∀ ip, inFlightOf (calls.set i { c with phase := phase }) ip = inFlightOf calls ip := by
    intro ip
    simpa [BoundedCall.inFlight, hf, hf'] using inFlightOf_set hc phase ip
  refine h.set hc hp (h.slots.congr fun ip => (hsame ip).symm) ?_
  rw [hsame]
  exact h.two c.ip

/-- A call takes a slot. -/
theorem Balanced.landed (h : Balanced permits map calls) (hc : calls[i]? = some c) (hphase : c.phase = .permitted)
    {map' : AList fun _ : IpAddr => ℕ} (hm : takeSlot map c.ip = .ok map') :
    Balanced permits map' (calls.set i { c with phase := .inFlight }) := by
  obtain ⟨htwo, rfl⟩ := takeSlot_ok hm
  rw [h.slots.getD] at htwo
  have hself : inFlightOf (calls.set i { c with phase := .inFlight }) c.ip = inFlightOf calls c.ip + 1 := by
    simpa [BoundedCall.inFlight, hphase] using inFlightOf_set hc .inFlight c.ip
  refine h.set hc (by simp [BoundedCall.holds, hphase]) ?_ ?_
  · exact h.slots.take hself fun ip => inFlightOf_set_ne hc .inFlight
  · rw [hself]
    exact htwo

/-- A guard gives its slot back. -/
theorem Balanced.left (h : Balanced permits map calls) (hc : calls[i]? = some c) (hphase : c.phase = .inFlight)
    (r : BoundedResult) : Balanced permits (dropGuard map c.ip) (calls.set i { c with phase := .dropping r }) := by
  have hself : inFlightOf calls c.ip = inFlightOf (calls.set i { c with phase := .dropping r }) c.ip + 1 := by
    simpa [BoundedCall.inFlight, hphase] using (inFlightOf_set hc (.dropping r) c.ip).symm
  refine h.set hc (by simp [BoundedCall.holds, hphase]) ?_ ?_
  · rw [dropGuard_eq]
    exact h.slots.give hself fun ip => inFlightOf_set_ne hc (.dropping r)
  · have htwo := h.two c.ip
    omega

theorem balanced_start : Balanced handshakePermits ∅ [] := ⟨rfl, tallies_empty, fun _ => Nat.zero_le _⟩

/-- **A step keeps the balance**, also when the map has no slot for a call that has its permit. -/
theorem balanced_step (h : Balanced s.permits s.activeHandshakesPerIp s.calls) (hs : boundedStep s a = some s') :
    Balanced s'.permits s'.activeHandshakesPerIp s'.calls := by
  obtain ⟨clientIp, rfl⟩ | ⟨i, c, -, hc, hs⟩ := boundedStep_cases hs
  · constructor
    · have := h.permits
      simpa [List.countP_append, BoundedCall.holds] using this
    · exact h.slots.congr fun ip => by simp [inFlightOf, List.countP_append, BoundedCall.inFlight]
    · intro ip
      have := h.two ip
      simpa [inFlightOf, List.countP_append, BoundedCall.inFlight] using this
  obtain ⟨r, hphase, rfl⟩ | ⟨hphase, hp, rfl⟩ | ⟨e, hphase, rfl⟩ | ⟨map, hphase, hm, rfl⟩ | ⟨r, hphase, rfl⟩ |
    ⟨r, hphase, rfl⟩ := callStep_cases hs
  · exact h.moved hc (by simp [hphase]) (by simp) (by simp [BoundedCall.holds, hphase])
  · refine h.moved hc (by simp [hphase]) (by simp) ?_
    simp only [BoundedCall.holds, hphase, if_true]
    have : s.permits - 1 + 1 = s.permits := Nat.sub_add_cancel (Nat.pos_of_ne_zero hp)
    simpa using this
  · exact h.moved hc (by simp [hphase]) (by simp) (by simp [BoundedCall.holds, hphase])
  · exact h.landed hc hphase hm
  · exact h.left hc hphase r
  · obtain ⟨e, hphase⟩ | hphase := hphase
    · exact h.moved hc (by simp [hphase]) (by simp) (by simp [BoundedCall.holds, hphase])
    · exact h.moved hc (by simp [hphase]) (by simp) (by simp [BoundedCall.holds, hphase])

theorem balanced_of_reachable (h : Run.Reachable boundedStep start s) :
    Balanced s.permits s.activeHandshakesPerIp s.calls := by
  obtain ⟨as, has⟩ := h
  exact Run.exec_invariant (I := fun s => Balanced s.permits s.activeHandshakesPerIp s.calls)
    (fun s a s' => balanced_step) balanced_start has

/-! ## Calls that are turned away -/

theorem countP_eraseIdx (p : BoundedCall → Bool) (hc : calls[i]? = some c) (hp : p c = false) :
    (calls.eraseIdx i).countP p = calls.countP p := by
  obtain ⟨hlt, rfl⟩ := List.getElem?_eq_some_iff.mp hc
  have hsplit : calls = calls.take i ++ calls[i] :: calls.drop (i + 1) := by simp
  have hcount := congrArg (List.countP p) hsplit
  rw [List.countP_append, List.countP_cons_of_neg (by simp [hp])] at hcount
  rw [List.eraseIdx_eq_take_drop_succ, List.countP_append, hcount]

/-- A call that holds nothing might as well not be there. -/
theorem Balanced.eraseIdx (h : Balanced permits map calls) (hc : calls[i]? = some c) (hh : c.holds = false) :
    Balanced permits map (calls.eraseIdx i) := by
  have hf : c.inFlight = false := by
    cases hphase : c.phase <;> simp_all [BoundedCall.holds, BoundedCall.inFlight]
  have hsame : ∀ ip, inFlightOf (calls.eraseIdx i) ip = inFlightOf calls ip :=
    fun ip => countP_eraseIdx _ hc (by simp [hf])
  constructor
  · rw [countP_eraseIdx _ hc hh]
    exact h.permits
  · exact h.slots.congr fun ip => (hsame ip).symm
  · intro ip
    rw [hsame]
    exact h.two ip

/-- The step of a call after which it is turned away leaves the map as it is. -/
theorem turnedAway_step (hs : boundedStep s a = some s') (ha : a.call = some i) (hc : s'.calls[i]? = some c)
    (hr : c.turnedAway = true) : s'.activeHandshakesPerIp = s.activeHandshakesPerIp := by
  obtain ⟨clientIp, rfl⟩ | ⟨j, d, hj, hd, hs⟩ := boundedStep_cases hs
  · rfl
  obtain rfl : j = i := Option.some.inj (hj.symm.trans ha)
  obtain ⟨r, -, rfl⟩ | ⟨-, -, rfl⟩ | ⟨e, -, rfl⟩ | ⟨map, -, -, rfl⟩ | ⟨r, -, rfl⟩ | ⟨r, -, rfl⟩ := callStep_cases hs
  · rfl
  · rfl
  · rfl
  · rw [moveTo_calls, getElem?_set_self hd] at hc
    obtain rfl := Option.some.inj hc
    cases hr
  · simp only [endFlight, moveTo_calls, getElem?_set_self hd] at hc
    obtain rfl := Option.some.inj hc
    cases hr
  · rfl

/-- The steps of one call change no other. -/
theorem eraseIdx_of_exec {as : List BoundedAct} (h : ∀ a ∈ as, a.call = some i)
    (hs : Run.exec boundedStep s as = some s') : s'.calls.eraseIdx i = s.calls.eraseIdx i := by
  induction as generalizing s with
  | nil => rw [Option.some.inj hs]
  | cons a as ih =>
    obtain ⟨t, ht, hs⟩ := Run.exec_cons_some hs
    rw [ih (fun b hb => h b (List.mem_cons_of_mem _ hb)) hs]
    have ha := h a List.mem_cons_self
    simp only [boundedStep, ha] at ht
    obtain ⟨c, -, ht⟩ := Option.bind_eq_some_iff.mp ht
    obtain ⟨phase, hphase⟩ := callStep_calls ht
    rw [hphase, List.eraseIdx_set_eq]

end BoundedState

open BoundedState

/-- **Permits and slots are those of the handshakes in flight**, and a call that is turned away leaves both as they
were: its own steps restore them, none of these touches the map, and they are at any time what the other calls make
of them. -/
theorem handshakes_balanced (s : BoundedState) (h : Run.Reachable boundedStep .start s) :
    (∀ ip n, s.activeHandshakesPerIp.lookup ip = some n ↔ n = inFlightOf s.calls ip ∧ 1 ≤ n) ∧
    (∀ ip n, s.activeHandshakesPerIp.lookup ip = some n → 1 ≤ n ∧ n ≤ 2) ∧
    (∀ ip, s.activeHandshakesPerIp.lookup ip = none ↔ inFlightOf s.calls ip = 0) ∧
    s.permits + s.calls.countP BoundedCall.holds = 4 ∧ s.calls.countP BoundedCall.inFlight ≤ 4 ∧
    (∀ i c, s.calls[i]? = some c → c.phase = .called → ∀ as s', (∀ a ∈ as, a.call = some i) →
      Run.exec boundedStep s as = some s' → ∀ c' e, s'.calls[i]? = some c' → c'.phase = .over (.rejected e) →
        s'.permits = s.permits ∧ ∀ ip, s'.activeHandshakesPerIp.lookup ip = s.activeHandshakesPerIp.lookup ip) ∧
    (∀ a s' i c, boundedStep s a = some s' → a.call = some i → s'.calls[i]? = some c → c.turnedAway = true →
      s'.activeHandshakesPerIp = s.activeHandshakesPerIp) ∧
    ∀ i c e, s.calls[i]? = some c → c.phase = .over (.rejected e) →
      s.permits + (s.calls.eraseIdx i).countP BoundedCall.holds = 4 ∧
      ∀ ip n, s.activeHandshakesPerIp.lookup ip = some n ↔ n = inFlightOf (s.calls.eraseIdx i) ip ∧ 1 ≤ n := by
  have hb := balanced_of_reachable h
  refine ⟨hb.slots, fun ip n hl => ?_, fun ip => hb.slots.lookup_none_iff, hb.permits, ?_, ?_, ?_, ?_⟩
  · obtain ⟨rfl, hpos⟩ := (hb.slots ip n).mp hl
    exact ⟨hpos, hb.two ip⟩
  · have hle : s.calls.countP BoundedCall.inFlight ≤ s.calls.countP BoundedCall.holds := by
      refine List.countP_mono_left fun c _ hc => ?_
      have hphase : c.phase = .inFlight := by simpa [BoundedCall.inFlight] using hc
      simp [BoundedCall.holds, hphase]
    have := hb.permits
    have : handshakePermits = 4 := rfl
    omega
  · intro i c hc hcalled as s' has hs c' e hc' hover
    obtain ⟨bs, hbs⟩ := h
    have hb' : Balanced s'.permits s'.activeHandshakesPerIp s'.calls :=
      balanced_of_reachable ⟨bs ++ as, by rw [Run.exec_append, hbs]; exact hs⟩
    have hers := hb.eraseIdx hc (by simp [BoundedCall.holds, hcalled])
    have hers' := hb'.eraseIdx hc' (by simp [BoundedCall.holds, hover])
    rw [eraseIdx_of_exec has hs] at hers'
    exact ⟨Nat.add_right_cancel (hers'.permits.trans hers.permits.symm), hers'.slots.lookup_eq hers.slots⟩
  · exact fun a s' i c => turnedAway_step
  · intro i c e hc hover
    have hers := hb.eraseIdx hc (by simp [BoundedCall.holds, hover])
    exact ⟨hers.permits, hers.slots⟩

/-- The third connection from an address is turned away. -/
def thirdFromOne : List BoundedAct :=
  let ip := probeIp 7
  [.start ip, .start ip, .start ip, .acquire 0, .acquire 1, .acquire 2, .lock 1, .lock 0, .lock 2, .finish 1 (.ok ()),
    .drop 2, .cancel 0]

theorem handshakes_balanced_thirdFromOne : ∃ s, Run.exec boundedStep .start thirdFromOne = some s ∧
    s.permits = 2 ∧ s.calls.map BoundedCall.phase = [.dropping .cancelled, .dropping .accepted,
      .over (.rejected "Rejecting connection: IP active handshake limit exceeded")] ∧
    s.calls.countP BoundedCall.inFlight ≤ 4 ∧
    ∀ ip n, s.activeHandshakesPerIp.lookup ip = some n ↔ n = inFlightOf s.calls ip ∧ 1 ≤ n := by
  have hrun : (Run.exec boundedStep .start thirdFromOne).map (fun s => (s.permits, s.calls.map BoundedCall.phase)) =
    some (2, [.dropping .cancelled, .dropping .accepted,
      .over (.rejected "Rejecting connection: IP active handshake limit exceeded")]) := by decide
  obtain ⟨s, hs, hend⟩ := Option.map_eq_some_iff.mp hrun
  obtain ⟨hp, hphases⟩ := Prod.mk.inj hend
  obtain ⟨hslots, -, -, -, hfour, -⟩ := handshakes_balanced s ⟨_, hs⟩
  exact ⟨s, hs, hp, hphases, hfour, hslots⟩

end RXCore
