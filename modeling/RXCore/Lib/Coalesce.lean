import RXCore.Lib.Run
import RXCore.Lib.Parties
import RXCore.Lib.Tables

/-!
# Coalescing of calls

Calls with keys share work: the first call of a key leads, does the work and publishes its result on a channel
of its own, and calls that find the key in a map wait on that channel. Every access to the map or to a channel
is a step of its own, in any order with the steps of all other calls.

* `State`, `Action`, `step`: join, observe, finish, remove, publish;
* `Sound`: the invariant, `sound_of_exec`;
* `Sound.leader_unique`: no key has two leaders at work;
* `Sound.waiter_result`: what a waiter returns is what its leader returned;
* `Sound.observe_returned`: a waiter whose leader has returned gets the result;
* `Sound.removed_gone`, `remove_gone`: the entry of a leader that has removed its key.
-/

set_option autoImplicit false

namespace Coalesce

open Parties Tables

/-- A call does the work of its key, or waits for the call that does; either with a channel. -/
inductive Role where
  | leader (ch : ℕ)
  | waiter (ch : ℕ)
deriving DecidableEq

inductive Phase (R : Type*) where
  | pending
  /-- The work is done, and the key is in the map. -/
  | finished (res : R)
  /-- The key is not in the map, and nothing is published. -/
  | removed (res : R)
  | returned (res : R)
deriving DecidableEq

structure Call (K R : Type*) where
  key : K
  role : Role
  phase : Phase R

structure State (K R : Type*) where
  inflight : AList fun _ : K => ℕ
  channels : List (Option R)
  calls : List (Call K R)

inductive Action (K R : Type*) where
  | join (key : K)
  /-- A waiter looks at its channel. -/
  | observe (i : ℕ)
  /-- The work of a leader gives its result. -/
  | finish (i : ℕ) (res : R)
  | remove (i : ℕ)
  | publish (i : ℕ)

variable {K R : Type*} [DecidableEq K]

def init : State K R := ⟨∅, [], []⟩

def join (s : State K R) (key : K) : State K R :=
  match s.inflight.lookup key with
  | some ch => { s with calls := s.calls ++ [⟨key, .waiter ch, .pending⟩] }
  | none => {
      inflight := s.inflight.insert key s.channels.length
      channels := s.channels ++ [none]
      calls := s.calls ++ [⟨key, .leader s.channels.length, .pending⟩] }

/-- What a waiter sees. -/
def observe (s : State K R) (ch : ℕ) : Phase R :=
  match (s.channels[ch]?).join with
  | some res => .returned res
  | none => .pending

def step (s : State K R) : Action K R → Option (State K R)
  | .join key => some (join s key)
  | .observe i => match s.calls[i]? with
    | some ⟨key, .waiter ch, .pending⟩ =>
      some { s with calls := s.calls.set i ⟨key, .waiter ch, observe s ch⟩ }
    | _ => none
  | .finish i res => match s.calls[i]? with
    | some ⟨key, .leader ch, .pending⟩ =>
      some { s with calls := s.calls.set i ⟨key, .leader ch, .finished res⟩ }
    | _ => none
  | .remove i => match s.calls[i]? with
    | some ⟨key, .leader ch, .finished res⟩ =>
      some { s with
        inflight := s.inflight.erase key
        calls := s.calls.set i ⟨key, .leader ch, .removed res⟩ }
    | _ => none
  | .publish i => match s.calls[i]? with
    | some ⟨key, .leader ch, .removed res⟩ =>
      some { s with
        channels := s.channels.set ch (some res)
        calls := s.calls.set i ⟨key, .leader ch, .returned res⟩ }
    | _ => none

/-- What a leader has published. -/
def Phase.published : Phase R → Option R
  | returned res => some res
  | _ => none

/-- The result that a call has. -/
def Phase.result : Phase R → Option R
  | pending => none
  | finished res => some res
  | removed res => some res
  | returned res => some res

/-- The key of a leader is in the map. -/
def Phase.Entered : Phase R → Prop
  | pending => True
  | finished _ => True
  | _ => False

instance (p : Phase R) : Decidable p.Entered :=
  match p with
  | .pending => .isTrue trivial
  | .finished _ => .isTrue trivial
  | .removed _ => .isFalse id
  | .returned _ => .isFalse id

/-- The invariant. Every leader has a channel for itself, which holds what it has published; the map holds the
channels of the leaders that are at work; every waiter has a leader with its key, and returns what it returned. -/
structure Sound (s : State K R) : Prop where
  channel : ∀ (i : ℕ) (c : Call K R) (ch : ℕ), s.calls[i]? = some c → c.role = .leader ch →
    s.channels[ch]? = some c.phase.published
  own : ∀ (i j : ℕ) (c d : Call K R) (ch : ℕ), s.calls[i]? = some c → s.calls[j]? = some d →
    c.role = .leader ch → d.role = .leader ch → i = j
  entry : ∀ (i : ℕ) (c : Call K R) (ch : ℕ), s.calls[i]? = some c → c.role = .leader ch → c.phase.Entered →
    s.inflight.lookup c.key = some ch
  entered : ∀ (key : K) (ch : ℕ), s.inflight.lookup key = some ch → ∃ (i : ℕ) (c : Call K R),
    s.calls[i]? = some c ∧ c.role = .leader ch ∧ c.key = key ∧ c.phase.Entered
  joined : ∀ (i : ℕ) (c : Call K R) (ch : ℕ), s.calls[i]? = some c → c.role = .waiter ch →
    ∃ (j : ℕ) (d : Call K R), s.calls[j]? = some d ∧ d.role = .leader ch ∧ d.key = c.key ∧
      (c.phase = .pending ∨ ∃ res, c.phase = .returned res ∧ d.phase = .returned res)

theorem sound_init : Sound (init : State K R) where
  channel _ _ _ h := by cases h
  own _ _ _ _ _ h := by cases h
  entry _ _ _ h := by cases h
  entered _ _ h := by cases h
  joined _ _ _ h := by cases h

variable {s s' : State K R}

/-! ## Steps -/

/-- A call that waits. -/
theorem Sound.wait (h : Sound s) {key : K} {ch : ℕ} (hl : s.inflight.lookup key = some ch) :
    Sound { s with calls := s.calls ++ [⟨key, .waiter ch, .pending⟩] } := by
  refine ⟨fun i c ch' hi hr => ?_, fun i j c d ch' hi hj hc hd => ?_, fun i c ch' hi hr hp => ?_,
    fun key' ch' hl' => ?_, fun i c ch' hi hr => ?_⟩
  · rcases getElem?_append_cases hi with hi | ⟨-, rfl⟩
    · exact h.channel i c ch' hi hr
    · cases hr
  · rcases getElem?_append_cases hi with hi | ⟨-, rfl⟩
    · rcases getElem?_append_cases hj with hj | ⟨-, rfl⟩
      · exact h.own i j c d ch' hi hj hc hd
      · cases hd
    · cases hc
  · rcases getElem?_append_cases hi with hi | ⟨-, rfl⟩
    · exact h.entry i c ch' hi hr hp
    · cases hr
  · obtain ⟨i, c, hi, hrest⟩ := h.entered key' ch' hl'
    exact ⟨i, c, getElem?_append_of_some _ hi, hrest⟩
  · rcases getElem?_append_cases hi with hi | ⟨-, rfl⟩
    · obtain ⟨j, d, hj, hrest⟩ := h.joined i c ch' hi hr
      exact ⟨j, d, getElem?_append_of_some _ hj, hrest⟩
    · obtain rfl := Role.waiter.inj hr
      obtain ⟨j, d, hj, hd, hk, -⟩ := h.entered key ch hl
      exact ⟨j, d, getElem?_append_of_some _ hj, hd, hk, .inl rfl⟩

/-- A call that leads: its channel is the next one. -/
theorem Sound.lead (h : Sound s) {key : K} (hl : s.inflight.lookup key = none) :
    Sound {
      inflight := s.inflight.insert key s.channels.length
      channels := s.channels ++ [none]
      calls := s.calls ++ [⟨key, .leader s.channels.length, .pending⟩] } := by
  have hlt : ∀ (i : ℕ) (c : Call K R) (ch : ℕ), s.calls[i]? = some c → c.role = .leader ch →
      ch < s.channels.length := fun i c ch hi hr => lt_of_getElem? (h.channel i c ch hi hr)
  refine ⟨fun i c ch hi hr => ?_, fun i j c d ch hi hj hc hd => ?_, fun i c ch hi hr hp => ?_,
    fun key' ch hl' => ?_, fun i c ch hi hr => ?_⟩
  · rcases getElem?_append_cases hi with hi | ⟨-, rfl⟩
    · show (s.channels ++ [none])[ch]? = _
      rw [List.getElem?_append_left (hlt i c ch hi hr)]
      exact h.channel i c ch hi hr
    · obtain rfl := Role.leader.inj hr
      exact List.getElem?_concat_length
  · rcases getElem?_append_cases hi with hi | ⟨rfl, rfl⟩ <;> rcases getElem?_append_cases hj with hj | ⟨rfl, rfl⟩
    · exact h.own i j c d ch hi hj hc hd
    · obtain rfl := Role.leader.inj hd
      exact absurd (hlt i c _ hi hc) (lt_irrefl _)
    · obtain rfl := Role.leader.inj hc
      exact absurd (hlt j d _ hj hd) (lt_irrefl _)
    · rfl
  · rcases getElem?_append_cases hi with hi | ⟨-, rfl⟩
    · have hold := h.entry i c ch hi hr hp
      have hne : c.key ≠ key := by
        rintro rfl
        rw [hl] at hold
        cases hold
      exact (AList.lookup_insert_ne hne).trans hold
    · obtain rfl := Role.leader.inj hr
      exact AList.lookup_insert _
  · rcases lookup_insert_cases hl' with ⟨rfl, rfl⟩ | ⟨-, hl'⟩
    · exact ⟨s.calls.length, _, List.getElem?_concat_length, rfl, rfl, trivial⟩
    · obtain ⟨i, c, hi, hrest⟩ := h.entered key' ch hl'
      exact ⟨i, c, getElem?_append_of_some _ hi, hrest⟩
  · rcases getElem?_append_cases hi with hi | ⟨-, rfl⟩
    · obtain ⟨j, d, hj, hrest⟩ := h.joined i c ch hi hr
      exact ⟨j, d, getElem?_append_of_some _ hj, hrest⟩
    · cases hr

/-- A leader goes on to its next phase: its channel gets what it publishes, and its key leaves the map in the
phase in which it is no longer entered. -/
theorem Sound.advance (h : Sound s) {i : ℕ} {key : K} {ch : ℕ} {p p' : Phase R}
    (hi : s.calls[i]? = some ⟨key, .leader ch, p⟩) (hp : ∀ res, p ≠ .returned res) (hpp : p'.Entered → p.Entered)
    (hcalls : s'.calls = s.calls.set i ⟨key, .leader ch, p'⟩)
    (hchannels : s'.channels = s.channels.set ch p'.published)
    (hin : ∀ k, s'.inflight.lookup k = if k = key ∧ p.Entered ∧ ¬ p'.Entered then none else s.inflight.lookup k) :
    Sound s' := by
  have hsome := h.channel i _ ch hi rfl
  have hset : s'.calls[i]? = some ⟨key, .leader ch, p'⟩ := by
    rw [hcalls]
    exact getElem?_set_self hi _
  have hother : ∀ j, j ≠ i → s'.calls[j]? = s.calls[j]? := fun j hj => by
    rw [hcalls, List.getElem?_set_ne (Ne.symm hj)]
  have hcases : ∀ {j : ℕ} {c : Call K R}, s'.calls[j]? = some c →
      (j = i ∧ c = ⟨key, .leader ch, p'⟩) ∨ (j ≠ i ∧ s.calls[j]? = some c) := fun hj => by
    rw [hcalls] at hj
    exact getElem?_set_cases hj
  -- another leader has another channel
  have hne : ∀ {j : ℕ} {c : Call K R} {ch' : ℕ}, j ≠ i → s.calls[j]? = some c → c.role = .leader ch' →
      ch' ≠ ch := by
    rintro j c ch' hj hc hr rfl
    exact hj (h.own j i c _ ch' hc hi hr rfl)
  refine ⟨fun j c ch' hj hr => ?_, fun j k c d ch' hj hk hc hd => ?_, fun j c ch' hj hr hent => ?_,
    fun key' ch' hl => ?_, fun j c ch' hj hr => ?_⟩
  · rcases hcases hj with ⟨rfl, rfl⟩ | ⟨hji, hj⟩
    · obtain rfl := Role.leader.inj hr
      rw [hchannels]
      exact getElem?_set_self hsome _
    · rw [hchannels, List.getElem?_set_ne (hne hji hj hr).symm]
      exact h.channel j c ch' hj hr
  · rcases hcases hj with ⟨rfl, rfl⟩ | ⟨hji, hj⟩ <;> rcases hcases hk with ⟨rfl, rfl⟩ | ⟨hki, hk⟩
    · rfl
    · obtain rfl := Role.leader.inj hc
      exact absurd rfl (hne hki hk hd)
    · obtain rfl := Role.leader.inj hd
      exact absurd rfl (hne hji hj hc)
    · exact h.own j k c d ch' hj hk hc hd
  · rcases hcases hj with ⟨rfl, rfl⟩ | ⟨hji, hj⟩
    · obtain rfl := Role.leader.inj hr
      have hold := h.entry _ _ ch hi rfl (hpp hent)
      rw [hin, if_neg fun hcond => hcond.2.2 hent]
      exact hold
    · have hold := h.entry j c ch' hj hr hent
      rw [hin, if_neg]
      · exact hold
      · rintro ⟨hkey, hent', -⟩
        have hlead := h.entry i _ ch hi rfl hent'
        rw [hkey] at hold
        exact hne hji hj hr (Option.some.inj (hold.symm.trans hlead))
  · rw [hin] at hl
    split_ifs at hl with hcond
    obtain ⟨j, c, hj, hr, hk, hent⟩ := h.entered key' ch' hl
    by_cases hji : j = i
    · subst hji
      rw [hi] at hj
      obtain rfl := Option.some.inj hj
      refine ⟨j, _, hset, hr, hk, ?_⟩
      by_contra hcontra
      exact hcond ⟨hk.symm, hent, hcontra⟩
    · exact ⟨j, c, (hother j hji).trans hj, hr, hk, hent⟩
  · rcases hcases hj with ⟨rfl, rfl⟩ | ⟨hji, hj⟩
    · cases hr
    · obtain ⟨k, d, hk, hd, hkey, hres⟩ := h.joined j c ch' hj hr
      by_cases hki : k = i
      · subst hki
        rw [hi] at hk
        obtain rfl := Option.some.inj hk
        refine ⟨k, _, hset, hd, hkey, .inl ?_⟩
        rcases hres with hres | ⟨res, -, hres⟩
        · exact hres
        · exact absurd hres (hp res)
      · exact ⟨k, d, (hother k hki).trans hk, hd, hkey, hres⟩

/-- A waiter that looks at its channel. -/
theorem Sound.look (h : Sound s) {i : ℕ} {key : K} {ch : ℕ} (hi : s.calls[i]? = some ⟨key, .waiter ch, .pending⟩) :
    Sound { s with calls := s.calls.set i ⟨key, .waiter ch, observe s ch⟩ } := by
  have hcases : ∀ {j : ℕ} {c : Call K R} {ch' : ℕ}, (s.calls.set i ⟨key, .waiter ch, observe s ch⟩)[j]? = some c →
      c.role = .leader ch' → s.calls[j]? = some c := by
    intro j c ch' hj hr
    rcases getElem?_set_cases hj with ⟨-, rfl⟩ | ⟨-, hj⟩
    · cases hr
    · exact hj
  have hleader : ∀ {j : ℕ} {c : Call K R} {ch' : ℕ}, s.calls[j]? = some c → c.role = .leader ch' →
      (s.calls.set i ⟨key, .waiter ch, observe s ch⟩)[j]? = some c := by
    intro j c ch' hj hr
    rw [List.getElem?_set_ne]
    · exact hj
    · rintro rfl
      rw [hi] at hj
      obtain rfl := Option.some.inj hj
      cases hr
  refine ⟨fun j c ch' hj hr => h.channel j c ch' (hcases hj hr) hr,
    fun j k c d ch' hj hk hc hd => h.own j k c d ch' (hcases hj hc) (hcases hk hd) hc hd,
    fun j c ch' hj hr => h.entry j c ch' (hcases hj hr) hr, fun key' ch' hl => ?_, fun j c ch' hj hr => ?_⟩
  · obtain ⟨j, c, hj, hr, hrest⟩ := h.entered key' ch' hl
    exact ⟨j, c, hleader hj hr, hr, hrest⟩
  · rcases getElem?_set_cases hj with ⟨rfl, rfl⟩ | ⟨-, hj⟩
    · obtain rfl := Role.waiter.inj hr
      obtain ⟨k, d, hk, hd, hkey, -⟩ := h.joined j _ ch hi rfl
      refine ⟨k, d, hleader hk hd, hd, hkey, ?_⟩
      have hchannel := h.channel k d ch hk hd
      simp only [observe, hchannel, Option.join_some]
      cases hph : d.phase with
      | returned res => exact .inr ⟨res, rfl, rfl⟩
      | _ => exact .inl rfl
    · obtain ⟨k, d, hk, hd, hrest⟩ := h.joined j c ch' hj hr
      exact ⟨k, d, hleader hk hd, hd, hrest⟩

theorem Sound.step {a : Action K R} (h : Sound s) (hs : step s a = some s') : Sound s' := by
  cases a with
  | join key =>
    obtain rfl := Option.some.inj hs
    unfold join
    cases hl : s.inflight.lookup key with
    | some ch => exact h.wait hl
    | none => exact h.lead hl
  | observe i =>
    simp only [Coalesce.step] at hs
    split at hs
    · next key ch hi =>
      obtain rfl := Option.some.inj hs
      exact h.look hi
    · cases hs
  | finish i res =>
    simp only [Coalesce.step] at hs
    split at hs
    · next key ch hi =>
      obtain rfl := Option.some.inj hs
      refine h.advance hi (fun _ => nofun) (fun _ => trivial) rfl ?_ fun k => ?_
      · exact (set_of_getElem? (h.channel i _ ch hi rfl)).symm
      · simp [Phase.Entered]
    · cases hs
  | remove i =>
    simp only [Coalesce.step] at hs
    split at hs
    · next key ch res hi =>
      obtain rfl := Option.some.inj hs
      refine h.advance hi (fun _ => nofun) (fun _ => trivial) rfl ?_ fun k => ?_
      · exact (set_of_getElem? (h.channel i _ ch hi rfl)).symm
      · by_cases hk : k = key
        · subst hk
          simp [Phase.Entered]
        · simp [hk]
    · cases hs
  | publish i =>
    simp only [Coalesce.step] at hs
    split at hs
    · next key ch res hi =>
      obtain rfl := Option.some.inj hs
      refine h.advance hi (fun _ => nofun) ?_ rfl rfl fun k => ?_
      · exact id
      · simp [Phase.Entered]
    · cases hs

/-- **Every run keeps the invariant.** -/
theorem sound_of_exec {as : List (Action K R)} (h : Run.exec Coalesce.step init as = some s) : Sound s :=
  Run.exec_invariant (fun _ _ _ hI => hI.step) sound_init h

/-! ## What it gives -/

/-- What a step does to the calls: there is one more, or one of them goes on with its key and with its result,
unless it gets one, from its work or from its channel. -/
theorem step_cases {a : Action K R} (hs : Coalesce.step s a = some s') :
    (∃ key, a = .join key ∧ s' = join s key) ∨
      ∃ i c c', s.calls[i]? = some c ∧ s'.calls = s.calls.set i c' ∧ c'.key = c.key ∧
        ∀ res, c'.phase.result = some res → c.phase.result = some res ∨ a = .finish i res ∨
          ∃ ch, c.role = .waiter ch ∧ s.channels[ch]? = some (some res) := by
  cases a with
  | join key => exact .inl ⟨key, rfl, (Option.some.inj hs).symm⟩
  | observe i =>
    simp only [Coalesce.step] at hs
    split at hs
    · next key ch hi =>
      obtain rfl := Option.some.inj hs
      refine .inr ⟨i, _, _, hi, rfl, rfl, fun res hres => .inr (.inr ⟨ch, rfl, ?_⟩)⟩
      unfold observe at hres
      split at hres
      · next res' hch =>
        obtain rfl := Option.some.inj hres
        exact Option.join_eq_some_iff.mp hch
      · cases hres
    · cases hs
  | finish i res =>
    simp only [Coalesce.step] at hs
    split at hs
    · next key ch hi =>
      obtain rfl := Option.some.inj hs
      exact .inr ⟨i, _, _, hi, rfl, rfl, fun res' hres => .inr (.inl (by rw [Option.some.inj hres]))⟩
    · cases hs
  | remove i =>
    simp only [Coalesce.step] at hs
    split at hs
    · next key ch res hi =>
      obtain rfl := Option.some.inj hs
      exact .inr ⟨i, _, _, hi, rfl, rfl, fun res' hres => .inl hres⟩
    · cases hs
  | publish i =>
    simp only [Coalesce.step] at hs
    split at hs
    · next key ch res hi =>
      obtain rfl := Option.some.inj hs
      exact .inr ⟨i, _, _, hi, rfl, rfl, fun res' hres => .inl hres⟩
    · cases hs

theorem join_calls (s : State K R) (key : K) :
    ∃ role, (join s key).calls = s.calls ++ [⟨key, role, .pending⟩] := by
  unfold join
  split
  · exact ⟨_, rfl⟩
  · exact ⟨_, rfl⟩

/-- A call keeps its key. -/
theorem step_key {a : Action K R} (hs : Coalesce.step s a = some s') {j : ℕ} {c : Call K R}
    (hj : s.calls[j]? = some c) : ∃ c', s'.calls[j]? = some c' ∧ c'.key = c.key := by
  rcases step_cases hs with ⟨key, rfl, rfl⟩ | ⟨i, d, d', hi, hcalls, hkey, -⟩
  · obtain ⟨role, hrole⟩ := join_calls s key
    rw [hrole]
    exact ⟨c, getElem?_append_of_some _ hj, rfl⟩
  · rw [hcalls]
    by_cases hji : j = i
    · subst hji
      rw [hi] at hj
      obtain rfl := Option.some.inj hj
      exact ⟨d', getElem?_set_self hi d', hkey⟩
    · exact ⟨c, (List.getElem?_set_ne (Ne.symm hji)).trans hj, rfl⟩

/-- **Where a result comes from**: from the work of the call itself, or from a call of the same key that had it
before. -/
theorem Sound.step_result (h : Sound s) {a : Action K R} (hs : Coalesce.step s a = some s') {j : ℕ}
    {c : Call K R} {res : R} (hj : s'.calls[j]? = some c) (hres : c.phase.result = some res) :
    ∃ i d, s.calls[i]? = some d ∧ d.key = c.key ∧ (d.phase.result = some res ∨ (i = j ∧ a = .finish j res)) := by
  rcases step_cases hs with ⟨key, rfl, rfl⟩ | ⟨i, d, d', hi, hcalls, hkey, hstep⟩
  · obtain ⟨role, hrole⟩ := join_calls s key
    rw [hrole] at hj
    rcases getElem?_append_cases hj with hj | ⟨-, rfl⟩
    · exact ⟨j, c, hj, rfl, .inl hres⟩
    · cases hres
  · rw [hcalls] at hj
    rcases getElem?_set_cases hj with ⟨rfl, rfl⟩ | ⟨-, hj⟩
    · rcases hstep res hres with hres | ha | ⟨ch, hrole, hch⟩
      · exact ⟨j, d, hi, hkey.symm, .inl hres⟩
      · exact ⟨j, d, hi, hkey.symm, .inr ⟨rfl, ha⟩⟩
      · -- what is on the channel was published by the leader
        obtain ⟨k, e, hk, he, hekey, -⟩ := h.joined j d ch hi hrole
        have hpub := h.channel k e ch hk he
        rw [hch] at hpub
        refine ⟨k, e, hk, hekey.trans hkey.symm, .inl ?_⟩
        cases hph : e.phase with
        | returned res' =>
          rw [hph] at hpub
          exact (Option.some.inj hpub).symm
        | _ =>
          rw [hph] at hpub
          cases Option.some.inj hpub
    · exact ⟨j, c, hj, rfl, .inl hres⟩

/-- **At most one leader of a key is at work.** -/
theorem Sound.leader_unique (h : Sound s) {i j : ℕ} {c d : Call K R} {ch ch' : ℕ} (hi : s.calls[i]? = some c)
    (hj : s.calls[j]? = some d) (hc : c.role = .leader ch) (hd : d.role = .leader ch') (hkey : c.key = d.key)
    (hcp : c.phase.Entered) (hdp : d.phase.Entered) : i = j := by
  have h₁ := h.entry i c ch hi hc hcp
  have h₂ := h.entry j d ch' hj hd hdp
  rw [hkey, h₂] at h₁
  obtain rfl := Option.some.inj h₁
  exact h.own i j c d _ hi hj hc hd

/-- **A waiter returns what the leader returned that it joined.** -/
theorem Sound.waiter_result (h : Sound s) {i : ℕ} {c : Call K R} {ch : ℕ} {res : R} (hi : s.calls[i]? = some c)
    (hc : c.role = .waiter ch) (hres : c.phase = .returned res) :
    ∃ (j : ℕ) (d : Call K R), s.calls[j]? = some d ∧ d.role = .leader ch ∧ d.key = c.key ∧
      d.phase = .returned res := by
  obtain ⟨j, d, hj, hd, hkey, hp | ⟨res', hp, hdp⟩⟩ := h.joined i c ch hi hc
  · rw [hp] at hres
    cases hres
  · rw [hp] at hres
    obtain rfl := Phase.returned.inj hres
    exact ⟨j, d, hj, hd, hkey, hdp⟩

/-- **No waiter is lost**: once its leader has returned it has the result, or gets it when it looks. -/
theorem Sound.observe_returned (h : Sound s) {i j : ℕ} {key : K} {ch : ℕ} {d : Call K R} {res : R}
    (hi : s.calls[i]? = some ⟨key, .waiter ch, .pending⟩) (hj : s.calls[j]? = some d) (hd : d.role = .leader ch)
    (hres : d.phase = .returned res) :
    Coalesce.step s (.observe i) = some { s with calls := s.calls.set i ⟨key, .waiter ch, .returned res⟩ } := by
  have hchannel := h.channel j d ch hj hd
  simp only [Coalesce.step, hi, observe, hchannel, hres, Phase.published, Option.join_some]

/-- **A leader that has removed its key** has no entry in the map. -/
theorem Sound.removed_gone (h : Sound s) {i : ℕ} {c : Call K R} {ch : ℕ} (hi : s.calls[i]? = some c)
    (hc : c.role = .leader ch) (hp : ¬ c.phase.Entered) : ∀ key, s.inflight.lookup key ≠ some ch := by
  intro key hl
  obtain ⟨j, d, hj, hd, -, hent⟩ := h.entered key ch hl
  obtain rfl := h.own i j c d ch hi hj hc hd
  rw [hi] at hj
  obtain rfl := Option.some.inj hj
  exact hp hent

/-- When a leader removes its key, there is no entry for the key. -/
theorem remove_gone {i : ℕ} (hs : step s (.remove i) = some s') :
    ∃ c, s.calls[i]? = some c ∧ s'.inflight.lookup c.key = none := by
  simp only [step] at hs
  split at hs
  · next key ch res hi =>
    obtain rfl := Option.some.inj hs
    exact ⟨_, hi, AList.lookup_erase _ _⟩
  · cases hs

end Coalesce
