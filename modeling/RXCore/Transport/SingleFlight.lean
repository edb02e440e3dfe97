import RXCore.Net
import RXCore.Lib.Run

/-!
# The single flight of DNS lookups

`SingleFlight::execute`: the first caller of a key becomes its leader and runs the lookup, the others
wait on the leader's `watch` channel. A future runs without interruption between two awaits, so the
steps are: a call up to its first await, a waiting caller that is polled again, a lookup that gives
its result, and a future that is dropped at its await.

* `State`, `Action`, `step`; `observe` is the loop of a waiting caller;
* `Invariant`: what holds in every reachable state;
* `FreshAfterEnd`: a key without a leader is not in the map, and its next caller leads;
* **`freshAfterEnd_iff`**: this lasts exactly as long as no leader is dropped;
* `stale_forever`: once a leader has been dropped, no later caller of its key ever leads.
-/

set_option autoImplicit false

namespace RXCore.SingleFlight

open Run

/-- The result of a lookup: addresses and their lifetime, or the text of the error. -/
abbrev Answer := Except String (List Ipv4Addr × ℕ)

/-- A `watch` channel: the value sent on it and whether its sender exists. -/
structure Channel where
  value : Option Answer
  sender : Bool

/-- What the lock block made of a caller. -/
inductive Role where
  | leader (ch : ℕ)
  | follower (ch : ℕ)
deriving DecidableEq

/-- Where the future of a caller stands. -/
inductive Phase where
  | pending
  | returned (res : Answer)
  | dropped

structure Caller where
  key : String
  role : Role
  phase : Phase

structure State where
  inflight : AList fun _ : String => ℕ
  channels : List Channel
  callers : List Caller

inductive Action where
  /-- `execute` runs up to its first await. -/
  | call (key : String)
  /-- A waiting caller is polled again. -/
  | poll (i : ℕ)
  /-- The lookup of a leader gives its result. -/
  | finish (i : ℕ) (res : Answer)
  /-- The future of a caller is dropped at its await. -/
  | drop (i : ℕ)

def init : State := ⟨∅, [], []⟩

/-- The loop of a waiting caller: the value, an error once the sender is gone, or another wait. -/
def observe (c : Channel) : Phase :=
  match c.value with
  | some res => .returned res
  | none => if c.sender then .pending
    else .returned (.error "In-flight DNS request coalescing channel closed")

/-- The lock block of `execute`, and the first turn of the loop for a caller that found the key. -/
def call (s : State) (key : String) : Option State :=
  match s.inflight.lookup key with
  | some ch => do
    let c ← s.channels[ch]?
    return { s with callers := s.callers ++ [⟨key, .follower ch, observe c⟩] }
  | none =>
    let ch := s.channels.length
    some { inflight := s.inflight.insert key ch
           channels := s.channels ++ [⟨none, true⟩]
           callers := s.callers ++ [⟨key, .leader ch, .pending⟩] }

def setPhase (s : State) (i : ℕ) (c : Caller) (p : Phase) : List Caller :=
  s.callers.set i { c with phase := p }

def step (s : State) : Action → Option State
  | .call key => call s key
  | .poll i => match s.callers[i]? with
    | some ⟨key, .follower ch, .pending⟩ => do
      let c ← s.channels[ch]?
      return { s with callers := setPhase s i ⟨key, .follower ch, .pending⟩ (observe c) }
    | _ => none
  | .finish i res => match s.callers[i]? with
    | some ⟨key, .leader ch, .pending⟩ =>
      -- the key leaves the map, the result is sent, and the sender goes with the future
      some { inflight := s.inflight.erase key
             channels := s.channels.set ch ⟨some res, false⟩
             callers := setPhase s i ⟨key, .leader ch, .pending⟩ (.returned res) }
    | _ => none
  | .drop i => match s.callers[i]? with
    | some ⟨key, .leader ch, .pending⟩ =>
      -- nothing runs after the await: the sender is dropped and the map keeps the receiver
      some { s with channels := s.channels.modify ch fun c => { c with sender := false }
                    callers := setPhase s i ⟨key, .leader ch, .pending⟩ .dropped }
    | some ⟨key, .follower ch, .pending⟩ =>
      some { s with callers := setPhase s i ⟨key, .follower ch, .pending⟩ .dropped }
    | _ => none

/-! ## What a step does -/

theorem call_cases {s s' : State} {key : String} (h : call s key = some s') :
    (∃ ch p, s.inflight.lookup key = some ch ∧
      s' = { s with callers := s.callers ++ [⟨key, .follower ch, p⟩] }) ∨
    (s.inflight.lookup key = none ∧
      s' = { inflight := s.inflight.insert key s.channels.length
             channels := s.channels ++ [⟨none, true⟩]
             callers := s.callers ++ [⟨key, .leader s.channels.length, .pending⟩] }) := by
  unfold call at h
  cases hl : s.inflight.lookup key with
  | some ch =>
    simp only [hl] at h
    obtain ⟨c, -, h⟩ := Option.bind_eq_some_iff.mp h
    exact .inl ⟨ch, observe c, rfl, (Option.some.inj h).symm⟩
  | none =>
    simp only [hl] at h
    exact .inr ⟨rfl, (Option.some.inj h).symm⟩

theorem poll_cases {s s' : State} {i : ℕ} (h : step s (.poll i) = some s') :
    ∃ key ch p, s.callers[i]? = some ⟨key, .follower ch, .pending⟩ ∧
      s' = { s with callers := setPhase s i ⟨key, .follower ch, .pending⟩ p } := by
  simp only [step] at h
  split at h
  · next key ch hc =>
    obtain ⟨c, -, h⟩ := Option.bind_eq_some_iff.mp h
    exact ⟨key, ch, observe c, hc, (Option.some.inj h).symm⟩
  · cases h

theorem finish_cases {s s' : State} {i : ℕ} {res : Answer} (h : step s (.finish i res) = some s') :
    ∃ key ch, s.callers[i]? = some ⟨key, .leader ch, .pending⟩ ∧
      s' = { inflight := s.inflight.erase key
             channels := s.channels.set ch ⟨some res, false⟩
             callers := setPhase s i ⟨key, .leader ch, .pending⟩ (.returned res) } := by
  simp only [step] at h
  split at h
  · next key ch hc => exact ⟨key, ch, hc, (Option.some.inj h).symm⟩
  · cases h

theorem drop_cases {s s' : State} {i : ℕ} (h : step s (.drop i) = some s') :
    (∃ key ch, s.callers[i]? = some ⟨key, .leader ch, .pending⟩ ∧
      s' = { s with channels := s.channels.modify ch fun c => { c with sender := false }
                    callers := setPhase s i ⟨key, .leader ch, .pending⟩ .dropped }) ∨
    (∃ key ch, s.callers[i]? = some ⟨key, .follower ch, .pending⟩ ∧
      s' = { s with callers := setPhase s i ⟨key, .follower ch, .pending⟩ .dropped }) := by
  simp only [step] at h
  split at h
  · next key ch hc => exact .inl ⟨key, ch, hc, (Option.some.inj h).symm⟩
  · next key ch hc => exact .inr ⟨key, ch, hc, (Option.some.inj h).symm⟩
  · cases h

/-! ## The invariant -/

/-- Leaders have channels of their own, a pending leader's channel stands under its key, and every
entry of the map was made by a leader. -/
structure Invariant (s : State) : Prop where
  leader_lt : ∀ (i : ℕ) (c : Caller) (ch : ℕ), s.callers[i]? = some c → c.role = .leader ch → ch < s.channels.length
  leader_inj : ∀ (i j : ℕ) (c d : Caller) (ch : ℕ), s.callers[i]? = some c → s.callers[j]? = some d →
    c.role = .leader ch → d.role = .leader ch → i = j
  pending_entry : ∀ (i : ℕ) (c : Caller) (ch : ℕ), s.callers[i]? = some c → c.role = .leader ch → c.phase = .pending →
    s.inflight.lookup c.key = some ch
  entry_leader : ∀ (key : String) (ch : ℕ), s.inflight.lookup key = some ch →
    ∃ (i : ℕ) (c : Caller), s.callers[i]? = some c ∧ c.key = key ∧ c.role = .leader ch

/-- Some caller of the key leads and waits for its lookup. -/
def Leading (s : State) (key : String) : Prop :=
  ∃ (i : ℕ) (c : Caller) (ch : ℕ), s.callers[i]? = some c ∧ c.key = key ∧ c.role = .leader ch ∧ c.phase = .pending

/-- Once the leader of a key has ended, the key is not in the map and its next caller leads. -/
def FreshAfterEnd (s : State) : Prop :=
  ∀ key, ¬ Leading s key → s.inflight.lookup key = none ∧
    ∀ s', step s (.call key) = some s' → Leading s' key

/-- The step is not the drop of a leader. -/
def KeepsLeader (s : State) : Action → Prop
  | .drop i => ∀ (c : Caller) (ch : ℕ), s.callers[i]? = some c → c.role ≠ .leader ch
  | _ => True

theorem invariant_init : Invariant init where
  leader_lt _ _ _ h := by cases h
  leader_inj _ _ _ _ _ h := by cases h
  pending_entry _ _ _ h := by cases h
  entry_leader _ _ h := by cases h

/-- A caller of the updated list is an old one, up to its phase. -/
theorem setPhase_some {s : State} {i j : ℕ} {c d : Caller} {p : Phase} (hc : s.callers[i]? = some c)
    (h : (setPhase s i c p)[j]? = some d) :
    (j = i ∧ d = { c with phase := p }) ∨ (j ≠ i ∧ s.callers[j]? = some d) := by
  obtain ⟨hi, -⟩ := List.getElem?_eq_some_iff.mp hc
  rw [setPhase, List.getElem?_set] at h
  split_ifs at h with hij
  · exact .inl ⟨hij.symm, (Option.some.inj h).symm⟩
  · exact .inr ⟨fun h => hij h.symm, h⟩

theorem setPhase_self {s : State} {i : ℕ} {c : Caller} (p : Phase) (hc : s.callers[i]? = some c) :
    (setPhase s i c p)[i]? = some { c with phase := p } := by
  obtain ⟨hi, -⟩ := List.getElem?_eq_some_iff.mp hc
  rw [setPhase, List.getElem?_set_self hi]

theorem setPhase_ne {s : State} {i j : ℕ} {c : Caller} (p : Phase) (h : j ≠ i) :
    (setPhase s i c p)[j]? = s.callers[j]? := by
  rw [setPhase, List.getElem?_set_ne (Ne.symm h)]

/-- A caller of the longer list is an old one or the new one. -/
theorem append_some {cs : List Caller} {c d : Caller} {j : ℕ} (h : (cs ++ [c])[j]? = some d) :
    cs[j]? = some d ∨ (j = cs.length ∧ d = c) := by
  rcases lt_trichotomy j cs.length with hj | rfl | hj
  · exact .inl (by rwa [List.getElem?_append_left hj] at h)
  · rw [List.getElem?_concat_length] at h
    exact .inr ⟨rfl, (Option.some.inj h).symm⟩
  · rw [List.getElem?_eq_none (by simp; omega)] at h
    cases h

theorem append_of_some {cs : List Caller} {d : Caller} {j : ℕ} (c : Caller) (h : cs[j]? = some d) :
    (cs ++ [c])[j]? = some d := by
  obtain ⟨hj, -⟩ := List.getElem?_eq_some_iff.mp h
  rwa [List.getElem?_append_left hj]

/-- Callers that keep their keys and roles, and no more pending leaders than before. -/
theorem Invariant.of_setPhase {s s' : State} {i : ℕ} {c : Caller} {p : Phase} (hI : Invariant s)
    (hc : s.callers[i]? = some c) (hcs : s'.callers = setPhase s i c p)
    (hch : s'.channels.length = s.channels.length) (hin : s'.inflight = s.inflight)
    (hp : p = .pending → c.phase = .pending) : Invariant s' := by
  have old : ∀ (j : ℕ) (d : Caller), s'.callers[j]? = some d →
      ∃ d' : Caller, s.callers[j]? = some d' ∧ d.key = d'.key ∧ d.role = d'.role ∧
        (d.phase = .pending → d'.phase = .pending) := by
    intro j d hd
    rw [hcs] at hd
    rcases setPhase_some hc hd with ⟨rfl, rfl⟩ | ⟨-, hd⟩
    · exact ⟨c, hc, rfl, rfl, hp⟩
    · exact ⟨d, hd, rfl, rfl, id⟩
  constructor
  · intro j d ch hd hr
    obtain ⟨d', hd', -, hr', -⟩ := old j d hd
    rw [hch]
    exact hI.leader_lt j d' ch hd' (hr' ▸ hr)
  · intro j k d e ch hd he hr hr'
    obtain ⟨d', hd', -, hrd, -⟩ := old j d hd
    obtain ⟨e', he', -, hre, -⟩ := old k e he
    exact hI.leader_inj j k d' e' ch hd' he' (hrd ▸ hr) (hre ▸ hr')
  · intro j d ch hd hr hph
    obtain ⟨d', hd', hk, hr', hph'⟩ := old j d hd
    rw [hin, hk]
    exact hI.pending_entry j d' ch hd' (hr' ▸ hr) (hph' hph)
  · intro key ch hl
    rw [hin] at hl
    obtain ⟨j, d, hd, hk, hr⟩ := hI.entry_leader key ch hl
    rw [hcs]
    by_cases hj : j = i
    · subst hj
      rw [hd] at hc
      obtain rfl := Option.some.inj hc
      exact ⟨j, _, setPhase_self p hd, hk, hr⟩
    · exact ⟨j, d, by rwa [setPhase_ne p hj], hk, hr⟩

theorem Invariant.call {s s' : State} {key : String} (hI : Invariant s) (h : call s key = some s') : Invariant s' := by
  rcases call_cases h with ⟨ch, p, hl, rfl⟩ | ⟨hl, rfl⟩
  · -- a follower changes nothing that the invariant speaks of
    constructor
    · intro i c ch' hc hr
      rcases append_some hc with hc | ⟨-, rfl⟩
      · exact hI.leader_lt i c ch' hc hr
      · cases hr
    · intro i j c d ch' hc hd hrc hrd
      rcases append_some hc with hc | ⟨-, rfl⟩
      · rcases append_some hd with hd | ⟨-, rfl⟩
        · exact hI.leader_inj i j c d ch' hc hd hrc hrd
        · cases hrd
      · cases hrc
    · intro i c ch' hc hr hp
      rcases append_some hc with hc | ⟨-, rfl⟩
      · exact hI.pending_entry i c ch' hc hr hp
      · cases hr
    · intro key' ch' hl'
      obtain ⟨i, c, hc, hk, hr⟩ := hI.entry_leader key' ch' hl'
      exact ⟨i, c, append_of_some _ hc, hk, hr⟩
  · -- a leader gets the next channel
    constructor
    · intro i c ch' hc hr
      rw [List.length_append, List.length_singleton]
      rcases append_some hc with hc | ⟨-, rfl⟩
      · have := hI.leader_lt i c ch' hc hr
        omega
      · cases hr
        omega
    · intro i j c d ch' hc hd hrc hrd
      rcases append_some hc with hc | ⟨rfl, rfl⟩ <;> rcases append_some hd with hd | ⟨rfl, rfl⟩
      · exact hI.leader_inj i j c d ch' hc hd hrc hrd
      · cases hrd
        exact absurd (hI.leader_lt i c _ hc hrc) (lt_irrefl _)
      · cases hrc
        exact absurd (hI.leader_lt j d _ hd hrd) (lt_irrefl _)
      · rfl
    · intro i c ch' hc hr hp
      rcases append_some hc with hc | ⟨-, rfl⟩
      · have hlc := hI.pending_entry i c ch' hc hr hp
        have hne : c.key ≠ key := fun h => by rw [h, hl] at hlc; cases hlc
        exact (AList.lookup_insert_ne hne).trans hlc
      · cases hr
        exact AList.lookup_insert _
    · intro key' ch' hl'
      by_cases hk : key' = key
      · subst hk
        have hch := Option.some.inj ((AList.lookup_insert _).symm.trans hl')
        exact ⟨s.callers.length, _, List.getElem?_concat_length, rfl, congrArg _ hch⟩
      · obtain ⟨i, c, hc, hkc, hr⟩ :=
          hI.entry_leader key' ch' ((AList.lookup_insert_ne hk).symm.trans hl')
        exact ⟨i, c, append_of_some _ hc, hkc, hr⟩

theorem Invariant.finish {s s' : State} {i : ℕ} {res : Answer} (hI : Invariant s)
    (h : step s (.finish i res) = some s') : Invariant s' := by
  obtain ⟨key, ch, hc, rfl⟩ := finish_cases h
  have hlen : (s.channels.set ch ⟨some res, false⟩).length = s.channels.length := List.length_set
  constructor
  · intro j d ch' hd hr
    change ch' < (s.channels.set ch ⟨some res, false⟩).length
    rw [hlen]
    rcases setPhase_some hc hd with ⟨rfl, rfl⟩ | ⟨-, hd⟩
    · exact hI.leader_lt _ _ ch' hc hr
    · exact hI.leader_lt j d ch' hd hr
  · intro j k d e ch' hd he hr hr'
    rcases setPhase_some hc hd with ⟨rfl, rfl⟩ | ⟨-, hd'⟩ <;>
      rcases setPhase_some hc he with ⟨rfl, rfl⟩ | ⟨-, he'⟩
    · rfl
    · exact hI.leader_inj _ _ _ _ ch' hc he' hr hr'
    · exact hI.leader_inj _ _ _ _ ch' hd' hc hr hr'
    · exact hI.leader_inj _ _ _ _ ch' hd' he' hr hr'
  · intro j d ch' hd hr hp
    rcases setPhase_some hc hd with ⟨rfl, rfl⟩ | ⟨hj, hd'⟩
    · cases hp
    · have hld := hI.pending_entry j d ch' hd' hr hp
      -- another pending leader has another key, since it stands under its own
      have hne : d.key ≠ key := fun hk => hj <| by
        have hlc := hI.pending_entry i _ ch hc rfl rfl
        rw [hk] at hld
        obtain rfl := Option.some.inj (hld.symm.trans hlc)
        exact hI.leader_inj j i d _ _ hd' hc hr rfl
      exact (AList.lookup_erase_ne hne).trans hld
  · intro key' ch' hl
    have hk' : key' ≠ key := fun hk => by rw [hk, AList.lookup_erase] at hl; cases hl
    obtain ⟨j, d, hd, hk, hr⟩ := hI.entry_leader key' ch' ((AList.lookup_erase_ne hk').symm.trans hl)
    have hj : j ≠ i := by
      rintro rfl
      rw [hd] at hc
      obtain rfl := Option.some.inj hc
      exact hk' hk.symm
    exact ⟨j, d, by rwa [setPhase_ne _ hj], hk, hr⟩

theorem Invariant.step {s s' : State} {a : Action} (hI : Invariant s) (h : step s a = some s') : Invariant s' := by
  cases a with
  | call key => exact hI.call h
  | poll i =>
    obtain ⟨key, ch, p, hc, rfl⟩ := poll_cases h
    exact hI.of_setPhase hc rfl rfl rfl fun _ => rfl
  | finish i res => exact hI.finish h
  | drop i =>
    rcases drop_cases h with ⟨key, ch, hc, rfl⟩ | ⟨key, ch, hc, rfl⟩
    · exact hI.of_setPhase hc rfl (List.length_modify _ _ _) rfl fun _ => rfl
    · exact hI.of_setPhase hc rfl rfl rfl fun _ => rfl

/-! ## Leaders and the map -/

theorem call_leading {s s' : State} {key : String} (hl : s.inflight.lookup key = none)
    (h : step s (.call key) = some s') : Leading s' key := by
  rcases call_cases h with ⟨ch, p, hl', -⟩ | ⟨-, rfl⟩
  · rw [hl] at hl'
    cases hl'
  · exact ⟨s.callers.length, _, s.channels.length, List.getElem?_concat_length, rfl, rfl, rfl⟩

/-- A key without a leader is fresh exactly when no entry of the map is left behind. -/
theorem freshAfterEnd_iff_entries (s : State) :
    FreshAfterEnd s ↔ ∀ key, s.inflight.lookup key ≠ none → Leading s key := by
  constructor
  · intro h key hl
    by_contra hn
    exact hl (h key hn).1
  · intro h key hn
    have hl : s.inflight.lookup key = none := by
      by_contra hl
      exact hn (h key hl)
    exact ⟨hl, fun s' hs => call_leading hl hs⟩

theorem Leading.append {s s' : State} {key : String} (c : Caller) (h : Leading s key)
    (hcs : s'.callers = s.callers ++ [c]) : Leading s' key := by
  obtain ⟨i, d, ch, hd, hk, hr, hp⟩ := h
  exact ⟨i, d, ch, hcs ▸ append_of_some c hd, hk, hr, hp⟩

/-- The phase of a follower, or of a caller of another key, is no leader's. -/
theorem Leading.setPhase {s s' : State} {key : String} {i : ℕ} {c : Caller} {p : Phase}
    (h : Leading s key) (hc : s.callers[i]? = some c) (hcs : s'.callers = setPhase s i c p)
    (hne : c.key ≠ key ∨ ∃ ch, c.role = .follower ch) : Leading s' key := by
  obtain ⟨j, d, ch, hd, hk, hr, hp⟩ := h
  have hj : j ≠ i := by
    rintro rfl
    rw [hd] at hc
    obtain rfl := Option.some.inj hc
    rcases hne with hne | ⟨ch', hf⟩
    · exact hne hk
    · rw [hr] at hf
      cases hf
  exact ⟨j, d, ch, by rwa [hcs, setPhase_ne p hj], hk, hr, hp⟩

/-- A dropped leader leaves its key behind, and nobody leads it. -/
theorem drop_leader {s s' : State} {i : ℕ} {c : Caller} {ch : ℕ} (hI : Invariant s)
    (hc : s.callers[i]? = some c) (hr : c.role = .leader ch) (h : step s (.drop i) = some s') :
    s'.inflight.lookup c.key = some ch ∧ ¬ Leading s' c.key := by
  rcases drop_cases h with ⟨key, ch', hc', rfl⟩ | ⟨key, ch', hc', rfl⟩
  · rw [hc] at hc'
    obtain rfl := Option.some.inj hc'
    obtain rfl := Role.leader.inj hr
    have hl := hI.pending_entry i _ ch' hc rfl rfl
    refine ⟨hl, ?_⟩
    rintro ⟨j, d, ch, hd, hk, hrd, hp⟩
    rcases setPhase_some hc hd with ⟨rfl, rfl⟩ | ⟨hj, hd⟩
    · cases hp
    · have hld := hI.pending_entry j d ch hd hrd hp
      rw [hk] at hld
      obtain rfl := Option.some.inj (hl.symm.trans hld)
      exact hj (hI.leader_inj j i d _ _ hd hc hrd rfl)
  · rw [hc] at hc'
    obtain rfl := Option.some.inj hc'
    cases hr

/-- Every step but the drop of a leader keeps the map clean. -/
theorem freshAfterEnd_step {s s' : State} {a : Action} (hP : FreshAfterEnd s)
    (hC : KeepsLeader s a) (h : step s a = some s') : FreshAfterEnd s' := by
  rw [freshAfterEnd_iff_entries] at hP ⊢
  intro key hl
  cases a with
  | call k =>
    rcases call_cases h with ⟨ch, p, hk, rfl⟩ | ⟨hk, rfl⟩
    · exact (hP key hl).append _ rfl
    · by_cases hkey : key = k
      · subst hkey
        exact call_leading hk h
      · exact (hP key fun hn => hl ((AList.lookup_insert_ne hkey).trans hn)).append _ rfl
  | poll i =>
    obtain ⟨k, ch, p, hc, rfl⟩ := poll_cases h
    exact (hP key hl).setPhase hc rfl (.inr ⟨ch, rfl⟩)
  | finish i res =>
    obtain ⟨k, ch, hc, rfl⟩ := finish_cases h
    have hkey : key ≠ k := fun hk => hl (hk ▸ AList.lookup_erase _ _)
    exact (hP key fun hn => hl ((AList.lookup_erase_ne hkey).trans hn)).setPhase hc rfl
      (.inl fun hk => hkey hk.symm)
  | drop i =>
    rcases drop_cases h with ⟨k, ch, hc, rfl⟩ | ⟨k, ch, hc, rfl⟩
    · exact absurd rfl (hC _ ch hc)
    · exact (hP key hl).setPhase hc rfl (.inr ⟨ch, rfl⟩)

/-- The drop of a leader is the one step that leaves an entry behind. -/
theorem freshAfterEnd_step_iff {s s' : State} {a : Action} (hI : Invariant s)
    (hP : FreshAfterEnd s) (h : step s a = some s') : FreshAfterEnd s' ↔ KeepsLeader s a := by
  refine ⟨fun hP' => ?_, fun hC => freshAfterEnd_step hP hC h⟩
  cases a with
  | call | poll | finish => trivial
  | drop i =>
    intro c ch hc hr
    obtain ⟨hl, hn⟩ := drop_leader hI hc hr h
    rw [(hP' c.key hn).1] at hl
    cases hl

/-- **The map is clean in every state of a run if and only if the run drops no leader.** -/
theorem freshAfterEnd_iff (as : List Action) :
    Always step FreshAfterEnd init as ↔ Meets step KeepsLeader init as := by
  refine always_iff_meets (I := Invariant) (fun _ _ _ hI _ _ => hI.step)
    (fun _ _ _ hI hP => freshAfterEnd_step_iff hI hP) invariant_init ?_ as
  exact (freshAfterEnd_iff_entries init).mpr fun key hl => absurd rfl hl

/-- The leader of a key is dropped during its lookup. -/
def droppedLeader : List Action := [.call "example.com", .drop 0]

/-- The key stays in the map, and its next caller does not lead. -/
theorem dropped_leader_stale :
    ∃ s, exec step init droppedLeader = some s ∧ ¬ FreshAfterEnd s := by
  refine ⟨_, rfl, fun h => ?_⟩
  have hn := (h "example.com" ?_).1
  · exact absurd hn (by decide)
  · rintro ⟨_ | i, c, ch, hc, -, -, hp⟩
    · obtain rfl := Option.some.inj hc
      cases hp
    · cases hc

/-! ## After a leader was dropped -/

/-- An entry whose leader is gone. -/
def Stale (key : String) (s : State) : Prop := s.inflight.lookup key ≠ none ∧ ¬ Leading s key

theorem stale_step {s s' : State} {a : Action} {key : String} (hS : Stale key s)
    (h : step s a = some s') : Stale key s' := by
  obtain ⟨hl, hn⟩ := hS
  have old : ∀ {i : ℕ} {c : Caller} {p : Phase}, s.callers[i]? = some c →
      s'.callers = setPhase s i c p → (p = .pending → c.phase = .pending) → ¬ Leading s' key := by
    rintro i c p hc hcs hp ⟨j, d, ch, hd, hk, hr, hpd⟩
    rw [hcs] at hd
    rcases setPhase_some hc hd with ⟨rfl, rfl⟩ | ⟨-, hd⟩
    · exact hn ⟨j, c, ch, hc, hk, hr, hp hpd⟩
    · exact hn ⟨j, d, ch, hd, hk, hr, hpd⟩
  cases a with
  | call k =>
    rcases call_cases h with ⟨ch, p, hk, rfl⟩ | ⟨hk, rfl⟩
    · refine ⟨hl, ?_⟩
      rintro ⟨j, d, ch', hd, hkd, hr, hpd⟩
      rcases append_some hd with hd | ⟨-, rfl⟩
      · exact hn ⟨j, d, ch', hd, hkd, hr, hpd⟩
      · cases hr
    · have hkey : key ≠ k := fun h => hl (h ▸ hk)
      refine ⟨fun h => hl ((AList.lookup_insert_ne hkey).symm.trans h), ?_⟩
      rintro ⟨j, d, ch', hd, hkd, hr, hpd⟩
      rcases append_some hd with hd | ⟨-, rfl⟩
      · exact hn ⟨j, d, ch', hd, hkd, hr, hpd⟩
      · exact hkey hkd.symm
  | poll i =>
    obtain ⟨k, ch, p, hc, rfl⟩ := poll_cases h
    exact ⟨hl, old hc rfl fun _ => rfl⟩
  | finish i res =>
    obtain ⟨k, ch, hc, rfl⟩ := finish_cases h
    have hkey : key ≠ k := fun h => hn ⟨i, _, ch, hc, h.symm, rfl, rfl⟩
    exact ⟨fun h => hl ((AList.lookup_erase_ne hkey).symm.trans h), old hc rfl fun _ => rfl⟩
  | drop i =>
    rcases drop_cases h with ⟨k, ch, hc, rfl⟩ | ⟨k, ch, hc, rfl⟩
    · exact ⟨hl, old hc rfl fun _ => rfl⟩
    · exact ⟨hl, old hc rfl fun _ => rfl⟩

/-- **Once the leader of a key has been dropped, no caller ever leads the key again.** -/
theorem stale_forever {s s' : State} {as : List Action} {key : String} (hS : Stale key s)
    (h : exec step s as = some s') : Stale key s' :=
  exec_invariant (fun _ _ _ hS => stale_step hS) hS h

end RXCore.SingleFlight
