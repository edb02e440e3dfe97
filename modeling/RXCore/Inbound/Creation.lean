import RXCore.Api
import RXCore.Inbound.Slots

/-!
# Profiles that are created side by side

`create_reality_profile_and_listener` looks for its name, port and tag in the configuration, waits for its
runtime and for its port, and then adds the profile without another look. The operating system refuses a
port that is open on the same address; a name or a tag nobody refuses.

* `ProfileCalls`, `profileStep`: any number of calls, interleaved where they wait;
* `DistinctKeys`, `EngineState.Serves`: what the configuration and each successful call are to keep;
* `Free`: the keys of a profile are not taken;
* `finish_refused`: two calls with one address and one port;
* **`profiles_sound_iff`**: runs in which every profile is added while its keys are free;
* **`profiles_share_name`**: two calls with one name.
-/

set_option autoImplicit false

namespace RXCore

/-- Calls of `create_reality_profile_and_listener`, and the engine that they work on. -/
structure ProfileCalls where
  engine : EngineState
  /-- The profiles of the calls that have passed their checks and wait. -/
  waiting : List RealityProfile
  /-- The profiles of the calls that have succeeded, with the runtimes that they returned. -/
  succeeded : List (RealityProfile × RealityRuntime)

inductive ProfileAct where
  /-- A call up to its first wait. -/
  | call (profile : RealityProfile)
  /-- The call in `create_vpn_account`, which has checks of its own before it. -/
  | callCustom (payload : CreateVpnAccountPayload) (id : Uuid) (now : ℤ)
  /-- The rest of the `i`-th call that waits. -/
  | finish (i : ℕ) (bind : Except String Unit)

/-- A registered listener has the port of the profile open on the profile's address. -/
def EngineState.listensAt (s : EngineState) (p : RealityProfile) : Bool :=
  match s.activeListeners.lookup p.port with
  | none => false
  | some slot => match s.slots slot with
    | none => false
    | some r => r.profile.listen == p.listen

/-- The outcome of a bind that the operating system can give: it refuses a socket that is open, and port 0
stands for any free port. -/
def EngineState.canBind (s : EngineState) (p : RealityProfile) : Except String Unit → Bool
  | .ok () => p.port == 0 || !s.listensAt p
  | .error _ => true

namespace ProfileCalls

/-- No profile and no call has the identifier; those that `Uuid::new_v4` draws do not repeat. -/
def isNew (v : ProfileCalls) (id : Uuid) : Bool :=
  v.engine.config.realityProfiles.all (·.id != id) && v.waiting.all (·.id != id)

/-- `create_reality_profile_and_listener` up to its first wait. -/
def call (X : Crates) (v : ProfileCalls) (profile : RealityProfile) : ProfileCalls :=
  match v.engine.checkRealityProfile X profile with
  | .ok p => { v with waiting := v.waiting ++ [p] }
  | .error _ => v

/-- The rest of a call. -/
def finish (X : Crates) (v : ProfileCalls) (p : RealityProfile) (bind : Except String Unit) : ProfileCalls :=
  let (engine, res) := v.engine.publishRealityProfile X p bind
  { v with
    engine := engine
    succeeded := match res with
      | .ok runtime => v.succeeded ++ [(p, runtime)]
      | .error _ => v.succeeded }

end ProfileCalls

def profileStep (X : Crates) (v : ProfileCalls) : ProfileAct → Option ProfileCalls
  | .call profile => if v.isNew profile.id then some (v.call X profile) else none
  | .callCustom payload id now =>
    if v.isNew id then match startVpnAccount v.engine payload id now with
      | .createProfile p => some (v.call X p)
      | _ => some v
    else none
  | .finish i bind => match v.waiting[i]? with
    | some p => if v.engine.canBind p bind then
        some ({ v with waiting := v.waiting.eraseIdx i }.finish X p bind)
      else none
    | none => none

/-- Names, ports and tags of the profiles, and tags and ports of the inbounds, are pairwise distinct. -/
structure DistinctKeys (c : Config) : Prop where
  names : (c.realityProfiles.map (·.name)).Nodup
  ports : (c.realityProfiles.map (·.port)).Nodup
  tags : (c.realityProfiles.map (·.inboundTag)).Nodup
  inboundTags : (c.inbounds.map (·.tag)).Nodup
  inboundPorts : (c.inbounds.map (·.port)).Nodup

/-- What a successful call leaves: one profile, one inbound, one runtime and one listener that runs it. -/
structure EngineState.Serves (s : EngineState) (p : RealityProfile) (r : RealityRuntime) : Prop where
  profile : s.config.realityProfiles.filter (·.id = p.id) = [p]
  inbound : ∃ listen, parseIpAddr p.listen = some listen ∧
    s.config.inbounds.filter (·.tag = p.inboundTag) = [inboundOfProfile p listen]
  runtime : s.realityRuntimes.lookup p.id = some r ∧ r.profile = p
  listener : ∃ slot, s.activeListeners.lookup p.port = some slot ∧ s.slots slot = some r

/-- The keys are distinct, and every successful call has what it needs. -/
def ProfileCalls.Sound (v : ProfileCalls) : Prop :=
  DistinctKeys v.engine.config ∧ ∀ e ∈ v.succeeded, v.engine.Serves e.1 e.2

/-- The name, the port and the tag of a profile are not taken. -/
def Config.Free (c : Config) (p : RealityProfile) : Prop :=
  (∀ q ∈ c.realityProfiles, q.name ≠ p.name ∧ q.port ≠ p.port ∧ q.inboundTag ≠ p.inboundTag) ∧
    ∀ i ∈ c.inbounds, i.tag ≠ p.inboundTag ∧ i.port ≠ p.port

/-- What a step has to meet: a call that has its runtime and its port finds its keys still free. -/
def ProfileCalls.Keeps (X : Crates) (v : ProfileCalls) : ProfileAct → Prop
  | .finish i bind => bind = .ok () → ∀ p ∈ v.waiting[i]?, (∃ r, RealityRuntime.new X p = .ok r) →
    v.engine.config.Free p
  | _ => True

/-! ## One profile is added -/

section

variable {X : Crates} {s : EngineState} {p q : RealityProfile} {r : RealityRuntime}

/-- What is added to a configuration with a profile. -/
def Config.withProfile (c : Config) (p : RealityProfile) (listen : IpAddr) : Config :=
  { c with
    realityProfiles := c.realityProfiles ++ [p]
    inbounds := c.inbounds ++ [EngineState.inboundOfProfile p listen] }

/-- **A profile that is published**: the whole of its effect. -/
theorem publish_done (hr : RealityRuntime.new X p = .ok r) {listen : IpAddr}
    (hl : parseIpAddr p.listen = some listen) :
    ∃ s', s.publishRealityProfile X p (.ok ()) = (s', .ok r) ∧
      s'.config = s.config.withProfile p listen ∧
      s'.activeListeners = s.activeListeners.insert p.port s.nextSlot ∧
      s'.slots = Function.update s.slots s.nextSlot (some r) ∧ s'.nextSlot = s.nextSlot + 1 ∧
      s'.realityRuntimes = s.realityRuntimes.insert p.id r := by
  simp only [EngineState.publishRealityProfile, hr, hl, EngineState.persistConfigToDisk]
  refine ⟨_, rfl, ?_⟩
  split_ifs <;> exact ⟨rfl, rfl, rfl, rfl, rfl⟩

/-- Nothing is added without a runtime and a port. -/
theorem publish_refused {bind : Except String Unit}
    (h : ¬ (bind = .ok () ∧ ∃ r, RealityRuntime.new X p = .ok r)) :
    ∃ e, s.publishRealityProfile X p bind = (s, .error e) := by
  cases hr : RealityRuntime.new X p with
  | error e => exact ⟨e, by simp only [EngineState.publishRealityProfile, hr]⟩
  | ok r =>
    cases bind with
    | error e => exact ⟨e, by simp only [EngineState.publishRealityProfile, hr]⟩
    | ok u => exact absurd ⟨rfl, r, hr⟩ h

theorem nodup_map_append {α β : Type} (f : α → β) (l : List α) (a : α) :
    ((l ++ [a]).map f).Nodup ↔ (l.map f).Nodup ∧ ∀ b ∈ l, f b ≠ f a := by
  rw [List.map_append, List.map_singleton, List.nodup_append]
  constructor
  · rintro ⟨hl, -, hne⟩
    exact ⟨hl, fun b hb => hne (f b) (List.mem_map_of_mem hb) (f a) (List.mem_singleton_self _)⟩
  · rintro ⟨hl, hne⟩
    refine ⟨hl, List.nodup_singleton _, fun x hx y hy => ?_⟩
    obtain ⟨b, hb, rfl⟩ := List.mem_map.mp hx
    obtain rfl := List.mem_singleton.mp hy
    exact hne b hb

/-- **The keys stay distinct** exactly if those of the profile were free. -/
theorem distinctKeys_withProfile {c : Config} (h : DistinctKeys c) (listen : IpAddr) :
    DistinctKeys (c.withProfile p listen) ↔ c.Free p := by
  constructor
  · intro h'
    have hname := ((nodup_map_append _ _ _).mp h'.names).2
    have hport := ((nodup_map_append _ _ _).mp h'.ports).2
    have htag := ((nodup_map_append _ _ _).mp h'.tags).2
    have hitag := ((nodup_map_append _ _ _).mp h'.inboundTags).2
    have hiport := ((nodup_map_append _ _ _).mp h'.inboundPorts).2
    exact ⟨fun q hq => ⟨hname q hq, hport q hq, htag q hq⟩, fun i hi => ⟨hitag i hi, hiport i hi⟩⟩
  · rintro ⟨hp, hi⟩
    exact {
      names := (nodup_map_append _ _ _).mpr ⟨h.names, fun q hq => (hp q hq).1⟩
      ports := (nodup_map_append _ _ _).mpr ⟨h.ports, fun q hq => (hp q hq).2.1⟩
      tags := (nodup_map_append _ _ _).mpr ⟨h.tags, fun q hq => (hp q hq).2.2⟩
      inboundTags := (nodup_map_append _ _ _).mpr ⟨h.inboundTags, fun i hmem => (hi i hmem).1⟩
      inboundPorts := (nodup_map_append _ _ _).mpr ⟨h.inboundPorts, fun i hmem => (hi i hmem).2⟩ }

theorem filter_append_new {α : Type} {f : α → Prop} [DecidablePred f] {l : List α} {a : α}
    (hl : ∀ b ∈ l, ¬ f b) (ha : f a) : (l ++ [a]).filter (fun b => f b) = [a] := by
  rw [List.filter_append, List.filter_eq_nil_iff.mpr fun b hb => by simpa using hl b hb]
  simp [ha]

theorem filter_append_other {α : Type} {f : α → Prop} [DecidablePred f] (l : List α) {a : α} (ha : ¬ f a) :
    (l ++ [a]).filter (fun b => f b) = l.filter fun b => f b := by
  simp [List.filter_append, ha]

/-- The new profile is served. -/
theorem serves_new (hr : RealityRuntime.new X p = .ok r) {listen : IpAddr}
    (hl : parseIpAddr p.listen = some listen) (hfree : s.config.Free p)
    (hid : ∀ q ∈ s.config.realityProfiles, q.id ≠ p.id) :
    (s.publishRealityProfile X p (.ok ())).1.Serves p r := by
  obtain ⟨s', heq, hconfig, hlisteners, hslots, -, hruntimes⟩ := publish_done (s := s) hr hl
  rw [heq]
  refine ⟨?_, ⟨listen, hl, ?_⟩, ?_, ⟨s.nextSlot, ?_, ?_⟩⟩
  · rw [hconfig]
    exact filter_append_new hid rfl
  · rw [hconfig]
    exact filter_append_new (fun i hi => (hfree.2 i hi).1) rfl
  · rw [hruntimes, AList.lookup_insert]
    exact ⟨rfl, (RealityRuntime.new_ok hr).1⟩
  · rw [hlisteners, AList.lookup_insert]
  · rw [hslots, Function.update_self]

/-- A profile that is served is one of the configuration. -/
theorem EngineState.Serves.mem (h : s.Serves q r) : q ∈ s.config.realityProfiles := by
  have hq : q ∈ s.config.realityProfiles.filter (·.id = q.id) := by
    rw [h.profile]
    exact List.mem_singleton_self q
  exact (List.mem_filter.mp hq).1

/-- The other profiles are served as before. -/
theorem serves_other {rq : RealityRuntime} (h : s.Serves q rq) (hr : RealityRuntime.new X p = .ok r)
    {listen : IpAddr} (hl : parseIpAddr p.listen = some listen) (hfree : s.config.Free p)
    (hid : ∀ q ∈ s.config.realityProfiles, q.id ≠ p.id)
    (hslot : ∀ slot, s.activeListeners.lookup q.port = some slot → slot < s.nextSlot) :
    (s.publishRealityProfile X p (.ok ())).1.Serves q rq := by
  obtain ⟨s', heq, hconfig, hlisteners, hslots, -, hruntimes⟩ := publish_done (s := s) hr hl
  obtain ⟨-, hport, htag⟩ := hfree.1 q h.mem
  obtain ⟨address, haddress, hinbound⟩ := h.inbound
  obtain ⟨slot, hlookup, hrun⟩ := h.listener
  rw [heq]
  refine ⟨?_, ⟨address, haddress, ?_⟩, ?_, ⟨slot, ?_, ?_⟩⟩
  · rw [hconfig]
    exact (filter_append_other (f := fun b : RealityProfile => b.id = q.id) _ (hid q h.mem).symm).trans h.profile
  · rw [hconfig]
    exact (filter_append_other (f := fun i : InboundConfig => i.tag = q.inboundTag) _ htag.symm).trans hinbound
  · rw [hruntimes, AList.lookup_insert_ne (hid q h.mem)]
    exact h.runtime
  · rw [hlisteners, AList.lookup_insert_ne hport]
    exact hlookup
  · rw [hslots, Function.update_of_ne (hslot slot hlookup).ne]
    exact hrun

end

/-! ## Runs -/

/-- The identifiers of the calls that wait are new, their addresses are some, and the listeners of those
that have succeeded run from slots that have been made. -/
structure ProfileCalls.Fit (v : ProfileCalls) : Prop where
  listen : ∀ p ∈ v.waiting, parseIpAddr p.listen ≠ none
  ids : (v.waiting.map (·.id)).Nodup
  new : ∀ p ∈ v.waiting, ∀ q ∈ v.engine.config.realityProfiles, q.id ≠ p.id
  bound : ∀ e ∈ v.succeeded, ∀ slot, v.engine.activeListeners.lookup e.1.port = some slot →
    slot < v.engine.nextSlot

section

variable {X : Crates} {v v' : ProfileCalls} {p : RealityProfile}

theorem ProfileCalls.isNew_iff {id : Uuid} : v.isNew id = true ↔
    (∀ q ∈ v.engine.config.realityProfiles, q.id ≠ id) ∧ ∀ q ∈ v.waiting, q.id ≠ id := by
  simp [isNew]

/-- A check keeps the identifier. -/
theorem checkRealityProfile_id {s : EngineState} {profile : RealityProfile}
    (h : s.checkRealityProfile X profile = .ok p) : p.id = profile.id := by
  simp only [EngineState.checkRealityProfile, bind_ok] at h
  obtain ⟨q, hq, -, -, -, -, -, -, h⟩ := h
  obtain rfl := Except.ok.inj h
  simp only [RealityProfile.validateAndNormalize, bind_ok] at hq
  obtain ⟨-, -, -, -, -, -, -, -, -, -, names, -, -, -, sids, -, -, -, hq⟩ := hq
  split at hq
  · cases hq
  · obtain rfl := Except.ok.inj hq
    rfl

/-- The profile of `create_vpn_account` has the drawn identifier. -/
theorem startVpnAccount_id {s : EngineState} {payload : CreateVpnAccountPayload} {id : Uuid} {now : ℤ}
    (h : startVpnAccount s payload id now = .createProfile p) : p.id = id := by
  rw [startVpnAccount] at h
  cases hdup : vpnDuplicate s payload with
  | some r => simp [hdup] at h
  | none =>
    simp only [hdup] at h
    split_ifs at h
    · cases hpid : payload.realityProfileId with
      | none => simp [hpid] at h
      | some pid =>
        simp only [hpid] at h
        cases hfind : s.config.realityProfiles.find? (·.id = pid) with
        | none => simp [hfind] at h
        | some q => simp [hfind] at h
    · cases hcustom : payload.customRealityProfile with
      | none => simp [hcustom] at h
      | some custom =>
        simp only [hcustom] at h
        split_ifs at h
        obtain rfl := VpnStart.createProfile.inj h
        rfl

/-- A call that begins changes nothing but the calls that wait. -/
theorem ProfileCalls.Fit.call (h : v.Fit) {profile : RealityProfile} (hnew : v.isNew profile.id = true) :
    (v.call X profile).Fit ∧ (v.call X profile).engine = v.engine ∧
      (v.call X profile).succeeded = v.succeeded := by
  rw [ProfileCalls.call]
  cases hcheck : v.engine.checkRealityProfile X profile with
  | error e => exact ⟨h, rfl, rfl⟩
  | ok p =>
    obtain ⟨hprofiles, hwaiting⟩ := isNew_iff.mp hnew
    rw [← checkRealityProfile_id hcheck] at hprofiles hwaiting
    refine ⟨⟨fun q hq => ?_, ?_, fun q hq => ?_, h.bound⟩, rfl, rfl⟩
    · rcases List.mem_append.mp hq with hq | hq
      · exact h.listen q hq
      · obtain rfl := List.mem_singleton.mp hq
        exact checkRealityProfile_listen hcheck
    · exact (nodup_map_append _ _ _).mpr ⟨h.ids, hwaiting⟩
    · rcases List.mem_append.mp hq with hq | hq
      · exact h.new q hq
      · obtain rfl := List.mem_singleton.mp hq
        exact hprofiles

/-- **What a step does**: it leaves the engine alone, or it publishes the profile of a call. -/
theorem profileStep_cases {a : ProfileAct} (h : v.Fit) (hstep : profileStep X v a = some v') :
    (v'.Fit ∧ v'.engine = v.engine ∧ v'.succeeded = v.succeeded ∧ v.Keeps X a) ∨
      ∃ i p r listen, a = .finish i (.ok ()) ∧ v.waiting[i]? = some p ∧ RealityRuntime.new X p = .ok r ∧
        parseIpAddr p.listen = some listen ∧
        v' = ⟨(v.engine.publishRealityProfile X p (.ok ())).1, v.waiting.eraseIdx i,
          v.succeeded ++ [(p, r)]⟩ := by
  cases a with
  | call profile =>
    rw [profileStep] at hstep
    split_ifs at hstep with hnew
    obtain rfl := Option.some.inj hstep
    obtain ⟨hfit, hengine, hsucceeded⟩ := h.call (X := X) hnew
    exact .inl ⟨hfit, hengine, hsucceeded, trivial⟩
  | callCustom payload id now =>
    rw [profileStep] at hstep
    split_ifs at hstep with hnew
    cases hstart : startVpnAccount v.engine payload id now with
    | createProfile p =>
      rw [hstart] at hstep
      obtain rfl := Option.some.inj hstep
      rw [← startVpnAccount_id hstart] at hnew
      obtain ⟨hfit, hengine, hsucceeded⟩ := h.call (X := X) hnew
      exact .inl ⟨hfit, hengine, hsucceeded, trivial⟩
    | refuse reply =>
      rw [hstart] at hstep
      obtain rfl := Option.some.inj hstep
      exact .inl ⟨h, rfl, rfl, trivial⟩
    | insert t =>
      rw [hstart] at hstep
      obtain rfl := Option.some.inj hstep
      exact .inl ⟨h, rfl, rfl, trivial⟩
  | finish i bind =>
    rw [profileStep] at hstep
    cases hp : v.waiting[i]? with
    | none => simp [hp] at hstep
    | some p =>
      simp only [hp] at hstep
      split_ifs at hstep with hbind
      obtain rfl := Option.some.inj hstep
      by_cases hdone : bind = .ok () ∧ ∃ r, RealityRuntime.new X p = .ok r
      · obtain ⟨rfl, r, hr⟩ := hdone
        obtain ⟨listen, hl⟩ := Option.ne_none_iff_exists'.mp (h.listen p (List.mem_of_getElem? hp))
        refine .inr ⟨i, p, r, listen, rfl, hp, hr, hl, ?_⟩
        obtain ⟨s', heq, -⟩ := publish_done (s := v.engine) hr hl
        simp only [ProfileCalls.finish, heq]
      · obtain ⟨e, he⟩ := publish_refused (s := v.engine) hdone
        simp only [ProfileCalls.finish, he]
        have hsub := (List.eraseIdx_sublist v.waiting i)
        have hfit : ProfileCalls.Fit ⟨v.engine, v.waiting.eraseIdx i, v.succeeded⟩ :=
          ⟨fun q hq => h.listen q (hsub.subset hq), h.ids.sublist (hsub.map _),
            fun q hq => h.new q (hsub.subset hq), h.bound⟩
        refine .inl ⟨hfit, trivial, trivial, fun hok q hq hr => ?_⟩
        rw [hp] at hq
        obtain rfl := Option.some.inj hq
        exact absurd ⟨hok, hr⟩ hdone

/-- **One step keeps the property** exactly if it finds the keys of its profile free. -/
theorem sound_step_iff {a : ProfileAct} (h : v.Fit) (hs : v.Sound) (hstep : profileStep X v a = some v') :
    v'.Sound ↔ v.Keeps X a := by
  rcases profileStep_cases h hstep with ⟨-, hengine, hsucceeded, hkeep⟩ | ⟨i, p, r, listen, rfl, hp, hr, hl, rfl⟩
  · refine ⟨fun _ => hkeep, fun _ => ?_⟩
    rw [ProfileCalls.Sound, hengine, hsucceeded]
    exact hs
  · have hid := h.new p (List.mem_of_getElem? hp)
    obtain ⟨s', heq, hconfig, -⟩ := publish_done (s := v.engine) hr hl
    constructor
    · rintro ⟨hdistinct, -⟩ - q hq -
      rw [hp] at hq
      obtain rfl := Option.some.inj hq
      simp only [heq, hconfig] at hdistinct
      exact (distinctKeys_withProfile hs.1 listen).mp hdistinct
    · intro hkeep
      have hfree := hkeep rfl p hp ⟨r, hr⟩
      refine ⟨?_, fun e he => ?_⟩
      · simp only [heq, hconfig]
        exact (distinctKeys_withProfile hs.1 listen).mpr hfree
      · rcases List.mem_append.mp he with he | he
        · exact serves_other (hs.2 e he) hr hl hfree hid (h.bound e he)
        · obtain rfl := List.mem_singleton.mp he
          exact serves_new hr hl hfree hid

/-- One step that finds the keys free keeps the invariant. -/
theorem fit_step {a : ProfileAct} (h : v.Fit) (hkeep : v.Keeps X a)
    (hstep : profileStep X v a = some v') : v'.Fit := by
  rcases profileStep_cases h hstep with ⟨hfit, -⟩ | ⟨i, p, r, listen, rfl, hp, hr, hl, rfl⟩
  · exact hfit
  · have hfree := hkeep rfl p hp ⟨r, hr⟩
    have hsub := List.eraseIdx_sublist v.waiting i
    obtain ⟨s', heq, hconfig, hlisteners, -, hnext, -⟩ := publish_done (s := v.engine) hr hl
    simp only [heq]
    refine ⟨fun q hq => h.listen q (hsub.subset hq), h.ids.sublist (hsub.map _), fun q hq t ht => ?_,
      fun e he slot hslot => ?_⟩
    · rw [hconfig] at ht
      rcases List.mem_append.mp ht with ht | ht
      · exact h.new q (hsub.subset hq) t ht
      · -- the call that is done is not one of those that still wait
        obtain rfl := List.mem_singleton.mp ht
        obtain ⟨j, hj⟩ := List.getElem?_of_mem hq
        rw [List.getElem?_eraseIdx] at hj
        intro hids
        have hinj : ∀ k, v.waiting[k]? = some q → k = i := fun k hk => by
          have hlt := (List.getElem?_eq_some_iff.mp hk).1
          refine (List.getElem?_inj (by simpa using hlt) h.ids).mp ?_
          rw [List.getElem?_map, List.getElem?_map, hk, hp, Option.map_some, Option.map_some, hids]
        split_ifs at hj with hlt
        · exact absurd (hinj j hj) (by omega)
        · exact absurd (hinj (j + 1) hj) (by omega)
    · rw [hnext]
      rw [hlisteners] at hslot
      rcases Tables.lookup_insert_cases hslot with ⟨-, rfl⟩ | ⟨hport, hslot⟩
      · omega
      · rcases List.mem_append.mp he with he | he
        · exact Nat.lt_succ_of_lt (h.bound e he slot hslot)
        · obtain rfl := List.mem_singleton.mp he
          exact absurd rfl hport

/-- **The bind protects an address with its port**: a call for those of a call that has succeeded is refused
by the operating system. -/
theorem finish_refused (hs : v.Sound) {e : RealityProfile × RealityRuntime} (he : e ∈ v.succeeded) {i : ℕ}
    (hp : v.waiting[i]? = some p) (hport : p.port = e.1.port) (hzero : p.port ≠ 0)
    (hlisten : p.listen = e.1.listen) : profileStep X v (.finish i (.ok ())) = none := by
  have hserves := hs.2 e he
  obtain ⟨slot, hlookup, hrun⟩ := hserves.listener
  rw [← hport] at hlookup
  have hopen : v.engine.listensAt p = true := by
    simp [EngineState.listensAt, hlookup, hrun, hserves.runtime.2, hlisten]
  simp [profileStep, hp, EngineState.canBind, hopen, hzero]

/-- No call has begun. -/
def ProfileCalls.start (s : EngineState) : ProfileCalls := ⟨s, [], []⟩

theorem ProfileCalls.start_fit (s : EngineState) : (start s).Fit where
  listen _ hp := absurd hp List.not_mem_nil
  ids := List.nodup_nil
  new _ hp := absurd hp List.not_mem_nil
  bound _ he := absurd he List.not_mem_nil

/-- **The calls of a run keep the keys distinct and are all served** exactly if each of them, when it has its
runtime and its port, finds its name, its port and its tag still free. -/
theorem profiles_sound_iff {s : EngineState} (hs : DistinctKeys s.config) (as : List ProfileAct) :
    Run.Always (profileStep X) ProfileCalls.Sound (.start s) as ↔
      Run.Meets (profileStep X) (ProfileCalls.Keeps X) (.start s) as :=
  Run.always_iff_meets (fun _ _ _ h _ hkeep hstep => fit_step h hkeep hstep)
    (fun _ _ _ h hsound hstep => sound_step_iff h hsound hstep) (ProfileCalls.start_fit s)
    ⟨hs, fun _ he => absurd he List.not_mem_nil⟩ as

end

/-! ## Two calls with one name -/

/-- The engine of a new process. -/
def newEngine : EngineState := .new Sample.crates slotDraws builtInConfig

/-- A second profile of the same name, with an identifier, a tag and a port of its own. -/
def namesake : RealityProfile :=
  { profileWith "da09ebd28dc215c8" with id := Vector.replicate 16 1, inboundTag := "vless-other", port := 10444 }

theorem newEngine_distinctKeys : DistinctKeys newEngine.config := by
  constructor <;> decide

/-- A call that ends before the next begins. -/
theorem profiles_sound_iff_one :
    Run.Always (profileStep Sample.crates) ProfileCalls.Sound (.start newEngine)
      [.call (profileWith "da09ebd28dc215c8"), .finish 0 (.ok ())] := by
  refine (profiles_sound_iff newEngine_distinctKeys _).mpr ⟨trivial, fun _ p hp _ => ?_, trivial⟩
  obtain rfl := Option.some.inj hp
  refine ⟨fun q hq => absurd hq List.not_mem_nil, fun i hi => ?_⟩
  obtain rfl := List.mem_singleton.mp hi
  decide

/-- **Two calls with one name**, of which each is checked before the other has added its profile, both
succeed. -/
theorem profiles_share_name :
    DistinctKeys newEngine.config ∧
      ¬ Run.Always (profileStep Sample.crates) ProfileCalls.Sound (.start newEngine)
        [.call (profileWith "da09ebd28dc215c8"), .call namesake, .finish 0 (.ok ()), .finish 0 (.ok ())] := by
  refine ⟨newEngine_distinctKeys, fun h => ?_⟩
  set last := (Run.exec (profileStep Sample.crates) (.start newEngine)
    [.call (profileWith "da09ebd28dc215c8"), .call namesake, .finish 0 (.ok ()),
      .finish 0 (.ok ())]).get (by decide) with hlast
  have hsound := h.last (t := last) (Option.some_get _).symm
  have hnames : ¬ (last.engine.config.realityProfiles.map (·.name)).Nodup := by
    rw [hlast]
    decide
  exact hnames hsound.1.names

end RXCore
