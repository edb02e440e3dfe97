import RXCore.Inbound
import RXCore.Lib.Tables

/-!
# The runtime slots of Reality listeners

A Reality listener reads its runtime from a slot, which is filled when the listener is made and swapped by
`update_config` through the registry of listeners. The slot of an inbound is filled by its tag, all others
by the port, and a swap only ever stores.

* `Deployment`, `deploymentStep`: inbounds that start, updates of the configuration and profiles that are
  checked and published, in any order;
* `SlotOk`: a slot fits the configuration;
* `hotSwap_cases`: what a hot swap leaves in a slot;
* **`slotsOk_of_keeps`**: runs in which no step leaves a listener behind;
* **`removed_profile_stays`**: the runtime of a profile that was removed.
-/

set_option autoImplicit false

namespace RXCore

open Tables

structure RealityListener where
  port : UInt16
  slot : ℕ
  /-- It was made at run time, and ends when its entry in the registry is replaced. -/
  dynamic : Bool
deriving DecidableEq

structure Deployment where
  engine : EngineState
  listeners : List RealityListener
  /-- Profiles that have been checked and not published. -/
  pending : List RealityProfile

inductive DeploymentAct where
  /-- `TcpInbound::start`. -/
  | start (config : InboundConfig) (createServerConfig : (cert key : Option String) → Except String Unit)
  | update (cfg : Config)
  /-- `create_reality_profile_and_listener` up to its first wait. -/
  | create (profile : RealityProfile)
  | publish (i : ℕ) (bind : Except String Unit)

/-- The inbound is configured with security `reality`. -/
def InboundConfig.isReality (i : InboundConfig) : Bool :=
  i.streamSettings.any (·.security == "reality")

namespace Deployment

/-- The listeners once another is registered under a port: the one made at run time that had it ends. -/
def survivors (v : Deployment) (port : UInt16) : List RealityListener :=
  v.listeners.filter fun l => !(l.dynamic && l.port == port)

/-- A profile is published, if its runtime and its port allow it. -/
def published (X : Crates) (v : Deployment) (p : RealityProfile) (bind : Except String Unit) : Deployment :=
  let engine := (v.engine.publishRealityProfile X p bind).1
  match RealityRuntime.new X p, bind with
  | .ok _, .ok () => { v with
      engine := engine
      listeners := ⟨p.port, v.engine.nextSlot, true⟩ :: v.survivors p.port }
  | _, _ => { v with engine := engine }

end Deployment

def deploymentStep (X : Crates) (v : Deployment) : DeploymentAct → Option Deployment
  | .start config createServerConfig =>
    let listeners := v.survivors config.port
    some { v with
      engine := (startTcpInbound v.engine config createServerConfig).1
      listeners := if config.isReality then ⟨config.port, v.engine.nextSlot, false⟩ :: listeners
        else listeners }
  | .update cfg => match v.engine.updateConfig X cfg with
    | .ok engine => some { v with engine := engine }
    | .error _ => some v
  | .create profile => match v.engine.checkRealityProfile X profile with
    | .ok p => some { v with pending := v.pending ++ [p] }
    | .error _ => some v
  | .publish i bind => v.pending[i]?.map fun p =>
    { v with pending := v.pending.eraseIdx i }.published X p bind

/-- A slot for a port fits a configuration: it is empty and there is no profile for the port, or it holds
the runtime of one. -/
def SlotOk (X : Crates) (config : Config) (port : UInt16) : Option RealityRuntime → Prop
  | none => ∀ p ∈ config.realityProfiles, p.port ≠ port
  | some r => ∃ p ∈ config.realityProfiles, p.port = port ∧ RealityRuntime.new X p = .ok r

/-- The slots of all listeners fit the configuration. -/
def Deployment.SlotsOk (X : Crates) (v : Deployment) : Prop :=
  ∀ l ∈ v.listeners, SlotOk X v.engine.config l.port (v.engine.slots l.slot)

/-- A listener is found in the registry under its port. -/
def Deployment.Linked (v : Deployment) (l : RealityListener) : Prop :=
  v.engine.activeListeners.lookup l.port = some l.slot

/-- No listener is left behind by a configuration. One that is linked and has a runtime still has a profile
for its port; one that is not linked has the runtime of a profile that stays, or there is none for its
port. Profiles with one identifier have one port. -/
def Deployment.Carries (v : Deployment) (cfg : Config) : Prop :=
  (∀ l ∈ v.listeners, v.Linked l → (v.engine.slots l.slot).isSome = true →
    ∃ p ∈ cfg.realityProfiles, p.port = l.port) ∧
  (∀ l ∈ v.listeners, ¬ v.Linked l → match v.engine.slots l.slot with
    | some r => r.profile ∈ cfg.realityProfiles
    | none => ∀ p ∈ cfg.realityProfiles, p.port ≠ l.port) ∧
  ∀ p ∈ cfg.realityProfiles, ∀ q ∈ cfg.realityProfiles, p.id = q.id → p.port = q.port

/-- What a step has to meet. A Reality inbound starts with the tag of a profile on its port, if there is
either; an update that is accepted leaves no listener behind; a profile is published on a port where no
Reality listener of the start is without a runtime. -/
def Deployment.Keeps (X : Crates) (v : Deployment) : DeploymentAct → Prop
  | .start config _ => config.isReality = true → match runtimeOfTag v.engine config.tag with
    | some r => r.profile.port = config.port
    | none => ∀ p ∈ v.engine.config.realityProfiles, p.port ≠ config.port
  | .update cfg => cfg.network.ipv4Only = v.engine.config.network.ipv4Only →
    (∃ runtimes, buildAllRuntimes X cfg = .ok runtimes) → v.Carries cfg
  | .create _ => True
  | .publish i bind => bind = .ok () → ∀ p ∈ v.pending[i]?, (∃ r, RealityRuntime.new X p = .ok r) →
    ∀ l ∈ v.listeners, l.dynamic = false → l.port = p.port → (v.engine.slots l.slot).isSome = true

/-! ## Runtimes and swaps -/

section

variable {X : Crates} {config : Config}

/-- The runtimes of a configuration are those of its profiles. -/
def BuiltFrom (X : Crates) (ps : List RealityProfile) (runtimes : AList fun _ : Uuid => RealityRuntime) :
    Prop :=
  ∀ id r, runtimes.lookup id = some r → ∃ p ∈ ps, p.id = id ∧ RealityRuntime.new X p = .ok r

theorem BuiltFrom.insert {ps : List RealityProfile} {m : AList fun _ : Uuid => RealityRuntime}
    (h : BuiltFrom X ps m) {p : RealityProfile} {r : RealityRuntime} (hr : RealityRuntime.new X p = .ok r) :
    BuiltFrom X (ps ++ [p]) (m.insert p.id r) := by
  intro id r' hlookup
  rcases lookup_insert_cases hlookup with ⟨rfl, rfl⟩ | ⟨-, hlookup⟩
  · exact ⟨p, by simp, rfl, hr⟩
  · obtain ⟨q, hq, hid, hr'⟩ := h id r' hlookup
    exact ⟨q, List.mem_append_left _ hq, hid, hr'⟩

theorem BuiltFrom.mono {ps qs : List RealityProfile} {m : AList fun _ : Uuid => RealityRuntime}
    (h : BuiltFrom X ps m) (hsub : ∀ p ∈ ps, p ∈ qs) : BuiltFrom X qs m := fun id r hr =>
  let ⟨p, hp, hrest⟩ := h id r hr
  ⟨p, hsub p hp, hrest⟩

/-- The runtimes that a start builds. -/
theorem runtimesOfProfiles_builtFrom (ps : List RealityProfile) :
    BuiltFrom X ps (runtimesOfProfiles X ps) := by
  have hgen : ∀ (ps done : List RealityProfile) (m : AList fun _ : Uuid => RealityRuntime),
      BuiltFrom X done m → BuiltFrom X (done ++ ps) (ps.foldl (addRuntime X) m) := by
    intro ps
    induction ps with
    | nil =>
      intro done m h
      rwa [List.append_nil]
    | cons p ps ih =>
      intro done m h
      rw [List.append_cons, List.foldl_cons]
      refine ih (done ++ [p]) _ ?_
      cases hr : RealityRuntime.new X p with
      | ok r =>
        rw [addRuntime_ok hr]
        exact h.insert hr
      | error e =>
        rw [addRuntime_error hr]
        exact h.mono fun q hq => List.mem_append_left _ hq
  rw [runtimesOfProfiles_eq]
  exact hgen ps [] ∅ fun _ _ h => by cases h

/-- The runtimes that an update builds: one for every profile. -/
theorem buildAllRuntimes_builtFrom {runtimes : AList fun _ : Uuid => RealityRuntime}
    (h : buildAllRuntimes X config = .ok runtimes) : BuiltFrom X config.realityProfiles runtimes ∧
      ∀ p ∈ config.realityProfiles, (runtimes.lookup p.id).isSome = true := by
  have hgen : ∀ (ps done : List RealityProfile) (m m' : AList fun _ : Uuid => RealityRuntime),
      BuiltFrom X done m → (∀ p ∈ done, (m.lookup p.id).isSome = true) →
      ps.foldlM (fun m p => do
        let r ← RealityRuntime.new X p
        return m.insert p.id r) m = .ok m' →
      BuiltFrom X (done ++ ps) m' ∧ ∀ p ∈ done ++ ps, (m'.lookup p.id).isSome = true := by
    intro ps
    induction ps with
    | nil =>
      intro done m m' hb hs h
      obtain rfl := Except.ok.inj h
      rw [List.append_nil]
      exact ⟨hb, hs⟩
    | cons p ps ih =>
      intro done m m' hb hs h
      rw [List.foldlM_cons] at h
      obtain ⟨m₁, h₁, h⟩ := bind_ok.mp h
      obtain ⟨r, hr, h₁⟩ := bind_ok.mp h₁
      obtain rfl := Except.ok.inj h₁
      rw [List.append_cons]
      refine ih (done ++ [p]) _ _ (hb.insert hr) (fun q hq => ?_) h
      by_cases hid : q.id = p.id
      · rw [hid, AList.lookup_insert]
        rfl
      · rw [AList.lookup_insert_ne hid]
        rcases List.mem_append.mp hq with hq | hq
        · exact hs q hq
        · exact absurd (congrArg RealityProfile.id (List.mem_singleton.mp hq)) hid
  exact hgen config.realityProfiles [] ∅ runtimes (fun _ _ h => nomatch h)
    (fun _ hp => absurd hp List.not_mem_nil) h

/-- A runtime goes to the slot. -/
def Hits (config : Config) (listeners : AList fun _ : UInt16 => ℕ) (slot : ℕ)
    (e : Σ _ : Uuid, RealityRuntime) : Prop :=
  ∃ p, config.realityProfiles.find? (·.id = e.1) = some p ∧ listeners.lookup p.port = some slot

/-- One runtime of a hot swap goes to its slot. -/
def hotSwapEntry (config : Config) (listeners : AList fun _ : UInt16 => ℕ) (slots : ℕ → Option RealityRuntime)
    (e : Σ _ : Uuid, RealityRuntime) : ℕ → Option RealityRuntime :=
  match config.realityProfiles.find? (·.id = e.1) with
  | none => slots
  | some p => match listeners.lookup p.port with
    | none => slots
    | some slot => Function.update slots slot (some e.2)

theorem hotSwap_cons (config : Config) (listeners : AList fun _ : UInt16 => ℕ) (slots : ℕ → Option RealityRuntime)
    (e : Σ _ : Uuid, RealityRuntime) (entries : List (Σ _ : Uuid, RealityRuntime)) :
    hotSwap config listeners slots (e :: entries) =
      hotSwap config listeners (hotSwapEntry config listeners slots e) entries := rfl

theorem hotSwapEntry_cases (config : Config) (listeners : AList fun _ : UInt16 => ℕ)
    (slots : ℕ → Option RealityRuntime) (e : Σ _ : Uuid, RealityRuntime) (slot : ℕ) :
    (hotSwapEntry config listeners slots e slot = slots slot ∧ ¬ Hits config listeners slot e) ∨
      (Hits config listeners slot e ∧ hotSwapEntry config listeners slots e slot = some e.2) := by
  cases hp : config.realityProfiles.find? (·.id = e.1) with
  | none =>
    refine .inl ⟨by simp [hotSwapEntry, hp], ?_⟩
    rintro ⟨p, hp', -⟩
    rw [hp] at hp'
    cases hp'
  | some p =>
    cases hl : listeners.lookup p.port with
    | none =>
      refine .inl ⟨by simp [hotSwapEntry, hp, hl], ?_⟩
      rintro ⟨p', hp', hl'⟩
      rw [hp] at hp'
      obtain rfl := Option.some.inj hp'
      rw [hl] at hl'
      cases hl'
    | some slot' =>
      by_cases hs : slot = slot'
      · subst hs
        exact .inr ⟨⟨p, hp, hl⟩, by simp [hotSwapEntry, hp, hl]⟩
      · refine .inl ⟨by simp [hotSwapEntry, hp, hl, hs], ?_⟩
        rintro ⟨p', hp', hl'⟩
        rw [hp] at hp'
        obtain rfl := Option.some.inj hp'
        rw [hl] at hl'
        exact hs (Option.some.inj hl').symm

/-- **A hot swap** leaves a slot alone that no runtime goes to, or leaves one of those in it. -/
theorem hotSwap_cases (config : Config) (listeners : AList fun _ : UInt16 => ℕ) (slots : ℕ → Option RealityRuntime)
    (entries : List (Σ _ : Uuid, RealityRuntime)) (slot : ℕ) :
    (hotSwap config listeners slots entries slot = slots slot ∧ ∀ e ∈ entries, ¬ Hits config listeners slot e) ∨
      ∃ e ∈ entries, Hits config listeners slot e ∧
        hotSwap config listeners slots entries slot = some e.2 := by
  induction entries generalizing slots with
  | nil => exact .inl ⟨rfl, fun e he => absurd he List.not_mem_nil⟩
  | cons e entries ih =>
    rw [hotSwap_cons]
    have hone := hotSwapEntry_cases config listeners slots e slot
    rcases ih (hotSwapEntry config listeners slots e) with ⟨heq, hno⟩ | ⟨e', he', hhit, heq⟩
    · rcases hone with ⟨hsame, hnot⟩ | ⟨hhit, hsome⟩
      · refine .inl ⟨heq.trans hsame, fun e' he' => ?_⟩
        rcases List.mem_cons.mp he' with rfl | he'
        · exact hnot
        · exact hno e' he'
      · exact .inr ⟨e, List.mem_cons_self, hhit, heq.trans hsome⟩
    · exact .inr ⟨e', List.mem_cons_of_mem _ he', hhit, heq⟩

/-! ## Runs -/

/-- Every slot in use has been made, a slot is registered under the port of its listener only, and the
runtimes are those of profiles. -/
structure Deployment.Wired (X : Crates) (v : Deployment) : Prop where
  bound : ∀ l ∈ v.listeners, l.slot < v.engine.nextSlot
  registered : ∀ port slot, v.engine.activeListeners.lookup port = some slot → slot < v.engine.nextSlot
  own : ∀ l ∈ v.listeners, ∀ port, v.engine.activeListeners.lookup port = some l.slot → port = l.port
  built : BuiltFrom X v.engine.config.realityProfiles v.engine.realityRuntimes

/-- The invariant: the slots fit, every slot in use has been made, and a slot is registered under the port
of its listener only. -/
structure Deployment.Fit (X : Crates) (v : Deployment) : Prop where
  ok : v.SlotsOk X
  bound : ∀ l ∈ v.listeners, l.slot < v.engine.nextSlot
  registered : ∀ port slot, v.engine.activeListeners.lookup port = some slot → slot < v.engine.nextSlot
  own : ∀ l ∈ v.listeners, ∀ port, v.engine.activeListeners.lookup port = some l.slot → port = l.port
  built : BuiltFrom X v.engine.config.realityProfiles v.engine.realityRuntimes

theorem Deployment.mem_survivors {v : Deployment} {port : UInt16} {l : RealityListener}
    (h : l ∈ v.survivors port) : l ∈ v.listeners ∧ (l.port = port → l.dynamic = false) := by
  obtain ⟨hl, hend⟩ := List.mem_filter.mp h
  refine ⟨hl, fun hport => ?_⟩
  subst hport
  simpa using hend

/-- The runtime that a start finds for a tag. -/
theorem runtimeOfTag_built {s : EngineState} (h : BuiltFrom X s.config.realityProfiles s.realityRuntimes)
    {tag : String} {r : RealityRuntime} (hr : runtimeOfTag s tag = some r) :
    r.profile ∈ s.config.realityProfiles ∧ RealityRuntime.new X r.profile = .ok r := by
  obtain ⟨e, he, rfl⟩ := Option.map_eq_some_iff.mp hr
  obtain ⟨p, hp, -, hnew⟩ := h e.1 e.2 (AList.mem_lookup_iff.mpr (List.mem_of_find?_eq_some he))
  rw [(RealityRuntime.new_ok hnew).1]
  exact ⟨hp, hnew⟩

/-- What a profile that is published does to the engine. -/
theorem publishRealityProfile_ok (s : EngineState) {p : RealityProfile} {r : RealityRuntime}
    (hr : RealityRuntime.new X p = .ok r) :
    let s' := (s.publishRealityProfile X p (.ok ())).1
    s'.activeListeners = s.activeListeners.insert p.port s.nextSlot ∧
      s'.slots = Function.update s.slots s.nextSlot (some r) ∧ s'.nextSlot = s.nextSlot + 1 ∧
      s'.realityRuntimes = s.realityRuntimes.insert p.id r ∧
      s'.config.realityProfiles = s.config.realityProfiles ++ [p] := by
  simp only [EngineState.publishRealityProfile, hr]
  cases parseIpAddr p.listen with
  | none => exact ⟨rfl, rfl, rfl, rfl, rfl⟩
  | some listen =>
    simp only [EngineState.persistConfigToDisk]
    split_ifs <;> exact ⟨rfl, rfl, rfl, rfl, rfl⟩

theorem Deployment.Fit.wired {v : Deployment} (h : v.Fit X) : v.Wired X := ⟨h.bound, h.registered, h.own, h.built⟩

theorem Deployment.Wired.fit {v : Deployment} (h : v.Wired X) (hok : v.SlotsOk X) : v.Fit X :=
  ⟨hok, h.bound, h.registered, h.own, h.built⟩

/-- **A listener is made** with a new slot, registered under its port. -/
theorem Deployment.Wired.register {v : Deployment} (h : v.Wired X) {e : EngineState} {port : UInt16}
    {n : List RealityListener}
    (hlisteners : e.activeListeners = v.engine.activeListeners.insert port v.engine.nextSlot)
    (hnext : e.nextSlot = v.engine.nextSlot + 1)
    (hbuilt : BuiltFrom X e.config.realityProfiles e.realityRuntimes)
    (hnew : ∀ l ∈ n, l.port = port ∧ l.slot = v.engine.nextSlot) :
    Wired X { v with engine := e, listeners := n ++ v.survivors port } := by
  have hsplit : ∀ l ∈ n ++ v.survivors port,
      (l.port = port ∧ l.slot = v.engine.nextSlot) ∨ l ∈ v.listeners := fun l hl =>
    (List.mem_append.mp hl).imp (hnew l) fun hl => (mem_survivors hl).1
  refine ⟨fun l hl => ?_, fun port' slot hlookup => ?_, fun l hl port' hlookup => ?_, hbuilt⟩
  · show l.slot < e.nextSlot
    rcases hsplit l hl with ⟨-, hslot⟩ | hl
    · omega
    · have := h.bound l hl
      omega
  · change e.activeListeners.lookup port' = some slot at hlookup
    show slot < e.nextSlot
    rw [hlisteners] at hlookup
    rcases lookup_insert_cases hlookup with ⟨-, hslot⟩ | ⟨-, hlookup⟩
    · omega
    · have := h.registered port' slot hlookup
      omega
  · change e.activeListeners.lookup port' = some l.slot at hlookup
    rw [hlisteners] at hlookup
    rcases hsplit l hl with ⟨hport, hslot⟩ | hl
    · rcases lookup_insert_cases hlookup with ⟨hport', -⟩ | ⟨-, hlookup⟩
      · rw [hport', hport]
      · have := h.registered port' l.slot hlookup
        omega
    · rcases lookup_insert_cases hlookup with ⟨-, hslot⟩ | ⟨-, hlookup⟩
      · have := h.bound l hl
        omega
      · exact h.own l hl port' hlookup

/-- The new listener has a slot that fits, and the others still do. -/
theorem Deployment.Wired.slotsOk_register {v : Deployment} (h : v.Wired X) {e : EngineState} {port : UInt16}
    {content : Option RealityRuntime} {n : List RealityListener}
    (hslots : e.slots = Function.update v.engine.slots v.engine.nextSlot content)
    (hnew : ∀ l ∈ n, l.port = port ∧ l.slot = v.engine.nextSlot ∧
      SlotOk X e.config port content)
    (hold : ∀ l ∈ v.survivors port, SlotOk X e.config l.port (v.engine.slots l.slot)) :
    SlotsOk X { v with engine := e, listeners := n ++ v.survivors port } := by
  intro l hl
  show SlotOk X e.config l.port (e.slots l.slot)
  rcases List.mem_append.mp hl with hl | hsurv
  · obtain ⟨hport, hslot, hok⟩ := hnew l hl
    rw [hslots, hport, hslot, Function.update_self]
    exact hok
  · rw [hslots, Function.update_of_ne (ne_of_lt (h.bound l (mem_survivors hsurv).1))]
    exact hold l hsurv

/-- **The wiring holds in every run.** -/
theorem Deployment.Wired.step {v v' : Deployment} {a : DeploymentAct} (h : v.Wired X)
    (hstep : deploymentStep X v a = some v') : v'.Wired X := by
  cases a with
  | start config createServerConfig =>
    obtain rfl := Option.some.inj hstep
    have hreg := h.register (e := (startTcpInbound v.engine config createServerConfig).1)
      (n := if config.isReality then [⟨config.port, v.engine.nextSlot, false⟩] else []) rfl rfl h.built ?_
    · split_ifs at hreg ⊢ <;> exact hreg
    · intro l hl
      split_ifs at hl
      · obtain rfl := List.mem_singleton.mp hl
        exact ⟨rfl, rfl⟩
      · exact absurd hl List.not_mem_nil
  | update cfg =>
    rw [deploymentStep] at hstep
    split at hstep
    · next engine hok =>
      obtain rfl := Option.some.inj hstep
      obtain ⟨runtimes, hr, rfl⟩ := EngineState.updateConfig_ok hok
      exact ⟨h.bound, h.registered, h.own, (buildAllRuntimes_builtFrom hr).1⟩
    · obtain rfl := Option.some.inj hstep
      exact h
  | create profile =>
    rw [deploymentStep] at hstep
    split at hstep <;> obtain rfl := Option.some.inj hstep
    · exact ⟨h.bound, h.registered, h.own, h.built⟩
    · exact h
  | publish i bind =>
    obtain ⟨p, hp, rfl⟩ := Option.map_eq_some_iff.mp hstep
    have hpending : Wired X { v with pending := v.pending.eraseIdx i } := ⟨h.bound, h.registered, h.own, h.built⟩
    unfold published
    cases hr : RealityRuntime.new X p with
    | error e =>
      simp only [EngineState.publishRealityProfile, hr]
      exact ⟨h.bound, h.registered, h.own, h.built⟩
    | ok r =>
      cases bind with
      | error e =>
        simp only [EngineState.publishRealityProfile, hr]
        exact ⟨h.bound, h.registered, h.own, h.built⟩
      | ok _ =>
        obtain ⟨hlisteners, -, hnext, hruntimes, hprofiles⟩ := publishRealityProfile_ok v.engine hr
        refine hpending.register (n := [⟨p.port, v.engine.nextSlot, true⟩]) hlisteners hnext ?_ ?_
        · rw [hprofiles, hruntimes]
          exact h.built.insert hr
        · intro l hl
          obtain rfl := List.mem_singleton.mp hl
          exact ⟨rfl, rfl⟩

/-- **An update** puts a new runtime into the slot of every linked listener that has a profile. -/
theorem Deployment.Fit.slotsOk_install {v : Deployment} (h : v.Fit X) {cfg : Config} (hcarry : v.Carries cfg)
    {runtimes : AList fun _ : Uuid => RealityRuntime} (hr : buildAllRuntimes X cfg = .ok runtimes) :
    SlotsOk X { v with engine := v.engine.install X cfg runtimes } := by
  intro l hl
  obtain ⟨hlinked, hunlinked, hsame⟩ := hcarry
  obtain ⟨hbuilt, hall⟩ := buildAllRuntimes_builtFrom hr
  show SlotOk X cfg l.port (hotSwap cfg v.engine.activeListeners v.engine.slots runtimes.entries l.slot)
  have hhit : v.Linked l → (∃ p ∈ cfg.realityProfiles, p.port = l.port) →
      ∃ e ∈ runtimes.entries, Hits cfg v.engine.activeListeners l.slot e := by
    rintro hlink ⟨p, hp, hport⟩
    obtain ⟨r, hlookup⟩ := Option.isSome_iff_exists.mp (hall p hp)
    obtain ⟨q, hq⟩ := Option.isSome_iff_exists.mp
      (List.find?_isSome (p := fun q => decide (q.id = p.id)).mpr ⟨p, hp, decide_eq_true rfl⟩)
    have hqid : q.id = p.id := by simpa using List.find?_some hq
    refine ⟨⟨p.id, r⟩, AList.mem_lookup_iff.mp hlookup, q, hq, ?_⟩
    rw [hsame q (List.mem_of_find?_eq_some hq) p hp hqid, hport]
    exact hlink
  rcases hotSwap_cases cfg v.engine.activeListeners v.engine.slots runtimes.entries l.slot with
    ⟨heq, hno⟩ | ⟨e, he, ⟨p, hp, hlookup⟩, heq⟩
  · rw [heq]
    by_cases hlink : v.Linked l
    · have hnone : ¬ ∃ p ∈ cfg.realityProfiles, p.port = l.port := fun hex =>
        let ⟨e, he, hit⟩ := hhit hlink hex
        hno e he hit
      rw [Option.not_isSome_iff_eq_none.mp fun hs => hnone (hlinked l hl hlink hs)]
      exact fun p hp hport => hnone ⟨p, hp, hport⟩
    · -- nobody swaps this slot, so that what it holds has to fit already
      have hkeep := hunlinked l hl hlink
      have hok := h.ok l hl
      cases hslot : v.engine.slots l.slot with
      | none =>
        rw [hslot] at hkeep
        exact hkeep
      | some r =>
        rw [hslot] at hkeep hok
        obtain ⟨p, -, hport, hnew⟩ := hok
        have hp := (RealityRuntime.new_ok hnew).1
        exact ⟨p, hp ▸ hkeep, hport, hnew⟩
  · rw [heq]
    obtain ⟨q, hq, hqid, hnew⟩ := hbuilt e.1 e.2 (AList.mem_lookup_iff.mpr he)
    have hpid : p.id = e.1 := by simpa using List.find?_some hp
    have hport := hsame q hq p (List.mem_of_find?_eq_some hp) (hqid.trans hpid.symm)
    exact ⟨q, hq, hport.trans (h.own l hl p.port hlookup), hnew⟩

/-- **One step.** -/
theorem Deployment.Fit.step {v v' : Deployment} {a : DeploymentAct} (h : v.Fit X) (hkeep : v.Keeps X a)
    (hstep : deploymentStep X v a = some v') : v'.Fit X := by
  refine (h.wired.step hstep).fit ?_
  cases a with
  | start config createServerConfig =>
    obtain rfl := Option.some.inj hstep
    have hsurv : ∀ l ∈ v.survivors config.port, SlotOk X v.engine.config l.port (v.engine.slots l.slot) :=
      fun l hl => h.ok l (mem_survivors hl).1
    have hreg := h.wired.slotsOk_register (e := (startTcpInbound v.engine config createServerConfig).1)
      (n := if config.isReality then [⟨config.port, v.engine.nextSlot, false⟩] else [])
      rfl (fun l hl => ?_) hsurv
    · split_ifs at hreg ⊢ <;> exact hreg
    · split_ifs at hl with hreality
      · obtain rfl := List.mem_singleton.mp hl
        refine ⟨rfl, rfl, ?_⟩
        have hkeep := hkeep hreality
        cases hr : runtimeOfTag v.engine config.tag with
        | none =>
          rw [hr] at hkeep
          exact hkeep
        | some r =>
          rw [hr] at hkeep
          obtain ⟨hmem, hnew⟩ := runtimeOfTag_built h.built hr
          exact ⟨r.profile, hmem, hkeep, hnew⟩
      · exact absurd hl List.not_mem_nil
  | update cfg =>
    rw [deploymentStep] at hstep
    split at hstep
    · next engine hok =>
      obtain rfl := Option.some.inj hstep
      obtain ⟨runtimes, hr, rfl⟩ := EngineState.updateConfig_ok hok
      exact h.slotsOk_install (hkeep (EngineState.updateConfig_mode hok) ⟨runtimes, hr⟩) hr
    · obtain rfl := Option.some.inj hstep
      exact h.ok
  | create profile =>
    rw [deploymentStep] at hstep
    split at hstep <;> obtain rfl := Option.some.inj hstep
    · exact h.ok
    · exact h.ok
  | publish i bind =>
    obtain ⟨p, hp, rfl⟩ := Option.map_eq_some_iff.mp hstep
    unfold published
    cases hr : RealityRuntime.new X p with
    | error e =>
      simp only [EngineState.publishRealityProfile, hr]
      exact h.ok
    | ok r =>
      cases bind with
      | error e =>
        simp only [EngineState.publishRealityProfile, hr]
        exact h.ok
      | ok u =>
        obtain ⟨-, hslots, -, -, hprofiles⟩ := publishRealityProfile_ok v.engine hr
        have hpending : Wired X { v with pending := v.pending.eraseIdx i } := ⟨h.bound, h.registered, h.own, h.built⟩
        refine hpending.slotsOk_register (n := [⟨p.port, v.engine.nextSlot, true⟩]) hslots ?_ ?_
        · intro l hl
          obtain rfl := List.mem_singleton.mp hl
          refine ⟨rfl, rfl, p, ?_, rfl, hr⟩
          rw [hprofiles]
          exact List.mem_append_right _ List.mem_cons_self
        · intro l hl
          obtain ⟨hmem, hdyn⟩ := mem_survivors hl
          have hok := h.ok l hmem
          show SlotOk X _ l.port (v.engine.slots l.slot)
          cases hslot : v.engine.slots l.slot with
          | some r' =>
            rw [hslot] at hok
            obtain ⟨q, hq, hrest⟩ := hok
            refine ⟨q, ?_, hrest⟩
            rw [hprofiles]
            exact List.mem_append_left _ hq
          | none =>
            rw [hslot] at hok
            intro q hq hport
            rw [hprofiles] at hq
            rcases List.mem_append.mp hq with hq | hq
            · exact hok q hq hport
            · -- the port of the new profile is that of a static listener without a runtime
              obtain rfl := List.mem_singleton.mp hq
              have hsome := hkeep rfl q hp ⟨r, hr⟩ l hmem (hdyn hport.symm) hport.symm
              rw [hslot] at hsome
              cases hsome

/-- The process before its listeners start. -/
def Deployment.fresh (X : Crates) (g : Draws) (config : Config) : Deployment :=
  ⟨.new X g config, [], []⟩

theorem Deployment.fresh_fit (g : Draws) (config : Config) : (fresh X g config).Fit X where
  ok _ hl := absurd hl List.not_mem_nil
  bound _ hl := absurd hl List.not_mem_nil
  registered _ _ h := nomatch h
  own _ hl := absurd hl List.not_mem_nil
  built := runtimesOfProfiles_builtFrom _

/-- **In a run whose steps leave no listener behind, every slot fits the configuration at all times.** -/
theorem slotsOk_of_keeps (g : Draws) (config : Config) {as : List DeploymentAct}
    (h : Run.Meets (deploymentStep X) (Deployment.Keeps X) (.fresh X g config) as) :
    Run.Always (deploymentStep X) (Deployment.SlotsOk X) (.fresh X g config) as :=
  Run.always_of_meets (fun _ _ _ hI hC hstep => hI.step hC hstep) (fun _ hI => hI.ok)
    (Deployment.fresh_fit g config) h

end

/-! ## A profile that is created and removed -/

def slotDraws : Draws := ⟨fun n => Vector.replicate 16 (UInt8.ofNat (n + 1)), 0⟩

/-- The profile of the sample server, as it is in a configuration. -/
def withProfile : Config :=
  { builtInConfig with realityProfiles := [validatedWith "da09ebd28dc215c8"] }

/-- A profile is created and published. -/
def addProfile : List DeploymentAct := [.create (profileWith "da09ebd28dc215c8"), .publish 0 (.ok ())]

def deployed : Deployment :=
  (Run.exec (deploymentStep Sample.crates) (.fresh Sample.crates slotDraws builtInConfig) addProfile).get
    (by decide)

theorem deployed_listeners : deployed.listeners = [⟨10443, 0, true⟩] := by decide

/-- An update that has the profile still leaves no listener behind. -/
theorem slotsOk_of_keeps_replace :
    Run.Always (deploymentStep Sample.crates) (Deployment.SlotsOk Sample.crates)
      (.fresh Sample.crates slotDraws builtInConfig) (addProfile ++ [.update withProfile]) := by
  refine slotsOk_of_keeps slotDraws builtInConfig ⟨trivial, ?_, ?_, trivial⟩
  · exact fun _ _ _ _ _ hl => absurd hl List.not_mem_nil
  · intro _ _
    change deployed.Carries withProfile
    have hlink : ∀ l ∈ deployed.listeners, deployed.Linked l ∧ l.port = 10443 := by
      intro l hl
      rw [deployed_listeners] at hl
      obtain rfl := List.mem_singleton.mp hl
      exact ⟨by unfold Deployment.Linked; decide, rfl⟩
    refine ⟨fun l hl _ _ => ?_, fun l hl hno => absurd (hlink l hl).1 hno, ?_⟩
    · exact ⟨validatedWith "da09ebd28dc215c8", List.mem_cons_self, (hlink l hl).2.symm⟩
    · intro p hp q hq _
      rw [List.mem_singleton.mp hp, List.mem_singleton.mp hq]

def removed : Deployment :=
  (Run.exec (deploymentStep Sample.crates) (.fresh Sample.crates slotDraws builtInConfig)
    (addProfile ++ [.update builtInConfig])).get (by decide)

/-- **An update that leaves the profile out** leaves its runtime where it is: the listener goes on with the
key of a profile that is gone. -/
theorem removed_profile_stays :
    ¬ Run.Always (deploymentStep Sample.crates) (Deployment.SlotsOk Sample.crates)
      (.fresh Sample.crates slotDraws builtInConfig) (addProfile ++ [.update builtInConfig]) := by
  intro h
  have hok := h.last (t := removed) (Option.some_get _).symm
  have hl : (⟨10443, 0, true⟩ : RealityListener) ∈ removed.listeners := by decide
  have hslot : (removed.engine.slots 0).isSome = true := by decide
  have hprofiles : removed.engine.config.realityProfiles = [] := by decide
  have hfits := hok _ hl
  obtain ⟨r, hr⟩ := Option.isSome_iff_exists.mp hslot
  rw [hr] at hfits
  obtain ⟨p, hp, -⟩ := hfits
  rw [hprofiles] at hp
  exact absurd hp List.not_mem_nil

end RXCore
