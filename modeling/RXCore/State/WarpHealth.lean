import RXCore.Api.VpnAccounts

/-!
# The health of WARP

A task probes the proxy of WARP for ever. It loads the published state, waits for the probe, looks its next state up
in a table with a branch for each state, and publishes it if it is another one. Everything else that is done to an
engine may come in between.

* `warpHealthTurn`: the table, with the counter of failures that the task keeps for itself;
* `WarpSystem`, `WarpSystem.step`: an engine with its task;
* `WarpHealth.ofProbes`: what the state is to say of the probes so far;
* `WarpSystem.Kept`: what is published, the counter and the probes belong together;
* **`warpHealth_ofProbes`**: they do in every run.
-/

set_option autoImplicit false

namespace RXCore

/-! ## The task -/

/-- The next state and the counter of consecutive failures, from those before a probe. -/
def warpHealthTurn (currentState consecutiveFailures : ℕ) (success : Bool) : ℕ × ℕ :=
  match currentState with
  | 0 | 1 => if success then (1, 0) else (2, 1)
  | 2 =>
    if success then (1, 0)
    else if 3 ≤ consecutiveFailures + 1 then (3, consecutiveFailures + 1) else (2, consecutiveFailures + 1)
  | 3 =>
    if success then (1, 0)
    else if 5 ≤ consecutiveFailures + 1 then (4, consecutiveFailures + 1) else (3, consecutiveFailures + 1)
  | 4 => if success then (1, 0) else (4, consecutiveFailures)
  | _ => (0, consecutiveFailures)

/-- An engine and the task of its health checks. -/
structure WarpSystem where
  engine : EngineState
  consecutiveFailures : ℕ
  /-- The state that was loaded for the probe under way. -/
  probing : Option ℕ
  /-- Which probes succeeded, the latest first. -/
  results : List Bool

/-- The task starts with an engine. -/
def WarpSystem.start (X : Crates) (g : Draws) (config : Config) : WarpSystem := ⟨.new X g config, 0, none, []⟩

inductive WarpEvent where
  /-- A turn of the loop begins. -/
  | load
  /-- The probe ends, and its turn with it. -/
  | probed (success : Bool)
  | engine (a : EngineAct)

def WarpSystem.step (X : Crates) (s : WarpSystem) : WarpEvent → Option WarpSystem
  | .load => if s.probing = none then some { s with probing := some s.engine.warpHealth } else none
  | .probed success => s.probing.map fun currentState =>
    let (newState, failures) := warpHealthTurn currentState s.consecutiveFailures success
    { engine := { s.engine with warpHealth := if newState ≠ currentState then newState else s.engine.warpHealth }
      consecutiveFailures := failures
      probing := none
      results := success :: s.results }
  | .engine a => (engineStep X s.engine a).map fun engine => { s with engine := engine }

/-! ## What the state says -/

/-- The states that can be published. -/
inductive WarpHealth where
  | unknown
  | healthy
  | degraded
  | down
  | circuitOpen
deriving DecidableEq

/-- The number that is published for a state. -/
def WarpHealth.code : WarpHealth → ℕ
  | unknown => 0
  | healthy => 1
  | degraded => 2
  | down => 3
  | circuitOpen => 4

/-- The failures since the last success, or since the start. -/
def failuresInARow (results : List Bool) : ℕ := (results.takeWhile fun success => !success).length

/-- The state after a number of failures in a row; `probed` tells whether there was a success before them. -/
def WarpHealth.ofFailures (succeeded : Bool) : ℕ → WarpHealth
  | 0 => if succeeded then healthy else unknown
  | 1 | 2 => degraded
  | 3 | 4 => down
  | _ => circuitOpen

/-- The state after some probes. -/
def WarpHealth.ofProbes (results : List Bool) : WarpHealth :=
  .ofFailures (results.contains true) (failuresInARow results)

@[simp] theorem failuresInARow_success (results : List Bool) : failuresInARow (true :: results) = 0 := rfl

@[simp] theorem failuresInARow_failure (results : List Bool) :
    failuresInARow (false :: results) = failuresInARow results + 1 := rfl

/-! ## A turn of the task -/

/-- **A turn follows the probes**: from the state after some probes, with as many failures counted as there were up to
five, to the state after one more. -/
theorem warpHealthTurn_ofProbes (results : List Bool) (success : Bool) :
    warpHealthTurn (WarpHealth.ofProbes results).code (min (failuresInARow results) 5) success =
      ((WarpHealth.ofProbes (success :: results)).code, min (failuresInARow (success :: results)) 5) := by
  cases success with
  | true =>
    have hnext : WarpHealth.ofProbes (true :: results) = .healthy := rfl
    rw [hnext]
    cases WarpHealth.ofProbes results <;> rfl
  | false =>
    rw [failuresInARow_failure]
    unfold WarpHealth.ofProbes
    rw [failuresInARow_failure]
    match failuresInARow results with
    | 0 => cases results.contains true <;> rfl
    | 1 | 2 | 3 | 4 => rfl
    | k + 5 =>
      have h₁ : min (k + 5) 5 = 5 := by omega
      have h₂ : min (k + 5 + 1) 5 = 5 := by omega
      rw [h₁, h₂]
      rfl

/-! ## Everything else -/

section

variable {X : Crates} {s s' : EngineState}

theorem persistConfigToDisk_warpHealth (s : EngineState) : s.persistConfigToDisk.warpHealth = s.warpHealth := by
  rw [EngineState.persistConfigToDisk]
  split_ifs <;> rfl

theorem publishRealityProfile_warpHealth (s : EngineState) (p : RealityProfile) (bind : Except String Unit) :
    (s.publishRealityProfile X p bind).1.warpHealth = s.warpHealth := by
  cases hr : RealityRuntime.new X p with
  | error e => simp only [EngineState.publishRealityProfile, hr]
  | ok r => cases bind with
    | error e => simp only [EngineState.publishRealityProfile, hr]
    | ok _ =>
      simp only [EngineState.publishRealityProfile, hr]
      cases parseIpAddr p.listen with
      | none => rfl
      | some listen => exact persistConfigToDisk_warpHealth _

/-- **What else is done to an engine** leaves its health alone. -/
theorem engineStep_warpHealth {a : EngineAct} (h : engineStep X s a = some s') : s'.warpHealth = s.warpHealth := by
  cases a with
  | updateConfig cfg =>
    rw [engineStep] at h
    cases hu : s.updateConfig X cfg with
    | error e =>
      rw [hu] at h
      cases h
    | ok t =>
      rw [hu] at h
      obtain rfl := Option.some.inj h
      obtain ⟨-, -, hrest⟩ := bind_ok.mp hu
      obtain ⟨runtimes, -, hinstall⟩ := bind_ok.mp hrest
      obtain rfl := Except.ok.inj hinstall
      rfl
  | applyRoutingUpdate cfg =>
    obtain rfl := Option.some.inj h
    exact persistConfigToDisk_warpHealth _
  | publishRealityProfile p bind =>
    obtain rfl := Option.some.inj h
    exact publishRealityProfile_warpHealth s p bind
  | persistConfigToDisk =>
    obtain rfl := Option.some.inj h
    exact persistConfigToDisk_warpHealth s
  | sweep =>
    obtain rfl := Option.some.inj h
    rw [EngineState.sweep]
    split_ifs
    · exact persistConfigToDisk_warpHealth _
    · rfl
  | disconnectUser userId =>
    obtain rfl := Option.some.inj h
    rw [EngineState.disconnectUser]
    split <;> rfl
  | count r u =>
    rw [engineStep] at h
    split_ifs at h
    obtain rfl := Option.some.inj h
    rfl
  | recv | registerConnection | deregisterConnection =>
    obtain rfl := Option.some.inj h
    rfl

end

/-! ## Every run -/

/-- What is published says what the probes say, as does the state that the probe under way was begun in, and the
failures are counted up to five. -/
structure WarpSystem.Kept (s : WarpSystem) : Prop where
  published : s.engine.warpHealth = (WarpHealth.ofProbes s.results).code
  counted : s.consecutiveFailures = min (failuresInARow s.results) 5
  loaded : ∀ currentState, s.probing = some currentState → currentState = s.engine.warpHealth

section

variable {X : Crates} {s s' : WarpSystem}

theorem WarpSystem.start_kept (X : Crates) (g : Draws) (config : Config) : (WarpSystem.start X g config).Kept where
  published := rfl
  counted := rfl
  loaded _ h := nomatch h

/-- The end of a probe. -/
theorem WarpSystem.Kept.probed (h : s.Kept) {success : Bool} (hs : s.step X (.probed success) = some s') :
    s'.results = success :: s.results ∧ s'.Kept := by
  obtain ⟨currentState, hprobing, rfl⟩ := Option.map_eq_some_iff.mp hs
  have hturn := warpHealthTurn_ofProbes s.results success
  rw [← h.published, ← h.counted, ← h.loaded currentState hprobing] at hturn
  rw [hturn]
  refine ⟨rfl, ?_, rfl, fun _ hc => nomatch hc⟩
  -- a state that is not published again is the one that was
  show (if _ then _ else _) = _
  split_ifs with hne
  · rfl
  · exact (h.loaded currentState hprobing).symm.trans (not_not.mp hne).symm

theorem WarpSystem.Kept.step (h : s.Kept) {e : WarpEvent} (hs : s.step X e = some s') : s'.Kept := by
  cases e with
  | load =>
    rw [WarpSystem.step] at hs
    split_ifs at hs
    obtain rfl := Option.some.inj hs
    exact ⟨h.published, h.counted, fun _ hc => (Option.some.inj hc).symm⟩
  | probed success => exact (h.probed hs).2
  | engine a =>
    obtain ⟨engine, hengine, rfl⟩ := Option.map_eq_some_iff.mp hs
    have hsame := engineStep_warpHealth hengine
    exact ⟨hsame.trans h.published, h.counted, fun c hc => (h.loaded c hc).trans hsame.symm⟩

/-- WARP is closed from the third failure in a row on. -/
theorem isWarpAllowed_iff (s : EngineState) (results : List Bool)
    (h : s.warpHealth = (WarpHealth.ofProbes results).code) :
    s.isWarpAllowed = false ↔ 3 ≤ failuresInARow results := by
  rw [EngineState.isWarpAllowed, h, WarpHealth.ofProbes]
  match failuresInARow results with
  | 0 => cases results.contains true <;> decide
  | 1 | 2 => exact iff_of_false (fun h => nomatch h) (by omega)
  | 3 | 4 => exact iff_of_true rfl (by omega)
  | k + 5 => exact iff_of_true rfl (by omega)

/-- **The health of WARP in every run.** After every sequence of probes, with whatever is done to the engine in
between, the published state is that of the failures since the last success: healthy without any after a success,
degraded for one or two, down for three or four, open for five and more. WARP is closed exactly from three on, and a
probe that succeeds opens it again. -/
theorem warpHealth_ofProbes {g : Draws} {config : Config} (es : List WarpEvent)
    (hrun : Run.exec (WarpSystem.step X) (.start X g config) es = some s) :
    (failuresInARow s.results = 0 → true ∈ s.results → s.engine.warpHealth = WarpHealth.healthy.code) ∧
    (failuresInARow s.results = 1 ∨ failuresInARow s.results = 2 → s.engine.warpHealth = WarpHealth.degraded.code) ∧
    (failuresInARow s.results = 3 ∨ failuresInARow s.results = 4 → s.engine.warpHealth = WarpHealth.down.code) ∧
    (5 ≤ failuresInARow s.results → s.engine.warpHealth = WarpHealth.circuitOpen.code) ∧
    (s.engine.isWarpAllowed = false ↔ 3 ≤ failuresInARow s.results) ∧
    ∀ s', s.step X (.probed true) = some s' →
      s'.engine.warpHealth = WarpHealth.healthy.code ∧ s'.engine.isWarpAllowed = true := by
  have hkept : s.Kept := Run.exec_invariant (fun _ _ _ h => h.step) (WarpSystem.start_kept X g config) hrun
  have hpublished := hkept.published
  unfold WarpHealth.ofProbes at hpublished
  refine ⟨fun hk hmem => ?_, ?_, ?_, fun hk => ?_, isWarpAllowed_iff s.engine s.results hkept.published,
    fun s' hs => ?_⟩
  · rw [hpublished, hk, List.contains_iff_mem.mpr hmem]
    rfl
  · rintro (hk | hk) <;> rw [hpublished, hk] <;> rfl
  · rintro (hk | hk) <;> rw [hpublished, hk] <;> rfl
  · obtain ⟨k, hk⟩ := Nat.exists_eq_add_of_le' hk
    rw [hpublished, hk]
    rfl
  · obtain ⟨hresults, hkept'⟩ := hkept.probed hs
    have hhealthy : s'.engine.warpHealth = WarpHealth.healthy.code := by
      rw [hkept'.published, hresults]
      rfl
    refine ⟨hhealthy, ?_⟩
    rw [EngineState.isWarpAllowed, hhealthy]
    rfl

end

/-- Three probes that fail, and a configuration that is saved in the middle of the second. -/
def threeFailures : List WarpEvent :=
  [.load, .probed false, .load, .engine .persistConfigToDisk, .probed false, .load, .probed false, .load]

/-- The theorem on three failures: WARP is down, and the next success opens it. -/
theorem warpHealth_ofProbes_threeFailures : ∃ s, Run.exec (WarpSystem.step Sample.crates)
    (.start Sample.crates ⟨fun _ => Vector.replicate 16 0, 0⟩ builtInConfig) threeFailures = some s ∧
    (failuresInARow s.results = 0 → true ∈ s.results → s.engine.warpHealth = WarpHealth.healthy.code) ∧
    (failuresInARow s.results = 1 ∨ failuresInARow s.results = 2 → s.engine.warpHealth = WarpHealth.degraded.code) ∧
    (failuresInARow s.results = 3 ∨ failuresInARow s.results = 4 → s.engine.warpHealth = WarpHealth.down.code) ∧
    (5 ≤ failuresInARow s.results → s.engine.warpHealth = WarpHealth.circuitOpen.code) ∧
    (s.engine.isWarpAllowed = false ↔ 3 ≤ failuresInARow s.results) ∧
    ∀ s', s.step Sample.crates (.probed true) = some s' →
      s'.engine.warpHealth = WarpHealth.healthy.code ∧ s'.engine.isWarpAllowed = true :=
  ⟨_, rfl, warpHealth_ofProbes threeFailures rfl⟩

end RXCore
