import RXCore.Inbound.Slots
import RXCore.State.Reload

/-!
# A reload against a restart

What the data path looks up after `update_config`, compared with the engine that `EngineState::new` makes of
the same configuration and with the listeners that start on it.

* `reloadStep`: listeners, profiles and updates in any order, with traffic in between;
* `Deployment.LikeRestart`: an update that is accepted gives what a restart gives, one that is refused
  changes nothing;
* `Deployment.Served`: the listener on the port of an inbound gets the runtime of its profile;
* **`reload_like_restart`**: runs in which every update finds the accounts and listeners that it needs;
* **`reload_keeps_object`**: an alias that becomes the identifier of another client.
-/

set_option autoImplicit false

namespace RXCore

inductive ReloadAct where
  | deploy (a : DeploymentAct)
  /-- Connections and grants of quota change the counters of an account. -/
  | traffic (r : ℕ) (f : UserSnapshot → UserSnapshot)

def UserStats.withSnapshot (u : UserStats) (k : UserSnapshot) : UserStats :=
  { u with remainingBytes := k.remainingBytes, totalGb := k.totalGb, rx := k.rx, tx := k.tx }

def reloadStep (X : Crates) (v : Deployment) : ReloadAct → Option Deployment
  | .deploy a => deploymentStep X v a
  | .traffic r f => some { v with engine := v.engine.modifyUser r fun u => u.withSnapshot (f u.snapshot) }

/-- The lookups of the data path on the engine `s` after an update give what they give on the engine `t`
after a restart, the counters of accounts that there were before apart. A listener on the port of an inbound
has the runtime that the inbound gets when it starts. -/
structure Deployment.SameAs (v : Deployment) (cfg : Config) (s t : EngineState) : Prop where
  accounts : ∃ P, AccountsMatch s t (· < v.engine.nextRef) P
  speedLimit : ∀ u, s.getUserSpeedLimit u = t.getUserSpeedLimit u
  routingTables : s.routingTables = t.routingTables
  realityRuntimes : s.realityRuntimes = t.realityRuntimes
  slots : ∀ l ∈ v.listeners, ∀ i ∈ cfg.inbounds, i.port = l.port → ∀ createServerConfig,
    s.slots l.slot = (startTcpInbound t i createServerConfig).1.slots
      (startTcpInbound t i createServerConfig).2.runtimeSwap

/-- **Reload equals restart**: for an update with a migrated configuration. -/
def Deployment.LikeRestart (X : Crates) (v : Deployment) : ReloadAct → Prop
  | .deploy (.update cfg) => cfg.Migrated X → match v.engine.updateConfig X cfg with
    | .ok s => ∀ g, v.SameAs cfg s (.new X g cfg)
    | .error _ => deploymentStep X v (.update cfg) = some v
  | _ => True

/-- The listener on the port of an inbound is registered and there is one profile with the port, which is
the one with the inbound's tag; or there is none, and the listener has no runtime. -/
structure Deployment.Served (v : Deployment) (cfg : Config) (l : RealityListener) (i : InboundConfig) :
    Prop where
  tagged : ∀ p ∈ cfg.realityProfiles, p.port = l.port ↔ p.inboundTag = i.tag
  only : ∀ p ∈ cfg.realityProfiles, p.port = l.port → ∀ q ∈ cfg.realityProfiles,
    q.port = l.port ∨ q.id = p.id → q = p
  linked : ∀ p ∈ cfg.realityProfiles, p.port = l.port → v.Linked l
  empty : (∀ p ∈ cfg.realityProfiles, p.port ≠ l.port) → v.engine.slots l.slot = none

/-- What an update that is accepted has to find. -/
def Deployment.Reloads (X : Crates) (v : Deployment) : ReloadAct → Prop
  | .deploy (.update cfg) => cfg.Migrated X → cfg.network.ipv4Only = v.engine.config.network.ipv4Only →
    (∃ runtimes, buildAllRuntimes X cfg = .ok runtimes) →
      v.engine.Knows X cfg.clients ∧ ∀ l ∈ v.listeners, ∀ i ∈ cfg.inbounds, i.port = l.port → v.Served cfg l i
  | _ => True

/-! ## Runtimes -/

section

variable {X : Crates}

/-- Where all runtimes can be built, an update builds those of a start. -/
theorem buildAllRuntimes_eq {cfg : Config} {runtimes : AList fun _ : Uuid => RealityRuntime}
    (h : buildAllRuntimes X cfg = .ok runtimes) : runtimes = runtimesOfProfiles X cfg.realityProfiles := by
  have hgen : ∀ (ps : List RealityProfile) (m m' : AList fun _ : Uuid => RealityRuntime),
      ps.foldlM (fun m p => do
        let r ← RealityRuntime.new X p
        return m.insert p.id r) m = .ok m' →
      m' = ps.foldl (addRuntime X) m := by
    intro ps
    induction ps with
    | nil =>
      intro m m' h
      exact (Except.ok.inj h).symm
    | cons p ps ih =>
      intro m m' h
      rw [List.foldlM_cons] at h
      obtain ⟨m₁, h₁, h⟩ := bind_ok.mp h
      obtain ⟨r, hr, h₁⟩ := bind_ok.mp h₁
      obtain rfl := Except.ok.inj h₁
      rw [List.foldl_cons, addRuntime_ok hr]
      exact ih _ _ h
  exact hgen cfg.realityProfiles ∅ runtimes h

/-- The runtime under the identifier of a profile that has it for itself. -/
theorem runtime_of_only {cfg : Config} {runtimes : AList fun _ : Uuid => RealityRuntime}
    (hr : buildAllRuntimes X cfg = .ok runtimes) {p : RealityProfile} (hp : p ∈ cfg.realityProfiles)
    (honly : ∀ q ∈ cfg.realityProfiles, q.id = p.id → q = p) :
    ∃ r, runtimes.lookup p.id = some r ∧ RealityRuntime.new X p = .ok r := by
  obtain ⟨hbuilt, hall⟩ := buildAllRuntimes_builtFrom hr
  obtain ⟨r, hlookup⟩ := Option.isSome_iff_exists.mp (hall p hp)
  obtain ⟨q, hq, hid, hnew⟩ := hbuilt p.id r hlookup
  rw [honly q hq hid] at hnew
  exact ⟨r, hlookup, hnew⟩

/-- **The slot of a listener that is served** holds, after an update, what the inbound finds when it starts. -/
theorem Deployment.Served.slot_eq {v : Deployment} (hw : v.Wired X) {cfg : Config} {l : RealityListener}
    (hl : l ∈ v.listeners) {i : InboundConfig} (h : v.Served cfg l i)
    {runtimes : AList fun _ : Uuid => RealityRuntime} (hr : buildAllRuntimes X cfg = .ok runtimes) :
    hotSwap cfg v.engine.activeListeners v.engine.slots runtimes.entries l.slot =
      (runtimes.entries.find? fun e => e.2.profile.inboundTag == i.tag).map (·.2) := by
  obtain ⟨hbuilt, -⟩ := buildAllRuntimes_builtFrom hr
  have hentry : ∀ e ∈ runtimes.entries, ∃ q ∈ cfg.realityProfiles, q.id = e.1 ∧
      RealityRuntime.new X q = .ok e.2 ∧ e.2.profile = q := by
    intro e he
    obtain ⟨q, hq, hid, hnew⟩ := hbuilt e.1 e.2 (AList.mem_lookup_iff.mpr he)
    exact ⟨q, hq, hid, hnew, (RealityRuntime.new_ok hnew).1⟩
  have hport : ∀ e, Hits cfg v.engine.activeListeners l.slot e →
      ∃ p ∈ cfg.realityProfiles, p.id = e.1 ∧ p.port = l.port := by
    rintro e ⟨p, hp, hlookup⟩
    exact ⟨p, List.mem_of_find?_eq_some hp, by simpa using List.find?_some hp, hw.own l hl p.port hlookup⟩
  by_cases hex : ∃ p ∈ cfg.realityProfiles, p.port = l.port
  · obtain ⟨p, hp, hpl⟩ := hex
    have honly := h.only p hp hpl
    obtain ⟨r, hlookup, hnew⟩ := runtime_of_only hr hp fun q hq hid => honly q hq (.inr hid)
    -- both sides are the runtime of this profile
    have hleft : hotSwap cfg v.engine.activeListeners v.engine.slots runtimes.entries l.slot = some r := by
      rcases hotSwap_cases cfg v.engine.activeListeners v.engine.slots runtimes.entries l.slot with
        ⟨-, hno⟩ | ⟨e, he, hhit, heq⟩
      · refine absurd ⟨p, ?_, ?_⟩ (hno ⟨p.id, r⟩ (AList.mem_lookup_iff.mp hlookup))
        · obtain ⟨q, hq⟩ := Option.isSome_iff_exists.mp
            (List.find?_isSome (p := fun q => decide (q.id = p.id)).mpr ⟨p, hp, decide_eq_true rfl⟩)
          have hid : q.id = p.id := by simpa using List.find?_some hq
          rwa [honly q (List.mem_of_find?_eq_some hq) (.inr hid)] at hq
        · rw [hpl]
          exact h.linked p hp hpl
      · obtain ⟨p', hp', hid', hpl'⟩ := hport e hhit
        obtain rfl := honly p' hp' (.inl hpl')
        obtain ⟨q, hq, hqid, hqnew, -⟩ := hentry e he
        obtain rfl := honly q hq (.inr (hqid.trans hid'.symm))
        rw [heq, ← Except.ok.inj (hnew.symm.trans hqnew)]
    have hright : (runtimes.entries.find? fun e => e.2.profile.inboundTag == i.tag).map (·.2) = some r := by
      have hsome : (runtimes.entries.find? fun e => e.2.profile.inboundTag == i.tag).isSome = true := by
        refine List.find?_isSome.mpr ⟨⟨p.id, r⟩, AList.mem_lookup_iff.mp hlookup, ?_⟩
        simpa [(RealityRuntime.new_ok hnew).1] using (h.tagged p hp).mp hpl
      obtain ⟨e, he⟩ := Option.isSome_iff_exists.mp hsome
      obtain ⟨q, hq, -, hqnew, hprofile⟩ := hentry e (List.mem_of_find?_eq_some he)
      have htag : q.inboundTag = i.tag := by
        rw [← hprofile]
        simpa using List.find?_some he
      obtain rfl := honly q hq (.inl ((h.tagged q hq).mpr htag))
      rw [he, Option.map_some, ← Except.ok.inj (hnew.symm.trans hqnew)]
    rw [hleft, hright]
  · have hnone : ∀ p ∈ cfg.realityProfiles, p.port ≠ l.port := fun p hp hpl => hex ⟨p, hp, hpl⟩
    have hfind : (runtimes.entries.find? fun e => e.2.profile.inboundTag == i.tag) = none := by
      refine List.find?_eq_none.mpr fun e he htag => ?_
      obtain ⟨q, hq, -, -, hprofile⟩ := hentry e he
      rw [hprofile] at htag
      exact hnone q hq ((h.tagged q hq).mpr (by simpa using htag))
    rw [hfind]
    rcases hotSwap_cases cfg v.engine.activeListeners v.engine.slots runtimes.entries l.slot with
      ⟨heq, -⟩ | ⟨e, -, hhit, -⟩
    · rw [heq, h.empty hnone]
      rfl
    · obtain ⟨p, hp, -, hpl⟩ := hport e hhit
      exact absurd hpl (hnone p hp)

/-! ## Runs -/

/-- The invariant: the wiring of the listeners, and references to accounts that exist. -/
structure Deployment.Sound (X : Crates) (v : Deployment) : Prop extends v.Wired X where
  allocated : ∀ u r, owner v.engine.users u = some r → r < v.engine.nextRef

theorem publishRealityProfile_users (s : EngineState) (p : RealityProfile) (bind : Except String Unit) :
    (s.publishRealityProfile X p bind).1.users = s.users ∧
      (s.publishRealityProfile X p bind).1.nextRef = s.nextRef := by
  unfold EngineState.publishRealityProfile
  split
  · exact ⟨rfl, rfl⟩
  · exact ⟨rfl, rfl⟩
  · dsimp only
    split
    · exact ⟨rfl, rfl⟩
    · obtain ⟨husers, -, hnext, -⟩ := EngineState.persistConfigToDisk_frame _
      exact ⟨husers, hnext⟩

theorem Deployment.Sound.step {v v' : Deployment} {a : ReloadAct} (h : v.Sound X)
    (hstep : reloadStep X v a = some v') : v'.Sound X := by
  cases a with
  | traffic r f =>
    obtain rfl := Option.some.inj hstep
    exact ⟨⟨h.bound, h.registered, h.own, h.built⟩, h.allocated⟩
  | deploy a =>
    refine ⟨h.toWired.step hstep, ?_⟩
    cases a with
    | start config createServerConfig =>
      obtain rfl := Option.some.inj hstep
      exact h.allocated
    | update cfg =>
      rw [reloadStep, deploymentStep] at hstep
      split at hstep
      · next engine hok =>
        obtain rfl := Option.some.inj hstep
        obtain ⟨runtimes, -, rfl⟩ := EngineState.updateConfig_ok hok
        have hb := install_built (X := X) h.allocated cfg
        intro u r hr
        obtain ⟨c, -, -, hlocal⟩ := hb.owned u r hr
        exact hb.bound c.id r hlocal
      · obtain rfl := Option.some.inj hstep
        exact h.allocated
    | create profile =>
      rw [reloadStep, deploymentStep] at hstep
      split at hstep <;> obtain rfl := Option.some.inj hstep <;> exact h.allocated
    | publish i bind =>
      obtain ⟨p, -, rfl⟩ := Option.map_eq_some_iff.mp hstep
      obtain ⟨husers, hnext⟩ := publishRealityProfile_users (X := X) v.engine p bind
      unfold published
      split
      · show ∀ u r, owner (v.engine.publishRealityProfile X p _).1.users u = some r → _
        rw [husers, hnext]
        exact h.allocated
      · rw [husers, hnext]
        exact h.allocated

theorem Deployment.Sound.likeRestart {v : Deployment} (h : v.Sound X) {a : ReloadAct} (ha : v.Reloads X a) :
    v.LikeRestart X a := by
  cases a with
  | traffic r f => trivial
  | deploy a =>
    cases a with
    | update cfg =>
      intro hm
      cases hu : v.engine.updateConfig X cfg with
      | error e => simp only [deploymentStep, hu]
      | ok s =>
        intro g
        have hmode := EngineState.updateConfig_mode hu
        obtain ⟨runtimes, hr, rfl⟩ := EngineState.updateConfig_ok hu
        obtain ⟨hknows, hserved⟩ := ha hm hmode ⟨runtimes, hr⟩
        obtain ⟨P, hP⟩ := install_accountsMatch h.allocated hm hknows runtimes g
        have hmig := migrateIfNeeded_of_migrated hm g
        have hruntimes : (EngineState.new X g cfg).realityRuntimes = runtimes := by
          rw [buildAllRuntimes_eq hr, ← hmig]
          simp only [EngineState.new, hmig]
        refine ⟨⟨P, hP⟩, hP.getUserSpeedLimit, ?_, hruntimes.symm, fun l hl i hi hport cert => ?_⟩
        · simp only [EngineState.new, hmig]
          rfl
        · have hslot := (hserved l hl i hi hport).slot_eq h.toWired hl hr
          simp only [startTcpInbound, Function.update_self, runtimeOfTag, hruntimes]
          exact hslot
    | _ => trivial

/-- **Reload equals restart**, in every run whose updates find under the UUID of each client its own account
or none, one e-mail for each identifier, and listeners that are served. -/
theorem reload_like_restart (g : Draws) (config : Config) {as : List ReloadAct}
    (h : Run.Meets (reloadStep X) (Deployment.Reloads X) (.fresh X g config) as) :
    Run.Meets (reloadStep X) (Deployment.LikeRestart X) (.fresh X g config) as := by
  have hfresh : (Deployment.fresh X g config).Sound X :=
    ⟨(Deployment.fresh_fit g config).wired, new_bound g config⟩
  exact h.of_invariant (fun _ _ _ hs hstep => hs.step hstep) (fun _ _ _ hs _ ha => hs.likeRestart ha) hfresh

end

/-! ## Runs with an update -/

/-- An account was used while a profile was published. -/
def used : Deployment :=
  { deployed with engine := deployed.engine.modifyUser 0 fun u => u.withSnapshot { u.snapshot with rx := 7 } }

/-- A profile is published, an account used, and the configuration loaded again. -/
def reloadRun : List ReloadAct :=
  addProfile.map .deploy ++ [.traffic 0 fun k => { k with rx := 7 }, .deploy (.update deployed.engine.config)]

/-- The identifier of the only client. -/
def soleId : String := "ad60c2b2-cc0c-492a-89aa-c92330a10cc9"

def soleUuid : Uuid := builtInUuid

theorem used_reloads : used.Reloads Sample.crates (.deploy (.update deployed.engine.config)) := by
  refine fun _ _ _ => ⟨⟨?_, ?_⟩, ?_⟩
  · intro c hc u r hu hr
    have hid : ∀ c ∈ deployed.engine.config.clients, c.id = soleId := by decide
    have hparse : Sample.crates.parseUuid soleId = some soleUuid := by decide
    have howner : owner used.engine.users soleUuid = some 0 := by decide
    have hheap : (used.engine.heap 0).id = soleId := by decide
    rw [hid c hc, hparse] at hu
    obtain rfl := Option.some.inj hu
    rw [howner] at hr
    obtain rfl := Option.some.inj hr
    rw [hheap, hid c hc]
  · have hemail : ∀ c ∈ deployed.engine.config.clients, ∀ d ∈ deployed.engine.config.clients,
        d.id = c.id → c.email = d.email := by
      decide
    exact fun c hc _ _ d hd => hemail c hc d hd
  · intro l hl i hi hport
    have htagged : ∀ l ∈ used.listeners, ∀ i ∈ deployed.engine.config.inbounds, i.port = l.port →
        ∀ p ∈ deployed.engine.config.realityProfiles, p.port = l.port ↔ p.inboundTag = i.tag := by
      decide
    have honly : ∀ p ∈ deployed.engine.config.realityProfiles,
        ∀ q ∈ deployed.engine.config.realityProfiles, q = p := by
      decide
    have hlinked : ∀ l ∈ used.listeners, used.engine.activeListeners.lookup l.port = some l.slot ∧
        ∃ p ∈ deployed.engine.config.realityProfiles, p.port = l.port := by
      decide
    refine ⟨htagged l hl i hi hport, fun p hp _ q hq _ => honly p hp q hq, fun _ _ _ => (hlinked l hl).1, ?_⟩
    intro hnone
    obtain ⟨p, hp, hpl⟩ := (hlinked l hl).2
    exact absurd hpl (hnone p hp)

/-- The theorem on a configuration with an account that was used, and a listener whose profile stays. -/
theorem reload_like_restart_same :
    Run.Meets (reloadStep Sample.crates) (Deployment.LikeRestart Sample.crates)
      (.fresh Sample.crates slotDraws builtInConfig) reloadRun := by
  have hexec : ∀ (as : List DeploymentAct) (v : Deployment),
      Run.exec (reloadStep Sample.crates) v (as.map .deploy) = Run.exec (deploymentStep Sample.crates) v as := by
    intro as
    induction as with
    | nil => exact fun v => rfl
    | cons a as ih =>
      intro v
      rw [List.map_cons, Run.exec_cons, Run.exec_cons]
      exact congrArg _ (funext ih)
  have hbefore : Run.Meets (reloadStep Sample.crates) (Deployment.Reloads Sample.crates)
      (.fresh Sample.crates slotDraws builtInConfig) (addProfile.map .deploy) := by
    refine Run.meets_of_forall_mem (fun a ha v => ?_) _
    rcases List.mem_cons.mp ha with rfl | ha
    · trivial
    · obtain rfl := List.mem_singleton.mp ha
      trivial
  refine reload_like_restart slotDraws builtInConfig (hbefore.append (t := deployed) ?_ ?_)
  · rw [hexec]
    exact (Option.some_get _).symm
  · refine (Run.meets_cons (t := used) rfl).mpr ⟨trivial, ?_⟩
    rw [Run.Meets]
    split
    · trivial
    · exact ⟨used_reloads, trivial⟩

/-- The former alias of the first client is the identifier of the second. -/
def movedConfig : Config := aliasMoved.migrateIfNeeded Sample.crates accountDraws

def movedEngine : EngineState :=
  (EngineState.new Sample.crates accountDraws oneAccount).install Sample.crates movedConfig ∅

/-- **An update that gives one client the object of another**, where a restart gives each its own. -/
theorem reload_keeps_object :
    ¬ Run.Meets (reloadStep Sample.crates) (Deployment.LikeRestart Sample.crates)
      (.fresh Sample.crates accountDraws oneAccount) [.deploy (.update movedConfig)] := by
  rintro ⟨h, -⟩
  have hok : (EngineState.new Sample.crates accountDraws oneAccount).updateConfig Sample.crates movedConfig =
      .ok movedEngine :=
    EngineState.updateConfig_of_accepts (by decide) rfl
  have hsame := h ⟨accountDraws, aliasMoved, rfl⟩
  simp only [Deployment.fresh, hok] at hsame
  obtain ⟨P, hP⟩ := (hsame accountDraws).accounts
  have hfirst : movedEngine.users.lookup (uniformUuid 0xaa) = some (0, .smart) := by decide
  have hsecond : movedEngine.users.lookup (uniformUuid 0xbb) = some (0, .smart) := by decide
  obtain ⟨e, he, hPe, -⟩ := hP.users.lookup_some hfirst
  obtain ⟨e', he', hPe', -⟩ := hP.users.lookup_some hsecond
  have hrestart : owner (EngineState.new Sample.crates accountDraws movedConfig).users (uniformUuid 0xaa) ≠
      owner (EngineState.new Sample.crates accountDraws movedConfig).users (uniformUuid 0xbb) := by
    decide
  refine hrestart ?_
  rw [owner, owner, he, he']
  exact congrArg some ((hP.oneToOne _ _ _ _ hPe hPe').mp rfl)

end RXCore
