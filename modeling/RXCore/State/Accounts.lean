import RXCore.State.Engine
import RXCore.Lib.Run

/-!
# The object of a client

Running connections hold the `UserStats` of their account and change its counters, while updates of the
configuration rebuild the map that leads to it. A client is followed by its UUID through all updates whose
configurations contain it.

* `Counters`: what connections change in a `UserStats`;
* `Ledger`, `accountStep`: an engine, and the object and the counters that the client has to have;
* `Ledger.Holds`: it has them, under all its UUIDs, and shares them with nobody;
* `Ledger.Unshared`: no other client of a new configuration is identified by a UUID that leads to the
  object of the client;
* **`keepsObject_iff`**: a client keeps its object in exactly the runs whose updates meet that;
* **`alias_reused`**: an alias becomes the identifier of another client.
-/

set_option autoImplicit false

namespace RXCore

/-- The counters that connections change. -/
structure Counters where
  rx : ℕ
  tx : ℕ
  remainingBytes : ℤ
deriving DecidableEq

def UserStats.counters (u : UserStats) : Counters := ⟨u.rx, u.tx, u.remainingBytes⟩

def UserStats.withCounters (u : UserStats) (k : Counters) : UserStats :=
  { u with rx := k.rx, tx := k.tx, remainingBytes := k.remainingBytes }

/-- A configuration with the client of a UUID, and with UUIDs that are all different. -/
def Config.Contains (X : Crates) (u : Uuid) (cfg : Config) : Prop :=
  (cfg.clients.flatMap (Client.claims X)).Nodup ∧ ∃ c ∈ cfg.clients, X.parseUuid c.id = some u

instance (X : Crates) (u : Uuid) (cfg : Config) : Decidable (cfg.Contains X u) :=
  inferInstanceAs (Decidable (_ ∧ _))

/-- An engine with the object of a client and the counters that it has to have, as long as the
configurations contain it. -/
structure Ledger where
  engine : EngineState
  object : Option (ℕ × Counters)

inductive AccountAct where
  | update (cfg : Config)
  /-- A connection changes the counters of an object that it holds. -/
  | traffic (r : ℕ) (f : Counters → Counters)

/-- The object under a UUID with its counters. -/
def EngineState.objectOf (s : EngineState) (u : Uuid) : Option (ℕ × Counters) :=
  (owner s.users u).map fun r => (r, (s.heap r).counters)

/-- The object of the client after an update: the one that it had, or its first one. -/
def Ledger.follow (X : Crates) (u : Uuid) (object : Option (ℕ × Counters)) (engine : EngineState) :
    Option (ℕ × Counters) :=
  if engine.config.Contains X u then object.or (engine.objectOf u) else none

def accountStep (X : Crates) (u : Uuid) (L : Ledger) : AccountAct → Option Ledger
  | .update cfg => match L.engine.updateConfig X cfg with
    | .ok engine => some ⟨engine, Ledger.follow X u L.object engine⟩
    | .error _ => some L
  | .traffic r f => some {
      engine := L.engine.modifyUser r fun s => s.withCounters (f s.counters)
      object := L.object.map fun (q, k) => if q = r then (q, f k) else (q, k) }

/-- An engine on a configuration. -/
def Ledger.start (X : Crates) (u : Uuid) (g : Draws) (config : Config) : Ledger :=
  ⟨.new X g config, Ledger.follow X u none (.new X g config)⟩

/-- The UUIDs of the client of `u` lead to an object, each with its mode. -/
def LeadsTo (X : Crates) (u : Uuid) (cs : List Client) (users : UserMap) (r : ℕ) : Prop :=
  ∀ c ∈ cs, X.parseUuid c.id = some u → ∀ e ∈ c.entries X, users.lookup e.1 = some (r, e.2)

/-- No UUID of another client leads to an object. -/
def OwnedAlone (X : Crates) (u : Uuid) (cs : List Client) (users : UserMap) (r : ℕ) : Prop :=
  ∀ c ∈ cs, X.parseUuid c.id ≠ some u → ∀ v ∈ c.claims X, owner users v ≠ some r

/-- **The client has its object and the counters that it has to have**, and nobody else does. -/
def Ledger.Holds (X : Crates) (u : Uuid) (L : Ledger) : Prop :=
  ∀ r k, L.object = some (r, k) → (L.engine.heap r).counters = k ∧
    LeadsTo X u L.engine.config.clients L.engine.users r ∧
    OwnedAlone X u L.engine.config.clients L.engine.users r

/-- No other client is identified by a UUID that leads to the object of the client. -/
def Unshared (X : Crates) (u : Uuid) (cs : List Client) (old : UserMap) : Prop :=
  ∀ c ∈ cs, ∀ v, X.parseUuid c.id = some v → v ≠ u → ∀ r, owner old u = some r → owner old v ≠ some r

/-- An update that is accepted and whose configuration contains the client leaves its object to it. -/
def Ledger.Unshared (X : Crates) (u : Uuid) (L : Ledger) : AccountAct → Prop
  | .update cfg => cfg.Contains X u → cfg.network.ipv4Only = L.engine.config.network.ipv4Only →
    (∃ runtimes, buildAllRuntimes X cfg = .ok runtimes) → RXCore.Unshared X u cfg.clients L.engine.users
  | .traffic _ _ => True

section

variable {X : Crates} {u : Uuid}

/-- **What the loop over the clients makes of a client**: all its UUIDs lead to one object, and nobody
shares it exactly when nobody shared its UUID before. -/
theorem Built.object {old : UserMap} {heap : Heap} {next : ℕ} {cs : List Client} {b : UserMaps}
    (hb : Built X old heap next cs b) (hnodup : (cs.flatMap (Client.claims X)).Nodup)
    (hentry : ∀ v e, b.users.lookup v = some e → ∃ c ∈ cs, (v, e.2) ∈ c.entries X)
    (hold : ∀ v r, owner old v = some r → r < next) {a : Client} (ha : a ∈ cs)
    (hau : X.parseUuid a.id = some u) :
    ∃ r, owner b.users u = some r ∧ (∀ r', owner old u = some r' → r' = r) ∧
      LeadsTo X u cs b.users r ∧ (OwnedAlone X u cs b.users r ↔ Unshared X u cs old) := by
  have hd := Distinct.of_nodup hnodup
  have hlocal : ∀ c ∈ cs, ∀ v ∈ c.claims X, ∀ r, owner b.users v = some r →
      b.localStats.lookup c.id = some r := by
    intro c hc v hv r hr
    obtain ⟨d, hdm, hdv, hdl⟩ := hb.owned v r hr
    rwa [hd d hdm c hc v hdv hv] at hdl
  obtain ⟨r, hr⟩ := hb.found a ha u (Client.mem_claims_self hau)
  have har := hlocal a ha u (Client.mem_claims_self hau) r hr
  have hid : ∀ c ∈ cs, X.parseUuid c.id = some u → c.id = a.id := fun c hc hcu =>
    hd c hc a ha u (Client.mem_claims_self hcu) (Client.mem_claims_self hau)
  obtain ⟨u', hu', horigin⟩ := hb.origin a.id r har
  obtain rfl := Option.some.inj (hau.symm.trans hu')
  have hsame : ∀ r', owner old u = some r' → r' = r := by
    intro r' hr'
    rcases horigin with h | ⟨h, -⟩
    · exact Option.some.inj (hr'.symm.trans h)
    · rw [h] at hr'
      cases hr'
  refine ⟨r, hr, hsame, ?_, ?_⟩
  · rintro c hc hcu ⟨v, m⟩ hv
    have hvc : v ∈ c.claims X := by
      rw [Client.claims_eq_map]
      exact List.mem_map.mpr ⟨(v, m), hv, rfl⟩
    obtain ⟨r', hr'⟩ := hb.found c hc v hvc
    have hlr := hlocal c hc v hvc r' hr'
    rw [hid c hc hcu, har] at hlr
    obtain rfl := Option.some.inj hlr
    obtain ⟨⟨q, m'⟩, hlookup, rfl⟩ := Option.map_eq_some_iff.mp hr'
    obtain ⟨d, hdm, hmode⟩ := hentry v _ hlookup
    rw [hlookup, Client.mode_eq_of_nodup hnodup hc hdm hv hmode]
  · constructor
    · intro halone c hc v hv hvu r' hur hvr
      obtain rfl := hsame r' hur
      obtain ⟨q, hq⟩ := hb.found c hc v (Client.mem_claims_self hv)
      obtain ⟨v', hv', horig⟩ := hb.origin c.id q (hlocal c hc v (Client.mem_claims_self hv) q hq)
      obtain rfl := Option.some.inj (hv.symm.trans hv')
      have hqr : q = r' := by
        rcases horig with h | ⟨h, -⟩
        · exact Option.some.inj (h.symm.trans hvr)
        · rw [h] at hvr
          cases hvr
      subst hqr
      exact halone c hc (by simpa [hv] using hvu) v (Client.mem_claims_self hv) hq
    · intro hunshared c hc hcu v hv hvr
      obtain ⟨w, hw, horig⟩ := hb.origin c.id r (hlocal c hc v hv r hvr)
      have hwu : w ≠ u := fun h => hcu (h ▸ hw)
      rcases horigin with ho | ⟨-, hle, d, -, hdid, hdheap⟩
      · rcases horig with hw' | ⟨-, hle, -⟩
        · exact hunshared c hc w hw hwu r ho hw'
        · have := hold u r ho
          omega
      · rcases horig with hw' | ⟨-, -, d', -, hdid', hdheap'⟩
        · have := hold w r hw'
          omega
        · -- both are new: an object carries the identifier of the client that it was made for
          have hids : d.id = d'.id := congrArg UserStats.id (hdheap.symm.trans hdheap')
          rw [hdid, hdid'] at hids
          exact hcu (hids ▸ hau)

/-- The references of the user map are to objects that exist, and a client is followed only while the
configuration contains it. -/
structure Ledger.Sound (X : Crates) (u : Uuid) (L : Ledger) : Prop where
  bound : ∀ v r, owner L.engine.users v = some r → r < L.engine.nextRef
  contains : L.object ≠ none → L.engine.config.Contains X u

theorem EngineState.updateConfig_of_accepts {s : EngineState} {cfg : Config}
    {runtimes : AList fun _ : Uuid => RealityRuntime}
    (hmode : cfg.network.ipv4Only = s.config.network.ipv4Only) (hr : buildAllRuntimes X cfg = .ok runtimes) :
    s.updateConfig X cfg = .ok (s.install X cfg runtimes) := by
  simp [updateConfig, refuseIf, hmode, hr]
  rfl

theorem UserStats.counters_eq {a b : UserStats} (h : a.snapshot = b.snapshot) : a.counters = b.counters := by
  unfold UserStats.snapshot at h
  unfold UserStats.counters
  simp only [UserSnapshot.mk.injEq] at h
  rw [h.1, h.2.2.1, h.2.2.2]

/-- The object that an account is followed by leads from its UUID. -/
theorem Ledger.Holds.owner {L : Ledger} (hs : L.Sound X u) (h : L.Holds X u) {r : ℕ} {k : Counters}
    (hobject : L.object = some (r, k)) : RXCore.owner L.engine.users u = some r := by
  obtain ⟨-, c, hc, hcu⟩ := hs.contains (by simp [hobject])
  have hentry : (u, ClientRouteMode.smart) ∈ c.entries X := by simp [Client.entries, hcu]
  simp [RXCore.owner, (h r k hobject).2.1 c hc hcu _ hentry]

/-- The maps after a start and after an update that is accepted: every client has its object, and nobody
shares it exactly when nobody shared its UUID before. -/
theorem Ledger.follow_holds {L : Ledger} (hs : L.Sound X u) (h : L.Holds X u) (cfg : Config)
    (runtimes : AList fun _ : Uuid => RealityRuntime) (hc : cfg.Contains X u) :
    Ledger.Holds X u ⟨L.engine.install X cfg runtimes,
        Ledger.follow X u L.object (L.engine.install X cfg runtimes)⟩ ↔
      RXCore.Unshared X u cfg.clients L.engine.users := by
  have hb := install_built (X := X) hs.bound cfg
  obtain ⟨hnodup, a, ha, hau⟩ := hc
  have hentry : ∀ v e, (L.engine.install X cfg runtimes).users.lookup v = some e →
      ∃ c ∈ cfg.clients, (v, e.2) ∈ c.entries X := by
    intro v e he
    rcases buildUserMaps_entry he with h' | h'
    · exact h'
    · exact nomatch h'
  obtain ⟨r, hr, hsame, hleads, hiff⟩ := hb.object hnodup hentry hs.bound ha hau
  have hobject : Ledger.follow X u L.object (L.engine.install X cfg runtimes) =
      some (r, ((L.engine.install X cfg runtimes).heap r).counters) := by
    have hnew : (L.engine.install X cfg runtimes).objectOf u =
        some (r, ((L.engine.install X cfg runtimes).heap r).counters) := by
      rw [EngineState.objectOf]
      exact congrArg _ hr
    rw [follow, if_pos ⟨hnodup, a, ha, hau⟩, hnew]
    cases hold : L.object with
    | none => rfl
    | some p =>
      obtain ⟨r', k⟩ := p
      have how := h.owner hs hold
      obtain rfl := hsame r' how
      -- a counter that an update finds is the one that it leaves
      have hkept := UserStats.counters_eq (hb.kept r' (hs.bound u r' how)).2
      rw [Option.some_or, ← (h r' k hold).1, ← hkept]
      rfl
  rw [← hiff]
  constructor
  · intro hholds
    exact (hholds r _ hobject).2.2
  · intro halone r' k hrk
    rw [hobject] at hrk
    obtain ⟨rfl, rfl⟩ := Prod.mk.inj (Option.some.inj hrk)
    exact ⟨rfl, hleads, halone⟩

theorem accountStep_sound {L L' : Ledger} {a : AccountAct} (hs : L.Sound X u)
    (h : accountStep X u L a = some L') : L'.Sound X u := by
  cases a with
  | update cfg =>
    simp only [accountStep] at h
    split at h
    · next engine hok =>
      obtain rfl := Option.some.inj h
      obtain ⟨runtimes, -, rfl⟩ := EngineState.updateConfig_ok hok
      have hb := install_built (X := X) hs.bound cfg
      refine ⟨fun v r hv => ?_, fun hne => ?_⟩
      · obtain ⟨c, -, -, hlocal⟩ := hb.owned v r hv
        exact hb.bound c.id r hlocal
      · by_contra hcontra
        exact hne (if_neg hcontra)
    · obtain rfl := Option.some.inj h
      exact hs
  | traffic r f =>
    obtain rfl := Option.some.inj h
    refine ⟨hs.bound, fun hne => hs.contains fun hnone => hne ?_⟩
    simp [hnone]

theorem accountStep_holds_iff {L L' : Ledger} {a : AccountAct} (hs : L.Sound X u) (hp : L.Holds X u)
    (h : accountStep X u L a = some L') : L'.Holds X u ↔ L.Unshared X u a := by
  cases a with
  | update cfg =>
    simp only [accountStep] at h
    split at h
    · next engine hok =>
      obtain rfl := Option.some.inj h
      have hmode := EngineState.updateConfig_mode hok
      obtain ⟨runtimes, hr, rfl⟩ := EngineState.updateConfig_ok hok
      by_cases hc : cfg.Contains X u
      · rw [Ledger.follow_holds hs hp cfg runtimes hc]
        exact ⟨fun h _ _ _ => h, fun h => h hc hmode ⟨runtimes, hr⟩⟩
      · refine ⟨fun _ hc' => absurd hc' hc, fun _ r k hrk => ?_⟩
        have hnone : Ledger.follow X u L.object (L.engine.install X cfg runtimes) = none := if_neg hc
        exact absurd (hnone.symm.trans hrk) (by simp)
    · next e hbad =>
      obtain rfl := Option.some.inj h
      refine ⟨fun _ _ hmode ⟨runtimes, hr⟩ => ?_, fun _ => hp⟩
      rw [EngineState.updateConfig_of_accepts hmode hr] at hbad
      cases hbad
  | traffic r f =>
    obtain rfl := Option.some.inj h
    refine ⟨fun _ => trivial, fun _ q k hqk => ?_⟩
    obtain ⟨⟨q', k'⟩, hold, hqk⟩ := Option.map_eq_some_iff.mp hqk
    obtain ⟨hk, hleads, halone⟩ := hp q' k' hold
    by_cases hq : q' = r
    · subst hq
      simp only [if_true] at hqk
      obtain ⟨rfl, rfl⟩ := Prod.mk.inj hqk
      refine ⟨?_, hleads, halone⟩
      simp [EngineState.modifyUser, UserStats.withCounters, UserStats.counters, ← hk]
    · simp only [if_neg hq] at hqk
      obtain ⟨rfl, rfl⟩ := Prod.mk.inj hqk
      refine ⟨?_, hleads, halone⟩
      simp [EngineState.modifyUser, Function.update_of_ne hq, hk]

theorem start_sound (g : Draws) (config : Config) : (Ledger.start X u g config).Sound X u := by
  refine ⟨new_bound g config, fun hne => ?_⟩
  by_contra hcontra
  exact hne (if_neg hcontra)

theorem start_holds (g : Draws) (config : Config) : (Ledger.start X u g config).Holds X u := by
  intro r k hrk
  have hc : (EngineState.new X g config).config.Contains X u := by
    by_contra hcontra
    have hnone : (Ledger.start X u g config).object = none := if_neg hcontra
    rw [hnone] at hrk
    cases hrk
  obtain ⟨a, ha, hau⟩ := hc.2
  have hentry : ∀ v e, (EngineState.new X g config).users.lookup v = some e →
      ∃ c ∈ (config.migrateIfNeeded X g).clients, (v, e.2) ∈ c.entries X := by
    intro v e he
    rcases buildUserMaps_entry he with h' | h'
    · exact h'
    · exact nomatch h'
  have hnone : ∀ v r, owner ∅ v = some r → r < 0 := fun _ _ h => nomatch h
  obtain ⟨q, hq, -, hleads, hiff⟩ := (new_built X g config).object hc.1 hentry hnone ha hau
  have hobject : (Ledger.start X u g config).object =
      some (q, ((EngineState.new X g config).heap q).counters) := by
    have hnew : (EngineState.new X g config).objectOf u =
        some (q, ((EngineState.new X g config).heap q).counters) := by
      rw [EngineState.objectOf]
      exact congrArg _ hq
    exact (if_pos hc).trans hnew
  rw [hobject] at hrk
  obtain ⟨rfl, rfl⟩ := Prod.mk.inj (Option.some.inj hrk)
  exact ⟨rfl, hleads, hiff.mpr fun c _ v _ _ r h => nomatch h⟩

/-- **A client keeps its object**, with its counters and with no company, in exactly the runs whose updates
make no UUID that leads to it the identifier of another client. -/
theorem keepsObject_iff (X : Crates) (u : Uuid) (g : Draws) (config : Config) (as : List AccountAct) :
    Run.Always (accountStep X u) (Ledger.Holds X u) (.start X u g config) as ↔
      Run.Meets (accountStep X u) (Ledger.Unshared X u) (.start X u g config) as :=
  Run.always_iff_meets (fun _ _ _ hs _ _ h => accountStep_sound hs h)
    (fun _ _ _ hs hp h => accountStep_holds_iff hs hp h) (start_sound g config) (start_holds g config) as

end

/-! ## An alias that changes hands -/

/-- A client with its identifier and an alias for browsing. -/
def clientWith (id : String) (browsing lowLatency : String) : Client where
  id := id
  email := none
  limitIp := none
  totalGb := none
  expiryTime := none
  speedLimit := none
  remainingGb := none
  rx := none
  tx := none
  realityProfileId := none
  inboundTag := none
  browsingWarpId := some browsing
  lowLatencyId := some lowLatency
  subTokenHash := none
  sni := none

/-- The built-in configuration with other clients. -/
def withClients (cs : List Client) : Config :=
  { builtInConfig with inbounds := builtInConfig.inbounds.map fun i => { i with settings := ⟨some cs⟩ } }

/-- A UUID of one byte, sixteen times. -/
def uniformUuid (b : UInt8) : Uuid := Vector.replicate 16 b

def uniformId (c : Char) : String := String.ofList (List.replicate 32 c)

/-- One client. -/
def oneAccount : Config := withClients [clientWith (uniformId 'a') (uniformId 'b') (uniformId 'c')]

/-- The client has another alias, and its former one is the identifier of a new client. -/
def aliasMoved : Config :=
  withClients [clientWith (uniformId 'a') (uniformId 'd') (uniformId 'c'),
    clientWith (uniformId 'b') (uniformId 'e') (uniformId 'f')]

def accountDraws : Draws := ⟨fun _ => uniformUuid 0, 0⟩

def movedLedger : Ledger :=
  (Run.exec (accountStep Sample.crates (uniformUuid 0xaa))
    (.start Sample.crates (uniformUuid 0xaa) accountDraws oneAccount)
    [.update aliasMoved]).get (by decide)

/-- **An alias that becomes the identifier of another client** leads that client to the object of the first. -/
theorem alias_reused :
    ¬ Run.Always (accountStep Sample.crates (uniformUuid 0xaa)) (Ledger.Holds Sample.crates (uniformUuid 0xaa))
      (.start Sample.crates (uniformUuid 0xaa) accountDraws oneAccount) [.update aliasMoved] := by
  intro h
  have hholds := h.last (t := movedLedger) (Option.some_get _).symm
  have hobject : movedLedger.object = some (0, ⟨0, 0, -1⟩) := by decide
  have hother : owner movedLedger.engine.users (uniformUuid 0xbb) = some 0 := by decide
  obtain ⟨-, -, halone⟩ := hholds 0 _ hobject
  refine halone (clientWith (uniformId 'b') (uniformId 'e') (uniformId 'f')) ?_ ?_ (uniformUuid 0xbb) ?_ hother
  · decide
  · decide
  · decide

end RXCore
