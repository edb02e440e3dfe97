import RXCore.State.Accounts

/-!
# The accounts after an update and after a restart

`update_config` builds the maps of accounts by merging with what was there, `EngineState::new` builds them
from scratch. Both loops meet the clients in the same order and keep one account for an identifier.

* `Config.Migrated`, `migrateIfNeeded_of_migrated`: a second migration changes nothing;
* `UserStats.settings`: an account without its counters;
* `AccountsMatch`: the accounts of two engines correspond, and all maps lead to accounts that do;
* `Paired`: the loops of an update and of a restart, client by client;
* **`install_accountsMatch`**: the accounts match if every client finds itself in the map before the update,
  and clients with one identifier have one e-mail.
-/

set_option autoImplicit false

namespace RXCore

open Tables

/-! ## Migrated configurations -/

/-- What `migrate_if_needed` leaves. -/
def Config.Migrated (X : Crates) (c : Config) : Prop := ∃ g c', c = Config.migrateIfNeeded X g c'

section

variable {X : Crates}

theorem migrateSets_of_version (g : Draws) (n : ℕ) {c : Config} (h : c.routingSchemaVersion ≠ 0) :
    migrateSets g n c = (c, n) := if_neg h

theorem migrateSets_frame (g : Draws) (n : ℕ) (c : Config) :
    (migrateSets g n c).1.routingSchemaVersion ≠ 0 ∧
      (migrateSets g n c).1.realityProfiles = c.realityProfiles := by
  by_cases h : c.routingSchemaVersion = 0
  · unfold migrateSets
    rw [if_pos h]
    split_ifs <;> exact ⟨Nat.one_ne_zero, rfl⟩
  · rw [migrateSets_of_version g n h]
    exact ⟨h, rfl⟩

/-- Migrated inbounds have the Reality settings that they had. -/
theorem profilesOfInbounds_migrateInbounds (g g' : Draws) (m n : ℕ) (is : List InboundConfig) :
    profilesOfInbounds X g m is = [] → profilesOfInbounds X g' m (migrateInbounds X g n is) = [] := by
  induction is generalizing n with
  | nil => exact fun _ => rfl
  | cons i is ih =>
    intro h
    rw [profilesOfInbounds] at h
    cases hi : i.reality with
    | some rs => simp [hi] at h
    | none =>
      simp only [hi] at h
      rw [migrateInbounds]
      cases hcs : i.settings.clients with
      | none => simpa [profilesOfInbounds, hi] using ih n h
      | some cs =>
        have hsame : ({ i with settings := ⟨some (migrateClients X g n cs).1⟩ } : InboundConfig).reality = none := by
          simpa [InboundConfig.reality] using hi
        simpa [profilesOfInbounds, hsame] using ih _ h

theorem migrateIfNeeded_migrated (g : Draws) (c : Config) :
    ∀ x ∈ (c.migrateIfNeeded X g).clients, x.Migrated := by
  intro x hx
  obtain ⟨y, -, hy⟩ := mem_migrateIfNeeded.2 x hx
  obtain ⟨b, l, rfl, -⟩ := hy.cases
  exact ⟨by simp, by simp⟩

/-- **A second migration changes nothing.** -/
theorem migrateIfNeeded_of_migrated {c : Config} (h : c.Migrated X) (g : Draws) :
    c.migrateIfNeeded X g = c := by
  obtain ⟨g', c', rfl⟩ := h
  have hversion : (c'.migrateIfNeeded X g').routingSchemaVersion ≠ 0 := by
    unfold Config.migrateIfNeeded
    exact (migrateSets_frame g' _ _).1
  have hinbounds := migrateIfNeeded_inbounds (X := X) (g := g) (migrateIfNeeded_migrated (X := X) g' c')
  have hprofiles : (c'.migrateIfNeeded X g').realityProfiles = [] →
      profilesOfInbounds X g 0 (c'.migrateIfNeeded X g').inbounds = [] := by
    unfold Config.migrateIfNeeded
    dsimp only
    rw [(migrateSets_frame g' _ _).2, migrateSets_inbounds]
    split_ifs with hempty
    · exact profilesOfInbounds_migrateInbounds g' g 0 _ _
    · exact fun h => absurd h hempty
  generalize c'.migrateIfNeeded X g' = c at *
  unfold Config.migrateIfNeeded at hinbounds ⊢
  dsimp only at hinbounds ⊢
  split_ifs at hinbounds ⊢ with hempty
  · rw [migrateSets_of_version g _ (by simpa using hversion)] at hinbounds ⊢
    dsimp only at hinbounds ⊢
    rw [hinbounds, hprofiles hempty, ← hempty]
  · rw [migrateSets_of_version g _ hversion] at hinbounds ⊢
    dsimp only at hinbounds ⊢
    rw [hinbounds]

end

/-! ## Accounts that match -/

/-- An account without what traffic and quotas change. -/
def UserStats.settings (u : UserStats) : UserStats :=
  { u with remainingBytes := 0, totalGb := 0, rx := 0, tx := 0 }

/-- The accounts of two engines correspond one to one, with the same settings, and with the same counters
where an account is not retained; under every key there are accounts that correspond, or none. -/
structure AccountsMatch (s t : EngineState) (Retained : ℕ → Prop) (P : ℕ → ℕ → Prop) : Prop where
  oneToOne : ∀ r r' q q', P r r' → P q q' → (r = q ↔ r' = q')
  settings : ∀ r r', P r r' → (s.heap r).settings = (t.heap r').settings
  fresh : ∀ r r', P r r' → ¬ Retained r → s.heap r = t.heap r'
  users : Related (fun e e' => P e.1 e'.1 ∧ e.2 = e'.2) s.users t.users
  stats : Related P s.stats t.stats
  subTokens : Related P s.subTokens t.subTokens

/-- Accounts that match have the same speed limits. -/
theorem AccountsMatch.getUserSpeedLimit {s t : EngineState} {Retained : ℕ → Prop} {P : ℕ → ℕ → Prop}
    (h : AccountsMatch s t Retained P) (u : Uuid) : s.getUserSpeedLimit u = t.getUserSpeedLimit u := by
  unfold EngineState.getUserSpeedLimit
  cases hs : s.users.lookup u with
  | none => rw [h.users.lookup_none hs]
  | some e =>
    obtain ⟨e', ht, hP, -⟩ := h.users.lookup_some hs
    have hlimit := congrArg UserStats.speedLimit (h.settings _ _ hP)
    simp only [ht]
    simp only [UserStats.settings] at hlimit
    rw [hlimit]

/-! ## The two loops -/

/-- The accounts that two loops have resolved for one identifier. -/
def Pairs (b b' : UserMaps) (r r' : ℕ) : Prop :=
  ∃ id, b.localStats.lookup id = some r ∧ b'.localStats.lookup id = some r'

/-- The loops of an update and of a restart have resolved the same identifiers, for accounts with these
identifiers, the same settings, and the e-mail of all clients with the identifier. -/
structure Paired (next : ℕ) (cs : List Client) (b b' : UserMaps) : Prop where
  locals : Related (fun r r' => (b.heap r).settings = (b'.heap r').settings ∧
    (next ≤ r → b.heap r = b'.heap r')) b.localStats b'.localStats
  named : ∀ id r, b.localStats.lookup id = some r → r < b.nextRef ∧ (b.heap r).id = id ∧
    ∀ d ∈ cs, d.id = id → (b.heap r).email = d.email
  bound : ∀ id r, b'.localStats.lookup id = some r → r < b'.nextRef
  le : next ≤ b.nextRef

/-- The maps that the loops have built lead to accounts that correspond. -/
structure Alike (b b' : UserMaps) : Prop where
  users : Related (fun e e' => Pairs b b' e.1 e'.1 ∧ e.2 = e'.2) b.users b'.users
  stats : Related (Pairs b b') b.stats b'.stats
  subTokens : Related (Pairs b b') b.subTokens b'.subTokens

section

variable {X : Crates} {next : ℕ} {cs : List Client} {b b' : UserMaps}

theorem Alike.mono (h : Alike b b') {d d' : UserMaps} (hP : ∀ r r', Pairs b b' r r' → Pairs d d' r r')
    (husers : d.users = b.users) (husers' : d'.users = b'.users) (hstats : d.stats = b.stats)
    (hstats' : d'.stats = b'.stats) (htokens : d.subTokens = b.subTokens)
    (htokens' : d'.subTokens = b'.subTokens) : Alike d d' := by
  refine ⟨?_, ?_, ?_⟩
  · rw [husers, husers']
    exact h.users.mono fun e e' he => ⟨hP _ _ he.1, he.2⟩
  · rw [hstats, hstats']
    exact h.stats.mono hP
  · rw [htokens, htokens']
    exact h.subTokens.mono hP

/-- One identifier more: an account of the update that no other identifier has, and a new one of the
restart. -/
theorem Paired.extend (h : Paired next cs b b') {c : Client} {r n : ℕ} {u : UserStats}
    (hn : b.nextRef ≤ n) (hr : r < n) (hid : u.id = c.id)
    (hemail : ∀ d ∈ cs, d.id = c.id → u.email = d.email)
    (hsettings : u.settings = (UserStats.ofClient c).settings) (hnew : next ≤ r → u = .ofClient c)
    (hother : ∀ id q, b.localStats.lookup id = some q → q ≠ r) :
    Paired next cs
      { b with heap := Function.update b.heap r u, nextRef := n, localStats := b.localStats.insert c.id r }
      { b' with
        heap := Function.update b'.heap b'.nextRef (.ofClient c)
        nextRef := b'.nextRef + 1
        localStats := b'.localStats.insert c.id b'.nextRef } := by
  refine ⟨fun id => ?_, fun id q hq => ?_, fun id q hq => ?_, h.le.trans hn⟩
  · by_cases hc : id = c.id
    · subst hc
      simp only [AList.lookup_insert]
      refine .some ⟨?_, fun hle => ?_⟩
      · simpa using hsettings
      · simpa using hnew hle
    · simp only [AList.lookup_insert_ne hc]
      cases hl : b.localStats.lookup id with
      | none =>
        rw [h.locals.lookup_none hl]
        exact .none
      | some q =>
        obtain ⟨q', hq', hset, hfresh⟩ := h.locals.lookup_some hl
        rw [hq']
        have hne := hother id q hl
        have hne' : q' ≠ b'.nextRef := ne_of_lt (h.bound id q' hq')
        refine .some ⟨?_, fun hle => ?_⟩
        · simpa [Function.update_of_ne hne, Function.update_of_ne hne'] using hset
        · simpa [Function.update_of_ne hne, Function.update_of_ne hne'] using hfresh hle
  · rcases lookup_insert_cases hq with ⟨rfl, rfl⟩ | ⟨-, hq⟩
    · refine ⟨hr, ?_, fun d hd hdid => ?_⟩
      · simpa using hid
      · simpa using hemail d hd hdid
    · obtain ⟨hlt, hqid, hqemail⟩ := h.named id q hq
      simp only [Function.update_of_ne (hother id q hq)]
      exact ⟨by omega, hqid, hqemail⟩
  · rcases lookup_insert_cases hq with ⟨-, rfl⟩ | ⟨-, hq⟩
    · exact Nat.lt_succ_self _
    · exact Nat.lt_succ_of_lt (h.bound id q hq)

theorem Paired.resolve {old : UserMap} {heap : Heap} (h : Paired next cs b b')
    (hold : ∀ u r, owner old u = some r → r < next) (hkept : ∀ r < next, (b.heap r).id = (heap r).id)
    {c : Client} {uuid : Uuid} (hown : ∀ r, owner old uuid = some r → (heap r).id = c.id)
    (hemail : ∀ d ∈ cs, d.id = c.id → c.email = d.email) :
    Paired next cs (b.resolve old c uuid).2 (b'.resolve ∅ c uuid).2 := by
  unfold UserMaps.resolve
  cases hl : b.localStats.lookup c.id with
  | some r =>
    obtain ⟨r', hl', -⟩ := h.locals.lookup_some hl
    simp only [hl']
    exact h
  | none =>
    have hl' := h.locals.lookup_none hl
    have hempty : (∅ : UserMap).lookup uuid = none := rfl
    simp only [hl', hempty]
    cases ho : old.lookup uuid with
    | some e =>
      have howner : owner old uuid = some e.1 := by simp [owner, ho]
      have hlt := hold uuid e.1 howner
      have hid : (b.heap e.1).id = c.id := (hkept e.1 hlt).trans (hown e.1 howner)
      have hle := h.le
      refine h.extend (r := e.1) (n := b.nextRef) le_rfl (by omega) ?_ ?_ ?_ ?_ ?_
      · simpa [UserStats.refresh] using hid
      · simpa [UserStats.refresh] using hemail
      · simp [UserStats.refresh, UserStats.settings, UserStats.ofClient, hid]
      · intro hnext
        omega
      · rintro id q hq rfl
        obtain ⟨-, hqid, -⟩ := h.named id e.1 hq
        rw [← hqid, hid, hl] at hq
        cases hq
    | none =>
      refine h.extend (r := b.nextRef) (n := b.nextRef + 1) (Nat.le_succ _) (Nat.lt_succ_self _) rfl hemail
        rfl (fun _ => rfl) ?_
      intro id q hq
      exact ne_of_lt (h.named id q hq).1

theorem UserMaps.resolve_tables (old : UserMap) (b : UserMaps) (c : Client) (uuid : Uuid) :
    (b.resolve old c uuid).2.stats = b.stats ∧ (b.resolve old c uuid).2.subTokens = b.subTokens := by
  unfold resolve
  split
  · exact ⟨rfl, rfl⟩
  · split <;> exact ⟨rfl, rfl⟩

theorem related_insertAlias {P : ℕ × ClientRouteMode → ℕ × ClientRouteMode → Prop} {users users' : UserMap}
    (h : Related P users users') (aliasId : Option String) {r r' : ℕ} {mode : ClientRouteMode}
    (hP : P (r, mode) (r', mode)) :
    Related P (insertAlias X users aliasId r mode) (insertAlias X users' aliasId r' mode) := by
  unfold insertAlias
  cases aliasId.bind X.parseUuid with
  | none => exact h
  | some u => exact h.insert u hP

/-- One client in both loops. -/
theorem Paired.addClient {old : UserMap} {heap : Heap} (h : Paired next cs b b') (ha : Alike b b')
    (hold : ∀ u r, owner old u = some r → r < next) (hkept : ∀ r < next, (b.heap r).id = (heap r).id)
    {c : Client} (hc : c ∈ cs)
    (hown : ∀ u r, X.parseUuid c.id = some u → owner old u = some r → (heap r).id = c.id)
    (hemail : ∀ u, X.parseUuid c.id = some u → ∀ d ∈ cs, d.id = c.id → c.email = d.email) :
    Paired next cs (addClient X (fun _ u => u.email) old b c) (addClient X (fun c _ => c.email) ∅ b' c) ∧
      Alike (addClient X (fun _ u => u.email) old b c) (addClient X (fun c _ => c.email) ∅ b' c) := by
  unfold RXCore.addClient
  cases hu : X.parseUuid c.id with
  | none => exact ⟨h, ha⟩
  | some uuid =>
    have hres := h.resolve hold hkept (fun r => hown uuid r hu) (hemail uuid hu)
    have hself := b.resolve_self old c uuid
    have hself' := b'.resolve_self ∅ c uuid
    have halike : Alike (b.resolve old c uuid).2 (b'.resolve ∅ c uuid).2 :=
      ha.mono (fun r r' ⟨id, hr, hr'⟩ => ⟨id, UserMaps.resolve_mono c uuid hr, UserMaps.resolve_mono c uuid hr'⟩)
        (b.resolve_users old c uuid) (b'.resolve_users ∅ c uuid) (b.resolve_tables old c uuid).1
        (b'.resolve_tables ∅ c uuid).1 (b.resolve_tables old c uuid).2 (b'.resolve_tables ∅ c uuid).2
    dsimp only
    generalize b.resolve old c uuid = p at hres hself halike
    generalize b'.resolve ∅ c uuid = p' at hres hself' halike
    obtain ⟨r, d⟩ := p
    obtain ⟨r', d'⟩ := p'
    dsimp only at hres hself hself' halike ⊢
    have hpair : Pairs d d' r r' := ⟨c.id, hself, hself'⟩
    -- the statistics are kept under the same e-mail
    have hsame : (d.heap r).email = c.email := (hres.named c.id r hself).2.2 c hc rfl
    refine ⟨⟨hres.locals, hres.named, hres.bound, hres.le⟩, ⟨?_, ?_, ?_⟩⟩
    · have hself := halike.users.insert (v := (r, .smart)) (w := (r', .smart)) uuid ⟨hpair, rfl⟩
      exact related_insertAlias (related_insertAlias hself _ ⟨hpair, rfl⟩) _ ⟨hpair, rfl⟩
    · dsimp only
      rw [hsame]
      cases c.email with
      | none => exact halike.stats
      | some email => exact halike.stats.insert email hpair
    · dsimp only
      cases tokenKey c.subTokenHash with
      | none => exact halike.subTokens
      | some key => exact halike.subTokens.insert key hpair

theorem addClient_kept (emailOf : Client → UserStats → Option String) (old : UserMap) (b : UserMaps) (c : Client) :
    ∀ r < b.nextRef, ((addClient X emailOf old b c).heap r).id = (b.heap r).id := by
  intro r hr
  unfold RXCore.addClient
  cases X.parseUuid c.id with
  | none => rfl
  | some uuid => exact ((b.resolve_kept c uuid).2 r hr).1

/-- All clients in both loops. -/
theorem buildUserMaps_paired {old : UserMap} {heap : Heap}
    (hold : ∀ u r, owner old u = some r → r < next)
    (hown : ∀ c ∈ cs, ∀ u r, X.parseUuid c.id = some u → owner old u = some r → (heap r).id = c.id)
    (hemail : ∀ c ∈ cs, ∀ u, X.parseUuid c.id = some u → ∀ d ∈ cs, d.id = c.id → c.email = d.email) {todo : List Client}
    (htodo : ∀ c ∈ todo, c ∈ cs) (hkept : ∀ r < next, (b.heap r).id = (heap r).id)
    (h : Paired next cs b b') (ha : Alike b b') :
    Paired next cs (buildUserMaps X (fun _ u => u.email) old b todo)
        (buildUserMaps X (fun c _ => c.email) ∅ b' todo) ∧
      Alike (buildUserMaps X (fun _ u => u.email) old b todo)
        (buildUserMaps X (fun c _ => c.email) ∅ b' todo) := by
  induction todo generalizing b b' with
  | nil => exact ⟨h, ha⟩
  | cons c todo ih =>
    have hc := htodo c List.mem_cons_self
    obtain ⟨hp, halike⟩ := h.addClient ha hold hkept hc (hown c hc) (hemail c hc)
    refine ih (fun d hd => htodo d (List.mem_cons_of_mem _ hd)) (fun r hr => ?_) hp halike
    rw [addClient_kept _ old b c r (lt_of_lt_of_le hr h.le)]
    exact hkept r hr

end

/-- What an update needs to find: under the UUID of a client there is its own account or none, and clients
with one identifier have one e-mail. -/
structure EngineState.Knows (X : Crates) (s : EngineState) (cs : List Client) : Prop where
  own : ∀ c ∈ cs, ∀ u r, X.parseUuid c.id = some u → owner s.users u = some r → (s.heap r).id = c.id
  email : ∀ c ∈ cs, ∀ u, X.parseUuid c.id = some u → ∀ d ∈ cs, d.id = c.id → c.email = d.email

/-- **After an update the accounts are those of a restart**, the counters of retained accounts apart. -/
theorem install_accountsMatch {X : Crates} {s : EngineState} {cfg : Config}
    (hbound : ∀ u r, owner s.users u = some r → r < s.nextRef) (hm : cfg.Migrated X)
    (hk : s.Knows X cfg.clients) (runtimes : AList fun _ : Uuid => RealityRuntime) (g : Draws) :
    ∃ P, AccountsMatch (s.install X cfg runtimes) (.new X g cfg) (· < s.nextRef) P := by
  have hstart : Paired s.nextRef cfg.clients (.start s.heap s.nextRef)
      (.start (fun _ => .ofClient EngineState.new.defaultClient) 0) :=
    ⟨related_empty, fun _ _ h => (nomatch h), fun _ _ h => (nomatch h), le_rfl⟩
  have hempty : Alike (.start s.heap s.nextRef)
      (.start (fun _ => .ofClient EngineState.new.defaultClient) 0) :=
    ⟨related_empty, related_empty, related_empty⟩
  obtain ⟨hp, halike⟩ := buildUserMaps_paired hbound hk.own hk.email (fun _ hc => hc) (fun _ _ => rfl) hstart hempty
  have hnew : EngineState.new X g cfg = { EngineState.new X g cfg with
      heap := (EngineState.new.build X cfg).heap
      users := (EngineState.new.build X cfg).users
      stats := (EngineState.new.build X cfg).stats
      subTokens := (EngineState.new.build X cfg).subTokens } := by
    simp only [EngineState.new, migrateIfNeeded_of_migrated hm g]
  rw [hnew]
  refine ⟨_, ⟨?_, fun r r' hr => ?_, fun r r' hr hlt => ?_, halike.users, halike.stats, halike.subTokens⟩⟩
  · rintro r r' q q' ⟨id, hr, hr'⟩ ⟨id', hq, hq'⟩
    have hid := (hp.named id r hr).2.1
    have hid' := (hp.named id' q hq).2.1
    obtain ⟨w, hw, hset, -⟩ := hp.locals.lookup_some hr
    obtain ⟨w', hw', hset', -⟩ := hp.locals.lookup_some hq
    obtain rfl := Option.some.inj (hw.symm.trans hr')
    obtain rfl := Option.some.inj (hw'.symm.trans hq')
    constructor
    · rintro rfl
      rw [hid] at hid'
      subst hid'
      exact Option.some.inj (hr'.symm.trans hq')
    · rintro rfl
      have hids := congrArg UserStats.id (hset.trans hset'.symm)
      simp only [UserStats.settings] at hids
      rw [hid, hid'] at hids
      subst hids
      exact Option.some.inj (hr.symm.trans hq)
  · obtain ⟨id, hr, hr'⟩ := hr
    obtain ⟨w, hw, hset, -⟩ := hp.locals.lookup_some hr
    obtain rfl := Option.some.inj (hw.symm.trans hr')
    exact hset
  · obtain ⟨id, hr, hr'⟩ := hr
    obtain ⟨w, hw, -, hfresh⟩ := hp.locals.lookup_some hr
    obtain rfl := Option.some.inj (hw.symm.trans hr')
    exact hfresh (not_lt.mp hlt)

end RXCore
