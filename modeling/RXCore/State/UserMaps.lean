import RXCore.State.Stats
import RXCore.Lib.Tables

/-!
# The user maps

An `Arc<UserStats>` is an index into a heap of `UserStats`, and the map of users leads from UUIDs to
such references. `EngineState::new` and `update_config` build it with the same loop over the clients;
they differ in the map of users that was there before and in the e-mail under which statistics are kept.

* `addClient`, `buildUserMaps`: the loop;
* `Client.claims`: the UUIDs a client takes part in the map with; `Distinct`: different accounts claim
  different UUIDs;
* `owner`: the reference under a UUID;
* `Built`, **`buildUserMaps_built`**: what the loop has done; `buildUserMaps_entry`: the modes.
-/

set_option autoImplicit false

namespace RXCore

open Encoding

/-- The `UserStats` that exist, by reference. -/
abbrev Heap := ℕ → UserStats

/-- The map from client identifiers to statistics and mode. -/
abbrev UserMap := AList fun _ : Uuid => ℕ × ClientRouteMode

/-- The maps under construction, with the statistics already resolved for an identifier. -/
structure UserMaps where
  heap : Heap
  nextRef : ℕ
  users : UserMap
  stats : AList fun _ : String => ℕ
  subTokens : AList fun _ : Key => ℕ
  localStats : AList fun _ : String => ℕ

def UserMaps.start (heap : Heap) (nextRef : ℕ) : UserMaps := ⟨heap, nextRef, ∅, ∅, ∅, ∅⟩

/-- The statistics of a client: those resolved before under its identifier, those of the old map under
its UUID, refreshed, or new ones. -/
def UserMaps.resolve (old : UserMap) (b : UserMaps) (c : Client) (uuid : Uuid) : ℕ × UserMaps :=
  match b.localStats.lookup c.id with
  | some r => (r, b)
  | none => match old.lookup uuid with
    | some (r, _) => (r, { b with
        heap := Function.update b.heap r ((b.heap r).refresh c)
        localStats := b.localStats.insert c.id r })
    | none => (b.nextRef, { b with
        heap := Function.update b.heap b.nextRef (UserStats.ofClient c)
        nextRef := b.nextRef + 1
        localStats := b.localStats.insert c.id b.nextRef })

/-- The entry of an alias, if there is one and it is a UUID. -/
def insertAlias (X : Crates) (users : UserMap) (aliasId : Option String) (r : ℕ)
    (mode : ClientRouteMode) : UserMap :=
  match aliasId.bind X.parseUuid with
  | some u => users.insert u (r, mode)
  | none => users

/-- A stored token hash as a key of the map: 32 bytes in hexadecimal. -/
def tokenKey (hash : Option String) : Option Key := do
  let h ← hash
  let bs ← (hexDecode (utf8 h)).toOption
  toKey bs

/-- The three entries of a client in the user map. -/
def insertEntries (X : Crates) (users : UserMap) (c : Client) (uuid : Uuid) (r : ℕ) : UserMap :=
  insertAlias X (insertAlias X (users.insert uuid (r, .smart)) c.browsingWarpId r .browsingWarp)
    c.lowLatencyId r .lowLatencyDirect

/-- One client. `emailOf` says under which e-mail its statistics are kept. -/
def addClient (X : Crates) (emailOf : Client → UserStats → Option String) (old : UserMap)
    (b : UserMaps) (c : Client) : UserMaps :=
  match X.parseUuid c.id with
  | none => b
  | some uuid =>
    let (r, b) := b.resolve old c uuid
    { b with
      users := insertEntries X b.users c uuid r
      stats := match emailOf c (b.heap r) with
        | some email => b.stats.insert email r
        | none => b.stats
      subTokens := match tokenKey c.subTokenHash with
        | some key => b.subTokens.insert key r
        | none => b.subTokens }

/-- All clients of a configuration, in order. -/
def buildUserMaps (X : Crates) (emailOf : Client → UserStats → Option String) (old : UserMap)
    (b : UserMaps) (cs : List Client) : UserMaps :=
  cs.foldl (addClient X emailOf old) b

/-! ## What the loop does -/

/-- The reference under a UUID. -/
def owner (users : UserMap) (u : Uuid) : Option ℕ := (users.lookup u).map Prod.fst

/-- The UUIDs under which a client is entered. -/
def Client.claims (X : Crates) (c : Client) : List Uuid :=
  match X.parseUuid c.id with
  | none => []
  | some u => u :: ((c.browsingWarpId.bind X.parseUuid).toList ++
      (c.lowLatencyId.bind X.parseUuid).toList)

/-- The UUIDs under which a client is entered, with their modes. -/
def Client.entries (X : Crates) (c : Client) : List (Uuid × ClientRouteMode) :=
  match X.parseUuid c.id with
  | none => []
  | some u => (u, .smart) :: ((c.browsingWarpId.bind X.parseUuid).toList.map (·, .browsingWarp) ++
      (c.lowLatencyId.bind X.parseUuid).toList.map (·, .lowLatencyDirect))

/-- Clients with different identifiers claim different UUIDs. -/
def Distinct (X : Crates) (cs : List Client) : Prop :=
  ∀ c ∈ cs, ∀ d ∈ cs, ∀ u ∈ c.claims X, u ∈ d.claims X → c.id = d.id

theorem Client.mem_claims_self {X : Crates} {c : Client} {u : Uuid} (h : X.parseUuid c.id = some u) :
    u ∈ c.claims X := by
  rw [claims, h]
  exact List.mem_cons_self

theorem Client.claims_eq_map (X : Crates) (c : Client) : c.claims X = (c.entries X).map Prod.fst := by
  unfold claims entries
  cases X.parseUuid c.id with
  | none => rfl
  | some u => simp [Function.comp_def]

/-- UUIDs that are all different belong to different clients. -/
theorem Distinct.of_nodup {X : Crates} {cs : List Client} (h : (cs.flatMap (Client.claims X)).Nodup) :
    Distinct X cs := by
  induction cs with
  | nil => exact fun c hc => absurd hc List.not_mem_nil
  | cons a cs ih =>
    rw [List.flatMap_cons, List.nodup_append'] at h
    obtain ⟨-, hcs, hdisj⟩ := h
    have hhead : ∀ d ∈ cs, ∀ u ∈ a.claims X, u ∉ d.claims X := fun d hd u hu hud =>
      hdisj hu (List.mem_flatMap.mpr ⟨d, hd, hud⟩)
    intro c hc d hd u hu hud
    rcases List.mem_cons.mp hc with rfl | hc' <;> rcases List.mem_cons.mp hd with rfl | hd'
    · rfl
    · exact absurd hud (hhead d hd' u hu)
    · exact absurd hu (hhead c hc' u hud)
    · exact ih hcs c hc' d hd' u hu hud

/-- UUIDs that are all different have one mode each. -/
theorem Client.mode_eq_of_nodup {X : Crates} {cs : List Client} (h : (cs.flatMap (Client.claims X)).Nodup)
    {c d : Client} (hc : c ∈ cs) (hd : d ∈ cs) {u : Uuid} {m m' : ClientRouteMode}
    (hm : (u, m) ∈ c.entries X) (hm' : (u, m') ∈ d.entries X) : m = m' := by
  have hmap : (cs.flatMap (Client.entries X)).map Prod.fst = cs.flatMap (Client.claims X) := by
    rw [List.map_flatMap]
    exact List.flatMap_congr fun c _ => (c.claims_eq_map X).symm
  rw [← hmap] at h
  exact (Prod.mk.inj (List.inj_on_of_nodup_map h (List.mem_flatMap.mpr ⟨c, hc, hm⟩)
    (List.mem_flatMap.mpr ⟨d, hd, hm'⟩) rfl)).2

/-- A migration adds only UUIDs that it draws. -/
theorem Client.MigratesTo.claims {X : Crates} {g : Draws} {c c' : Client} (h : c.MigratesTo X g c')
    {u : Uuid} (hu : u ∈ c'.claims X) :
    u ∈ c.claims X ∨ ∃ n, X.parseUuid (X.uuidToString (g.uuid n)) = some u := by
  obtain ⟨b, l, rfl, hb, hl⟩ := h.cases
  rw [Client.claims] at hu ⊢
  dsimp only at hu
  cases hp : X.parseUuid c.id with
  | none =>
    rw [hp] at hu
    exact absurd hu List.not_mem_nil
  | some v =>
    rw [hp] at hu
    simp only [List.mem_cons, List.mem_append, Option.mem_toList, Option.bind_some] at hu ⊢
    rcases hu with hu | hu | hu
    · exact .inl (.inl hu)
    · rcases hb with hb | ⟨n, rfl⟩
      · rw [hb]
        exact .inl (.inr (.inl hu))
      · exact .inr ⟨n, hu⟩
    · rcases hl with hl | ⟨n, rfl⟩
      · rw [hl]
        exact .inl (.inr (.inr hu))
      · exact .inr ⟨n, hu⟩

theorem owner_insert (users : UserMap) (u v : Uuid) (e : ℕ × ClientRouteMode) :
    owner (users.insert v e) u = if v = u then some e.1 else owner users u := by
  rw [owner, owner]
  split_ifs with h
  · rw [h, AList.lookup_insert, Option.map_some]
  · rw [AList.lookup_insert_ne (Ne.symm h)]

theorem owner_insertAlias (X : Crates) (users : UserMap) (aliasId : Option String) (r : ℕ)
    (mode : ClientRouteMode) (u : Uuid) :
    owner (insertAlias X users aliasId r mode) u =
      if u ∈ (aliasId.bind X.parseUuid).toList then some r else owner users u := by
  rw [insertAlias]
  cases aliasId.bind X.parseUuid with
  | none => simp only [Option.toList_none, List.not_mem_nil, if_false]
  | some v => simp only [owner_insert, Option.toList_some, List.mem_singleton, eq_comm]

theorem owner_insertEntries {X : Crates} {c : Client} {uuid : Uuid} (h : X.parseUuid c.id = some uuid)
    (users : UserMap) (r : ℕ) (u : Uuid) :
    owner (insertEntries X users c uuid r) u = if u ∈ c.claims X then some r else owner users u := by
  rw [insertEntries, owner_insertAlias, owner_insertAlias, owner_insert, Client.claims, h]
  simp only [List.mem_cons, List.mem_append, eq_comm (a := uuid)]
  split_ifs <;> tauto

theorem insertAlias_cases {X : Crates} {users : UserMap} {aliasId : Option String} {r : ℕ}
    {mode : ClientRouteMode} {u : Uuid} {e : ℕ × ClientRouteMode}
    (h : (insertAlias X users aliasId r mode).lookup u = some e) :
    (aliasId.bind X.parseUuid = some u ∧ e = (r, mode)) ∨ users.lookup u = some e := by
  unfold insertAlias at h
  split at h
  · next v hv =>
    rcases Tables.lookup_insert_cases h with ⟨rfl, rfl⟩ | ⟨-, h⟩
    · exact .inl ⟨hv, rfl⟩
    · exact .inr h
  · exact .inr h

/-- An entry of the map has the mode of the client that made it, or was there before. -/
theorem insertEntries_cases {X : Crates} {c : Client} {uuid : Uuid} (hu : X.parseUuid c.id = some uuid)
    {users : UserMap} {r : ℕ} {u : Uuid} {e : ℕ × ClientRouteMode}
    (h : (insertEntries X users c uuid r).lookup u = some e) :
    (u, e.2) ∈ c.entries X ∨ users.lookup u = some e := by
  rw [Client.entries, hu]
  rcases insertAlias_cases h with ⟨hl, rfl⟩ | h
  · simp [hl]
  · rcases insertAlias_cases h with ⟨hb, rfl⟩ | h
    · simp [hb]
    · rcases Tables.lookup_insert_cases h with ⟨rfl, rfl⟩ | ⟨-, h⟩
      · simp
      · exact .inr h

/-- The statistics resolved so far: those of the old map, which keep their counters, or new ones. -/
structure Resolved (X : Crates) (old : UserMap) (heap : Heap) (next : ℕ) (cs : List Client)
    (b : UserMaps) : Prop where
  origin : ∀ id r, b.localStats.lookup id = some r → ∃ u, X.parseUuid id = some u ∧
    (owner old u = some r ∨
      owner old u = none ∧ next ≤ r ∧ ∃ c ∈ cs, c.id = id ∧ b.heap r = .ofClient c)
  bound : ∀ id r, b.localStats.lookup id = some r → r < b.nextRef
  kept : ∀ r < next, (b.heap r).id = (heap r).id ∧ (b.heap r).snapshot = (heap r).snapshot
  le : next ≤ b.nextRef

/-- The maps built from the clients `cs`. -/
structure Built (X : Crates) (old : UserMap) (heap : Heap) (next : ℕ) (cs : List Client)
    (b : UserMaps) : Prop extends Resolved X old heap next cs b where
  owned : ∀ u r, owner b.users u = some r →
    ∃ c ∈ cs, u ∈ c.claims X ∧ b.localStats.lookup c.id = some r
  found : ∀ c ∈ cs, ∀ u ∈ c.claims X, ∃ r, owner b.users u = some r

section

variable {X : Crates} {old : UserMap} {heap : Heap} {next : ℕ}

theorem built_start : Built X old heap next [] (.start heap next) where
  origin _ _ h := nomatch h
  bound _ _ h := nomatch h
  kept _ _ := ⟨rfl, rfl⟩
  le := le_rfl
  owned _ _ h := nomatch h
  found _ hc := absurd hc List.not_mem_nil

variable (old) in
theorem UserMaps.resolve_users (b : UserMaps) (c : Client) (uuid : Uuid) :
    (b.resolve old c uuid).2.users = b.users := by
  rw [resolve]
  split
  · rfl
  · split <;> rfl

variable (old) in
theorem UserMaps.resolve_self (b : UserMaps) (c : Client) (uuid : Uuid) :
    (b.resolve old c uuid).2.localStats.lookup c.id = some (b.resolve old c uuid).1 := by
  rw [resolve]
  split
  · next r hr => exact hr
  · split
    · exact AList.lookup_insert _
    · exact AList.lookup_insert _

/-- What is resolved stays resolved. -/
theorem UserMaps.resolve_mono {b : UserMaps} (c : Client) (uuid : Uuid) {id : String} {r : ℕ}
    (h : b.localStats.lookup id = some r) :
    (b.resolve old c uuid).2.localStats.lookup id = some r := by
  rw [resolve]
  split
  · exact h
  · next hnone =>
    have hne : id ≠ c.id := by
      rintro rfl
      exact Option.some_ne_none r (h.symm.trans hnone)
    split
    · exact (AList.lookup_insert_ne hne).trans h
    · exact (AList.lookup_insert_ne hne).trans h

/-- A client for which an old or a new reference is filed. -/
theorem Resolved.insert {cs : List Client} {b b' : UserMaps} (hb : Resolved X old heap next cs b) {c : Client}
    {uuid : Uuid} {r : ℕ} (hu : X.parseUuid c.id = some uuid) (hstats : b'.localStats = b.localStats.insert c.id r)
    (hr : owner old uuid = some r ∨ owner old uuid = none ∧ next ≤ r ∧ b'.heap r = .ofClient c)
    (hlt : r < b'.nextRef) (hle : b.nextRef ≤ b'.nextRef)
    (hheap : ∀ r', next ≤ r' → r' < b.nextRef → b'.heap r' = b.heap r')
    (hkept : ∀ r' < next, (b'.heap r').id = (heap r').id ∧ (b'.heap r').snapshot = (heap r').snapshot) :
    Resolved X old heap next (cs ++ [c]) b' := by
  refine ⟨fun id r' h => ?_, fun id r' h => ?_, hkept, hb.le.trans hle⟩
  all_goals
    rw [hstats] at h
    by_cases hid : id = c.id
  · subst hid
    rw [AList.lookup_insert] at h
    obtain rfl := Option.some.inj h
    refine ⟨uuid, hu, hr.imp_right fun ⟨hnone, hnext, hnew⟩ => ?_⟩
    exact ⟨hnone, hnext, c, List.mem_append_right _ List.mem_cons_self, rfl, hnew⟩
  · rw [AList.lookup_insert_ne hid] at h
    obtain ⟨u, hpu, h' | ⟨hnone, hnext, d, hd, hdid, hfresh⟩⟩ := hb.origin id r' h
    · exact ⟨u, hpu, .inl h'⟩
    · refine ⟨u, hpu, .inr ⟨hnone, hnext, d, List.mem_append_left _ hd, hdid, ?_⟩⟩
      rw [hheap r' hnext (hb.bound id r' h), hfresh]
  · subst hid
    rw [AList.lookup_insert] at h
    obtain rfl := Option.some.inj h
    exact hlt
  · rw [AList.lookup_insert_ne hid] at h
    exact lt_of_lt_of_le (hb.bound id r' h) hle

theorem Resolved.resolve {cs : List Client} {b : UserMaps} (hb : Resolved X old heap next cs b)
    (hold : ∀ u r, owner old u = some r → r < next) {c : Client} {uuid : Uuid}
    (hu : X.parseUuid c.id = some uuid) :
    Resolved X old heap next (cs ++ [c]) (b.resolve old c uuid).2 := by
  have hbase := hb.le
  rw [UserMaps.resolve]
  split
  · -- resolved before
    refine ⟨fun id r h => ?_, hb.bound, hb.kept, hb.le⟩
    obtain ⟨u, hpu, h | ⟨hnone, hle, d, hd, h⟩⟩ := hb.origin id r h
    · exact ⟨u, hpu, .inl h⟩
    · exact ⟨u, hpu, .inr ⟨hnone, hle, d, List.mem_append_left _ hd, h⟩⟩
  · split
    · next r mode hr =>
      -- in the old map: an old reference, whose counters the refresh keeps
      have hr : owner old uuid = some r := by rw [owner, hr]; rfl
      have hlt := hold uuid r hr
      refine hb.insert hu rfl (.inl hr) (lt_of_lt_of_le hlt hb.le) le_rfl (fun r' hle _ => ?_) fun r' h => ?_
      · exact Function.update_of_ne (by omega) _ _
      · by_cases hrr : r' = r
        · subst hrr
          simp only [Function.update_self]
          exact hb.kept r' h
        · simp only [Function.update_of_ne hrr]
          exact hb.kept r' h
    · next hr =>
      -- a new account: a reference that nothing has used
      have hr : owner old uuid = none := by rw [owner, hr]; rfl
      refine hb.insert hu rfl (.inr ⟨hr, hb.le, Function.update_self ..⟩) (Nat.lt_succ_self _) (Nat.le_succ _)
        (fun r' _ hlt => ?_) fun r' h => ?_
      · exact Function.update_of_ne (by omega) _ _
      · have hlt := lt_of_lt_of_le h hb.le
        simp only [Function.update_of_ne (ne_of_lt hlt)]
        exact hb.kept r' h

variable {emailOf : Client → UserStats → Option String}

/-- Accounts that exist keep their identifiers and counters. -/
theorem UserMaps.resolve_kept (b : UserMaps) (c : Client) (uuid : Uuid) :
    b.nextRef ≤ (b.resolve old c uuid).2.nextRef ∧ ∀ r < b.nextRef,
      ((b.resolve old c uuid).2.heap r).id = (b.heap r).id ∧
        ((b.resolve old c uuid).2.heap r).snapshot = (b.heap r).snapshot := by
  unfold resolve
  split
  · exact ⟨le_rfl, fun r hr => ⟨rfl, rfl⟩⟩
  · split
    · next r' _ _ =>
      refine ⟨le_rfl, fun r hr => ?_⟩
      by_cases hrr : r = r'
      · subst hrr
        simp [UserStats.refresh, UserStats.snapshot]
      · simp [Function.update_of_ne hrr]
    · refine ⟨Nat.le_succ _, fun r hr => ?_⟩
      simp [Function.update_of_ne (ne_of_lt hr)]

theorem buildUserMaps_kept (b : UserMaps) (cs : List Client) :
    b.nextRef ≤ (buildUserMaps X emailOf old b cs).nextRef ∧ ∀ r < b.nextRef,
      ((buildUserMaps X emailOf old b cs).heap r).id = (b.heap r).id ∧
        ((buildUserMaps X emailOf old b cs).heap r).snapshot = (b.heap r).snapshot := by
  induction cs generalizing b with
  | nil => exact ⟨le_rfl, fun r hr => ⟨rfl, rfl⟩⟩
  | cons c cs ih =>
    have hone : b.nextRef ≤ (RXCore.addClient X emailOf old b c).nextRef ∧ ∀ r < b.nextRef,
        ((RXCore.addClient X emailOf old b c).heap r).id = (b.heap r).id ∧
          ((RXCore.addClient X emailOf old b c).heap r).snapshot = (b.heap r).snapshot := by
      unfold RXCore.addClient
      split
      · exact ⟨le_rfl, fun r hr => ⟨rfl, rfl⟩⟩
      · exact b.resolve_kept c _
    obtain ⟨hle, hkept⟩ := ih (RXCore.addClient X emailOf old b c)
    refine ⟨hone.1.trans hle, fun r hr => ?_⟩
    obtain ⟨hid, hsnap⟩ := hkept r (lt_of_lt_of_le hr hone.1)
    exact ⟨hid.trans (hone.2 r hr).1, hsnap.trans (hone.2 r hr).2⟩

/-- One client more. -/
theorem Built.addClient {cs : List Client} {b : UserMaps} (hb : Built X old heap next cs b)
    (hold : ∀ u r, owner old u = some r → r < next) (c : Client) :
    Built X old heap next (cs ++ [c]) (addClient X emailOf old b c) := by
  have hmem : ∀ d ∈ cs, d ∈ cs ++ [c] := fun d hd => List.mem_append_left _ hd
  have hlast : c ∈ cs ++ [c] := List.mem_append_right _ List.mem_cons_self
  cases hu : X.parseUuid c.id with
  | none =>
    have hclaims : c.claims X = [] := by rw [Client.claims, hu]
    rw [RXCore.addClient, hu]
    refine ⟨⟨fun id r h => ?_, hb.bound, hb.kept, hb.le⟩, fun u r h => ?_, fun d hd u hdu => ?_⟩
    · obtain ⟨u, hpu, h | ⟨hnone, hle, d, hd, h⟩⟩ := hb.origin id r h
      · exact ⟨u, hpu, .inl h⟩
      · exact ⟨u, hpu, .inr ⟨hnone, hle, d, hmem d hd, h⟩⟩
    · obtain ⟨d, hd, h⟩ := hb.owned u r h
      exact ⟨d, hmem d hd, h⟩
    · rcases List.mem_append.mp hd with hd | hd
      · exact hb.found d hd u hdu
      · obtain rfl := List.mem_singleton.mp hd
        exact absurd (hclaims ▸ hdu) List.not_mem_nil
  | some uuid =>
    have hres := hb.toResolved.resolve hold hu
    have husers := b.resolve_users old c uuid
    have hself := b.resolve_self old c uuid
    have hmono : ∀ id r, b.localStats.lookup id = some r →
        (b.resolve old c uuid).2.localStats.lookup id = some r :=
      fun _ _ h => UserMaps.resolve_mono c uuid h
    rw [RXCore.addClient, hu]
    dsimp only
    generalize b.resolve old c uuid = p at hres husers hself hmono
    refine ⟨⟨hres.origin, hres.bound, hres.kept, hres.le⟩, fun u r h => ?_, fun d hd u hdu => ?_⟩
    · dsimp only at h ⊢
      rw [husers, owner_insertEntries hu] at h
      split_ifs at h with hc
      · obtain rfl := Option.some.inj h
        exact ⟨c, hlast, hc, hself⟩
      · obtain ⟨d, hd, hdu, hlocal⟩ := hb.owned u r h
        exact ⟨d, hmem d hd, hdu, hmono _ _ hlocal⟩
    · dsimp only
      rw [husers, owner_insertEntries hu]
      split_ifs with hc
      · exact ⟨_, rfl⟩
      · rcases List.mem_append.mp hd with hd | hd
        · exact hb.found d hd u hdu
        · obtain rfl := List.mem_singleton.mp hd
          exact absurd hdu hc

/-- **An entry of the map has the mode of a client.** -/
theorem buildUserMaps_entry {b : UserMaps} {cs : List Client} {u : Uuid} {e : ℕ × ClientRouteMode}
    (h : (buildUserMaps X emailOf old b cs).users.lookup u = some e) :
    (∃ c ∈ cs, (u, e.2) ∈ c.entries X) ∨ b.users.lookup u = some e := by
  induction cs generalizing b with
  | nil => exact .inr h
  | cons c cs ih =>
    rcases ih h with ⟨d, hd, hmode⟩ | h
    · exact .inl ⟨d, List.mem_cons_of_mem _ hd, hmode⟩
    · unfold RXCore.addClient at h
      split at h
      · exact .inr h
      · next uuid hu =>
        dsimp only at h
        rcases insertEntries_cases hu h with hmode | h
        · exact .inl ⟨c, List.mem_cons_self, hmode⟩
        · rw [b.resolve_users old c uuid] at h
          exact .inr h

/-- **What the loop over the clients has done.** -/
theorem buildUserMaps_built (hold : ∀ u r, owner old u = some r → r < next) (cs : List Client) :
    Built X old heap next cs (buildUserMaps X emailOf old (.start heap next) cs) := by
  have hgen : ∀ (cs done : List Client) (b : UserMaps), Built X old heap next done b →
      Built X old heap next (done ++ cs) (buildUserMaps X emailOf old b cs) := by
    intro cs
    induction cs with
    | nil =>
      intro done b hb
      rw [List.append_nil]
      exact hb
    | cons c cs ih =>
      intro done b hb
      rw [List.append_cons]
      exact ih _ _ (hb.addClient hold c)
  exact hgen cs [] _ built_start

end

end RXCore
