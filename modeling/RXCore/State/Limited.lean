import RXCore.State.Persist
import RXCore.Api
import RXCore.Lib.Run

/-!
# Limited accounts stay limited

The counter `remainingBytes` of one account under every operation that touches it, in any order and
number. `-1` means that the account has no limit.

* `QuotaAct`, `quotaStep`: the operations;
* `QuotaAct.newRemaining`: what an operation makes of the counter;
* `Tracked`: the account has one `UserStats`, which every map entry and lookup by its identifier leads to;
  **`quotaStep_tracked`**: the engine's counter follows `newRemaining`;
* `QuotaAct.Safe`: the operation does not land on `-1`;
* **`limited_iff_safe`**: a run never makes the account unlimited if and only if all its steps are safe.
-/

set_option autoImplicit false

namespace RXCore

variable {X : Crates}

/-- An account, by its identifier in the configuration. -/
structure Account (X : Crates) where
  id : String
  uuid : Uuid
  parse : X.parseUuid id = some uuid

/-- The configuration has the account, and nobody else claims its UUID. Its quota there is of no
importance, since `update_config` keeps the counters of an account. -/
def Account.KeptBy (A : Account X) (cfg : Config) : Prop :=
  (∃ c ∈ cfg.clients, c.id = A.id) ∧ ∀ c ∈ cfg.clients, A.uuid ∈ c.claims X → c.id = A.id

/-- The operations. The `UserStats` of the caller is a reference; byte counts are below `2 ^ 53`. -/
inductive QuotaAct (A : Account X) where
  | reserveQuota (user requested : ℕ) (h : requested < 2 ^ 53)
  | reserveUdpDatagram (user datagramLen : ℕ) (h : datagramLen < 2 ^ 53)
  | record (d : Direction) (connId : Uuid) (bytes : ℕ) (user : Option ℕ) (h : bytes < 2 ^ 53)
  | addQuota (id : String) (amountGb : ℚ)
  | updateConfig (cfg : Config) (h : A.KeptBy cfg)
  /-- The configuration is persisted and the engine starts from it; no identifier drawn for another
  client is the account's. -/
  | restart (g : Draws) (h : ∀ n, X.parseUuid (X.uuidToString (g.uuid n)) ≠ some A.uuid)

/-- One operation. -/
def quotaStep {A : Account X} (s : EngineState) : QuotaAct A → Option EngineState
  | .reserveQuota user requested _ => some (s.modifyUser user fun u =>
      { u with remainingBytes := (reserveQuota u.remainingBytes requested).2 })
  | .reserveUdpDatagram user datagramLen _ => some (s.modifyUser user fun u =>
      { u with remainingBytes := (reserveUdpDatagram u.remainingBytes datagramLen).2 })
  | .record d connId bytes user _ => some (s.recordBytes d connId bytes user)
  | .addQuota id amountGb => some (addQuota s id amountGb).1
  | .updateConfig cfg _ => match s.updateConfig X cfg with
    | .ok s' => some s'
    | .error _ => some s
  | .restart g _ => some (.new X g (PersistRequest.mk s.persistGen s.config s.userSnapshots).merged)

/-- The remaining bytes of the account. -/
def Account.remaining (A : Account X) (s : EngineState) : Option ℤ :=
  (owner s.users A.uuid).map fun r => (s.heap r).remainingBytes

/-! ## The counter alone -/

/-- The counter of the account, with reference `r`, after an operation. -/
def QuotaAct.newRemaining {A : Account X} (r : ℕ) (rem : ℤ) : QuotaAct A → ℤ
  | .reserveQuota user requested _ => if user = r then (RXCore.reserveQuota rem requested).2 else rem
  | .reserveUdpDatagram user len _ => if user = r then (RXCore.reserveUdpDatagram rem len).2 else rem
  | .record _ _ bytes user _ =>
    if user = some r ∧ rem ≠ -1 then asI64 (rem - asI64 bytes) else rem
  | .addQuota id amountGb =>
    if id = A.id then
      if rem = -1 ∨ rem ≤ 0 then ratAsI64 (amountGb * gigabyte)
      else asI64 (rem + ratAsI64 (amountGb * gigabyte))
    else rem
  | .updateConfig _ _ => rem
  | .restart _ _ => gbToBytes (bytesToGb rem)

/-- The operation does not land on `-1`: what is recorded is not one byte more than what remains, what
is added does not make `-1` with what remains of the quota, and a restart finds the quota not
overdrawn. -/
def QuotaAct.SafeAt {A : Account X} (r : ℕ) (rem : ℤ) : QuotaAct A → Prop
  | .record _ _ bytes user _ => user = some r → rem + 1 ≠ bytes
  | .addQuota id amountGb => id = A.id → max rem 0 + ratAsI64 (amountGb * gigabyte) ≠ -1
  | .restart _ _ => 0 ≤ rem
  | _ => True

/-- What an `AtomicI64` can hold. -/
def InI64 (n : ℤ) : Prop := i64Min ≤ n ∧ n ≤ i64Max

theorem reserveUdpDatagram_cases (current : ℤ) {len : ℕ} (hlen : len < 2 ^ 53) (hc : InI64 current) :
    (reserveUdpDatagram current len).2 = current ∨
      (len : ℤ) ≤ current ∧ (reserveUdpDatagram current len).2 = current - len := by
  have hl : asI64 len = len := asI64_natCast (by omega)
  rw [reserveUdpDatagram, Cas.alone, reserveUdpDatagramTurn, hl]
  split_ifs with h1 h2
  · exact .inl rfl
  · exact .inl rfl
  · have hmax : i64Max = 2 ^ 63 - 1 := rfl
    have h := hc.2
    exact .inr ⟨by omega, asI64_of_range (by omega) (by omega)⟩

theorem gbToBytes_bytesToGb {n : ℤ} (h : n ≠ -1) (hn : InI64 n) :
    gbToBytes (bytesToGb n) = if 0 ≤ n then n else -1 := by
  have hg : (gigabyte : ℚ) ≠ 0 := by decide
  have hpos : (0 : ℚ) < gigabyte := by decide
  rw [bytesToGb, if_neg h, gbToBytes]
  have hiff : (0 : ℚ) ≤ n / gigabyte ↔ 0 ≤ n := by
    rw [le_div_iff₀ hpos, zero_mul]
    exact Int.cast_nonneg_iff
  split_ifs with h1 h2
  · rw [div_mul_cancel₀ _ hg]
    exact ratAsI64_intCast hn.1 hn.2
  · exact absurd (hiff.mp h1) h2
  · next h2 => exact absurd (hiff.mpr h2) h1
  · rfl

/-- **The operations that leave a limited counter limited.** -/
theorem newRemaining_ne_iff {A : Account X} (a : QuotaAct A) (r : ℕ) {rem : ℤ} (h : rem ≠ -1)
    (hr : InI64 rem) : a.newRemaining r rem ≠ -1 ↔ a.SafeAt r rem := by
  have hmin : i64Min = -2 ^ 63 := rfl
  have hmax : i64Max = 2 ^ 63 - 1 := rfl
  obtain ⟨hr1, hr2⟩ := id hr
  cases a with
  | reserveQuota user requested hb =>
    refine iff_of_true ?_ trivial
    rw [QuotaAct.newRemaining]
    split_ifs
    · exact reserveQuota_ne h requested
    · exact h
  | reserveUdpDatagram user len hb =>
    refine iff_of_true ?_ trivial
    rw [QuotaAct.newRemaining]
    split_ifs
    · rcases reserveUdpDatagram_cases rem hb hr with hu | ⟨hle, hu⟩ <;> rw [hu] <;> omega
    · exact h
  | record d connId bytes user hb =>
    rw [QuotaAct.newRemaining, QuotaAct.SafeAt]
    by_cases hu : user = some r
    · rw [if_pos ⟨hu, h⟩, asI64_natCast (by omega), ne_eq, asI64_eq_neg_one (by omega) (by omega)]
      constructor
      · intro hne _ heq
        omega
      · intro hne heq
        exact hne hu (by omega)
    · rw [if_neg fun hc => hu hc.1]
      exact iff_of_true h fun hc => absurd hc hu
  | addQuota id amountGb =>
    obtain ⟨ha1, ha2⟩ := ratAsI64_range (amountGb * gigabyte)
    rw [QuotaAct.newRemaining, QuotaAct.SafeAt]
    by_cases hid : id = A.id
    · rw [if_pos hid]
      split_ifs with hle
      · have hle : rem ≤ 0 := hle.resolve_left h
        rw [max_eq_right hle, zero_add]
        exact ⟨fun hne _ => hne, fun hne => hne hid⟩
      · obtain ⟨-, hle⟩ := not_or.mp hle
        rw [max_eq_left (by omega), ne_eq, asI64_eq_neg_one (by omega) (by omega)]
        exact ⟨fun hne _ => hne, fun hne => hne hid⟩
    · rw [if_neg hid]
      exact iff_of_true h fun hc => absurd hc hid
  | updateConfig cfg hk => exact iff_of_true h trivial
  | restart g hg =>
    rw [QuotaAct.newRemaining, QuotaAct.SafeAt, gbToBytes_bytesToGb h hr]
    split_ifs with h0
    · exact iff_of_true h h0
    · exact iff_of_false (fun hc => hc rfl) h0

theorem newRemaining_inI64 {A : Account X} (a : QuotaAct A) (r : ℕ) {rem : ℤ} (hr : InI64 rem) :
    InI64 (a.newRemaining r rem) := by
  have hmin : i64Min = -2 ^ 63 := rfl
  cases a with
  | reserveQuota user requested hb =>
    rw [QuotaAct.newRemaining]
    split_ifs
    · rw [reserveQuota, Cas.alone]
      cases ht : reserveQuotaTurn requested rem with
      | stop n => exact hr
      | swap next n =>
        obtain ⟨-, h0, heq, -⟩ := reserveQuotaTurn_swap ht
        have := hr.2
        change InI64 next
        exact ⟨by omega, by omega⟩
    · exact hr
  | reserveUdpDatagram user len hb =>
    rw [QuotaAct.newRemaining]
    split_ifs
    · rcases reserveUdpDatagram_cases rem hb hr with hu | ⟨hle, hu⟩
      · rw [hu]
        exact hr
      · have := hr.2
        rw [hu]
        exact ⟨by omega, by omega⟩
    · exact hr
  | record d connId bytes user hb =>
    rw [QuotaAct.newRemaining]
    split_ifs
    · exact asI64_range _
    · exact hr
  | addQuota id amountGb =>
    rw [QuotaAct.newRemaining]
    split_ifs
    · exact ratAsI64_range _
    · exact asI64_range _
    · exact hr
  | updateConfig cfg hk => exact hr
  | restart g hg =>
    rw [QuotaAct.newRemaining]
    by_cases h : rem = -1
    · rw [h, bytesToGb, if_pos rfl]
      exact ⟨by decide, by decide⟩
    · rw [gbToBytes_bytesToGb h hr]
      split_ifs
      · exact hr
      · exact ⟨by decide, by decide⟩

/-! ## The engine's counter follows it -/

/-- The account has the `UserStats` at `r` and no other. -/
structure Tracked (A : Account X) (s : EngineState) (r : ℕ) : Prop where
  here : owner s.users A.uuid = some r
  id_eq : (s.heap r).id = A.id
  only : ∀ u r', owner s.users u = some r' → (s.heap r').id = A.id → r' = r
  bound : ∀ u r', owner s.users u = some r' → r' < s.nextRef
  kept : A.KeptBy s.config

theorem Tracked.remaining {A : Account X} {s : EngineState} {r : ℕ} (h : Tracked A s r) :
    A.remaining s = some (s.heap r).remainingBytes := by
  rw [Account.remaining, h.here, Option.map_some]

/-- A change of the heap that keeps the identifiers. -/
theorem Tracked.of_heap {A : Account X} {s s' : EngineState} {r : ℕ} (h : Tracked A s r)
    (husers : s'.users = s.users) (hconfig : s'.config = s.config) (hnext : s'.nextRef = s.nextRef)
    (hid : ∀ r', (s'.heap r').id = (s.heap r').id) : Tracked A s' r := by
  refine ⟨by rw [husers]; exact h.here, (hid r).trans h.id_eq, fun u r' hu hr' => ?_, fun u r' hu => ?_,
    by rw [hconfig]; exact h.kept⟩
  · exact h.only u r' (husers ▸ hu) ((hid r').symm.trans hr')
  · rw [hnext]
    exact h.bound u r' (husers ▸ hu)

theorem Tracked.modifyUser {A : Account X} {s : EngineState} {r : ℕ} (h : Tracked A s r) (user : ℕ)
    {f : UserStats → UserStats} (hf : ∀ u, (f u).id = u.id) : Tracked A (s.modifyUser user f) r :=
  h.of_heap rfl rfl rfl (s.modifyUser_id user hf)

/-- A new map, over an old one that leads only to the account's `UserStats` or to none. -/
theorem Built.tracked {A : Account X} {s : EngineState} {old : UserMap} {heap : Heap} {next : ℕ}
    {b : UserMaps} (hb : Built X old heap next s.config.clients b) (hk : A.KeptBy s.config)
    (hold : ∀ u r, owner old u = some r → r < next)
    (hinj : ∀ u r, owner old u = some r → (heap r).id = A.id → owner old A.uuid = some r)
    (hid : ∀ r, owner old A.uuid = some r → (heap r).id = A.id)
    (husers : s.users = b.users) (hheap : s.heap = b.heap) (hnext : s.nextRef = b.nextRef) :
    ∃ r, Tracked A s r ∧ b.localStats.lookup A.id = some r := by
  obtain ⟨⟨c, hc, hcid⟩, halone⟩ := hk
  have hcu : A.uuid ∈ c.claims X := Client.mem_claims_self (by rw [hcid]; exact A.parse)
  obtain ⟨r, hr⟩ := hb.found c hc _ hcu
  obtain ⟨d, hd, hdu, hlocal⟩ := hb.owned _ r hr
  rw [halone d hd hdu] at hlocal
  have hidr : (b.heap r).id = A.id := by
    obtain ⟨u, hu, h | ⟨-, -, e, -, heid, h⟩⟩ := hb.origin A.id r hlocal
    · rw [(hb.kept r (hold u r h)).1]
      obtain rfl := Option.some.inj (A.parse.symm.trans hu)
      exact hid r h
    · rw [h]
      exact heid
  refine ⟨r, ⟨by rw [husers]; exact hr, by rw [hheap]; exact hidr, fun u r' hu hr' => ?_,
    fun u r' hu => ?_, ⟨c, hc, hcid⟩, halone⟩, hlocal⟩
  · -- old statistics of the account are the old ones under its UUID, new ones carry its identifier
    rw [husers] at hu
    rw [hheap] at hr'
    obtain ⟨e, he, -, hlocal'⟩ := hb.owned u r' hu
    obtain ⟨v, hv, h | ⟨-, -, e', -, heid, h⟩⟩ := hb.origin e.id r' hlocal'
    · rw [(hb.kept r' (hold v r' h)).1] at hr'
      have h' := hinj v r' h hr'
      obtain ⟨w, hw, h'' | ⟨hnone, -⟩⟩ := hb.origin A.id r hlocal
      · obtain rfl := Option.some.inj (A.parse.symm.trans hw)
        exact Option.some.inj (h'.symm.trans h'')
      · obtain rfl := Option.some.inj (A.parse.symm.trans hw)
        exact absurd (h'.symm.trans hnone) (Option.some_ne_none r')
    · rw [h] at hr'
      have hee : e.id = A.id := heid.symm.trans hr'
      rw [hee, hlocal] at hlocal'
      exact (Option.some.inj hlocal').symm
  · rw [hnext]
    rw [husers] at hu
    obtain ⟨e, -, -, hlocal'⟩ := hb.owned u r' hu
    exact hb.bound e.id r' hlocal'

/-- A change of the configuration keeps the account's `UserStats` and its counter. -/
theorem Tracked.install {A : Account X} {s : EngineState} {r : ℕ} (h : Tracked A s r) {cfg : Config}
    (hk : A.KeptBy cfg) (runtimes : AList fun _ : Uuid => RealityRuntime) :
    Tracked A (s.install X cfg runtimes) r ∧
      ((s.install X cfg runtimes).heap r).remainingBytes = (s.heap r).remainingBytes := by
  have hb := install_built (X := X) h.bound cfg
  obtain ⟨r', ht, hlocal⟩ := Built.tracked (s := s.install X cfg runtimes) hb hk h.bound
    (fun u r' hu hr' => by rw [h.only u r' hu hr']; exact h.here)
    (fun r' hr' => by rw [← Option.some.inj (h.here.symm.trans hr')]; exact h.id_eq) rfl rfl rfl
  have hrr : r' = r := by
    obtain ⟨u, hu, ho | ⟨hnone, -⟩⟩ := hb.origin A.id r' hlocal
    · obtain rfl := Option.some.inj (A.parse.symm.trans hu)
      exact Option.some.inj (ho.symm.trans h.here)
    · obtain rfl := Option.some.inj (A.parse.symm.trans hu)
      exact absurd (h.here.symm.trans hnone) (Option.some_ne_none r)
  subst hrr
  exact ⟨ht, congrArg UserSnapshot.remainingBytes (hb.kept r' (h.bound _ r' h.here)).2⟩

/-- A start from a configuration in which every entry of the account carries the same quota. -/
theorem tracked_new {A : Account X} {cfg : Config} {g : Draws} (hk : A.KeptBy cfg)
    (hg : ∀ n, X.parseUuid (X.uuidToString (g.uuid n)) ≠ some A.uuid) {gb : Option ℚ}
    (hgb : ∀ c ∈ cfg.clients, c.id = A.id → c.remainingGb = gb) :
    ∃ r, Tracked A (.new X g cfg) r ∧
      ((EngineState.new X g cfg).heap r).remainingBytes = gbToBytes gb := by
  obtain ⟨⟨c, hc, hcid⟩, halone⟩ := hk
  obtain ⟨hfwd, hback⟩ := @mem_migrateIfNeeded X g cfg
  have hk' : A.KeptBy (cfg.migrateIfNeeded X g) := by
    refine ⟨?_, fun e he hu => ?_⟩
    · obtain ⟨c', hc', hm⟩ := hfwd c hc
      obtain ⟨b, l, rfl, -⟩ := hm.cases
      exact ⟨_, hc', hcid⟩
    · obtain ⟨d, hd, hm⟩ := hback e he
      rcases hm.claims hu with hdu | ⟨n, hn⟩
      · obtain ⟨b, l, rfl, -⟩ := hm.cases
        exact halone d hd hdu
      · exact absurd hn (hg n)
  have hnone : ∀ u r, owner ∅ u = some r → r < 0 := fun _ _ h => nomatch h
  have hb := new_built X g cfg
  obtain ⟨r, ht, hlocal⟩ := Built.tracked (s := EngineState.new X g cfg) hb hk' hnone
    (fun _ _ h => nomatch h) (fun _ h => nomatch h) rfl rfl rfl
  refine ⟨r, ht, ?_⟩
  obtain ⟨u, hu, h | ⟨-, -, e, he, heid, h⟩⟩ := hb.origin A.id r hlocal
  · exact nomatch h
  · obtain ⟨d, hd, hm⟩ := hback e he
    obtain ⟨b, l, rfl, -⟩ := hm.cases
    change ((EngineState.new.build X (cfg.migrateIfNeeded X g)).heap r).remainingBytes = _
    rw [h, UserStats.ofClient]
    exact congrArg gbToBytes (hgb d hd heid)

/-- What a request made now asks for keeps the account, with its counter in every entry. -/
theorem Tracked.merged {A : Account X} {s : EngineState} {r : ℕ} (h : Tracked A s r) (gen : ℕ) :
    A.KeptBy (PersistRequest.mk gen s.config s.userSnapshots).merged ∧
      ∀ c ∈ (PersistRequest.mk gen s.config s.userSnapshots).merged.clients, c.id = A.id →
        c.remainingGb = bytesToGb (s.heap r).remainingBytes := by
  obtain ⟨⟨c, hc, hcid⟩, halone⟩ := h.kept
  rw [Account.KeptBy, PersistRequest.merged, Config.clients_mapClients]
  refine ⟨⟨⟨_, List.mem_map_of_mem hc, ?_⟩, fun d hd hu => ?_⟩, fun d hd hid => ?_⟩
  · rw [PersistRequest.mergeClient_id]
    exact hcid
  · obtain ⟨e, he, rfl⟩ := List.mem_map.mp hd
    rw [PersistRequest.mergeClient_claims] at hu
    rw [PersistRequest.mergeClient_id]
    exact halone e he hu
  · obtain ⟨e, he, rfl⟩ := List.mem_map.mp hd
    rw [PersistRequest.mergeClient_id] at hid
    have hsnap : s.userSnapshots.lookup e.id = some (s.heap r).snapshot := by
      rw [hid, ← h.id_eq]
      exact userSnapshots_lookup h.here fun v r' hv hr' => h.only v r' hv (hr'.trans h.id_eq)
    rw [PersistRequest.mergeClient, hsnap]
    rfl

/-- The first entry with the account's identifier is the account's. -/
theorem Tracked.find {A : Account X} {s : EngineState} {r : ℕ} (h : Tracked A s r) (id : String) :
    match s.users.entries.find? fun e => (s.heap e.2.1).id == id with
    | some e => id = A.id ↔ e.2.1 = r
    | none => id ≠ A.id := by
  split
  · next e he =>
    have hid := List.find?_some he
    rw [beq_iff_eq] at hid
    have howner := owner_of_mem_entries (List.mem_of_find?_eq_some he)
    constructor
    · rintro rfl
      exact h.only e.1 e.2.1 howner hid
    · rintro her
      rw [← hid, her]
      exact h.id_eq
  · next hnone =>
    rintro rfl
    obtain ⟨e, he, her⟩ := mem_entries_of_owner h.here
    refine List.find?_eq_none.mp hnone e he (beq_iff_eq.mpr ?_)
    rw [her]
    exact h.id_eq

/-- **The engine follows the counter**: after an operation the account still has one `UserStats`, and
its counter is what `newRemaining` says. -/
theorem quotaStep_tracked {A : Account X} {s s' : EngineState} {r : ℕ} (h : Tracked A s r)
    {a : QuotaAct A} (hs : quotaStep s a = some s') :
    ∃ r', Tracked A s' r' ∧
      (s'.heap r').remainingBytes = a.newRemaining r (s.heap r).remainingBytes := by
  cases a with
  | reserveQuota user requested hb =>
    obtain rfl := Option.some.inj hs
    exact ⟨r, h.modifyUser user fun _ => rfl, s.modifyUser_remaining user _ r⟩
  | reserveUdpDatagram user len hb =>
    obtain rfl := Option.some.inj hs
    exact ⟨r, h.modifyUser user fun _ => rfl, s.modifyUser_remaining user _ r⟩
  | record d connId bytes user hb =>
    obtain rfl := Option.some.inj hs
    cases user with
    | none =>
      refine ⟨r, h.of_heap rfl rfl rfl fun _ => rfl, ?_⟩
      rw [QuotaAct.newRemaining, if_neg fun hc => nomatch hc.1]
      rfl
    | some user =>
      refine ⟨r, (h.modifyUser user fun u => u.record_id d bytes).of_heap rfl rfl rfl fun _ => rfl, ?_⟩
      have hrem := s.modifyUser_remaining user (fun u => u.record d bytes) r
      rw [UserStats.record_remainingBytes] at hrem
      refine hrem.trans ?_
      by_cases hur : user = r
      · subst hur
        rw [QuotaAct.newRemaining, if_pos rfl]
        by_cases hrem : (s.heap user).remainingBytes = -1
        · rw [if_pos hrem, if_neg fun hc => hc.2 hrem, hrem]
        · rw [if_neg hrem, if_pos ⟨rfl, hrem⟩]
      · rw [QuotaAct.newRemaining, if_neg hur, if_neg fun hc => hur (Option.some.inj hc.1)]
  | addQuota id amountGb =>
    obtain rfl := Option.some.inj hs
    have hfind := h.find id
    rw [addQuota, QuotaAct.newRemaining]
    cases he : s.users.entries.find? fun e => (s.heap e.2.1).id == id with
    | some e =>
      rw [he] at hfind
      dsimp only at hfind ⊢
      obtain ⟨hu, hh, hn, hc⟩ := (s.modifyUser e.2.1 (·.addQuota amountGb)).persistConfigToDisk_frame
      have ht : Tracked A (s.modifyUser e.2.1 (·.addQuota amountGb)) r := h.modifyUser _ fun _ => rfl
      refine ⟨r, ht.of_heap hu hc hn fun r' => by rw [hh], ?_⟩
      rw [hh, s.modifyUser_remaining]
      simp only [hfind]
      rfl
    | none =>
      rw [he] at hfind
      rw [if_neg hfind]
      exact ⟨r, h, rfl⟩
  | updateConfig cfg hk =>
    rw [quotaStep] at hs
    split at hs
    · next s'' hok =>
      obtain rfl := Option.some.inj hs
      obtain ⟨runtimes, -, rfl⟩ := EngineState.updateConfig_ok hok
      exact ⟨r, h.install hk runtimes⟩
    · obtain rfl := Option.some.inj hs
      exact ⟨r, h, rfl⟩
  | restart g hg =>
    obtain rfl := Option.some.inj hs
    obtain ⟨hk, hgb⟩ := h.merged s.persistGen
    exact tracked_new hk hg hgb

/-! ## Runs -/

/-- The account is not unlimited. -/
def Account.Limited (A : Account X) (s : EngineState) : Prop := A.remaining s ≠ some (-1)

/-- The operation does not make the account unlimited. -/
def QuotaAct.Safe {A : Account X} (s : EngineState) (a : QuotaAct A) : Prop :=
  ∀ r, owner s.users A.uuid = some r → a.SafeAt r (s.heap r).remainingBytes

/-- **A limited account stays limited in every state of a run if and only if every operation of the
run is safe.** -/
theorem limited_iff_safe {A : Account X} {s : EngineState} {r : ℕ} (h : Tracked A s r)
    (hr : InI64 (s.heap r).remainingBytes) (hlimited : A.Limited s) (as : List (QuotaAct A)) :
    Run.Always quotaStep A.Limited s as ↔ Run.Meets quotaStep QuotaAct.Safe s as := by
  have hstep : ∀ s (a : QuotaAct A) s', (∃ r, Tracked A s r ∧ InI64 (s.heap r).remainingBytes) →
      quotaStep s a = some s' → ∃ r', Tracked A s' r' ∧ InI64 (s'.heap r').remainingBytes := by
    rintro s a s' ⟨r, h, hr⟩ hs
    obtain ⟨r', h', heq⟩ := quotaStep_tracked h hs
    refine ⟨r', h', ?_⟩
    rw [heq]
    exact newRemaining_inI64 a r hr
  refine Run.always_iff_meets (I := fun s => ∃ r, Tracked A s r ∧ InI64 (s.heap r).remainingBytes)
    (fun s a s' hI _ _ hs => hstep s a s' hI hs) ?_ ⟨r, h, hr⟩ hlimited as
  rintro s a s' ⟨r, h, hr⟩ hlim hs
  obtain ⟨r', h', heq⟩ := quotaStep_tracked h hs
  have hne : (s.heap r).remainingBytes ≠ -1 := fun hc => hlim (by rw [h.remaining, hc])
  rw [Account.Limited, h'.remaining, heq, ne_eq, Option.some.injEq, ← ne_eq, newRemaining_ne_iff a r hne hr]
  constructor
  · intro hsafe r₁ hr₁
    rw [Option.some.inj (hr₁.symm.trans h.here)]
    exact hsafe
  · intro hsafe
    exact hsafe r h.here

/-! ## An account with five bytes -/

def fiveBytes : Account Sample.crates where
  id := "ad60c2b2-cc0c-492a-89aa-c92330a10cc9"
  uuid := builtInUuid
  parse := by decide

def fiveBytesConfig : Config :=
  { defaultConfig with
    inbounds := [⟨"vless-inbound", .v4 .unspecified, 443, "vless", ⟨some [⟨fiveBytes.id,
      some "test_user@example.com", none, none, none, none, some (5 / gigabyte : ℚ), none, none, none, none,
      none, none, none, none⟩]⟩, none⟩] }

/-- The engine started on it; the aliases it draws are all zero. -/
def fiveBytesEngine : EngineState := .new Sample.crates ⟨fun _ => Vector.replicate 16 0, 0⟩ fiveBytesConfig

theorem fiveBytes_tracked :
    Tracked fiveBytes fiveBytesEngine 0 ∧ (fiveBytesEngine.heap 0).remainingBytes = 5 := by
  have hk : fiveBytes.KeptBy fiveBytesConfig :=
    ⟨⟨_, List.mem_singleton_self _, rfl⟩, fun c hc _ => by rw [List.mem_singleton.mp hc]⟩
  have hzero : Sample.crates.parseUuid (Sample.crates.uuidToString (Vector.replicate 16 0)) ≠
      some fiveBytes.uuid := by decide
  have hgb : ∀ c ∈ fiveBytesConfig.clients, c.id = fiveBytes.id → c.remainingGb = some (5 / gigabyte : ℚ) :=
    fun c hc _ => by rw [List.mem_singleton.mp hc]
  obtain ⟨r, ht, hrem⟩ := tracked_new (g := ⟨fun _ => Vector.replicate 16 0, 0⟩) hk (fun _ => hzero) hgb
  have hr : owner fiveBytesEngine.users fiveBytes.uuid = some 0 := by decide
  obtain rfl : r = 0 := Option.some.inj (ht.here.symm.trans hr)
  have hfive : gbToBytes (some (5 / gigabyte : ℚ)) = 5 := by decide +kernel
  exact ⟨ht, hrem.trans hfive⟩

def recordThreeReserveTen : List (QuotaAct fiveBytes) :=
  [.record .tx (Vector.replicate 16 1) 3 (some 0) (by decide), .reserveQuota 0 10 (by decide)]

def recordSix : List (QuotaAct fiveBytes) :=
  [.record .tx (Vector.replicate 16 1) 6 (some 0) (by decide)]

/-- A run that the condition admits. -/
theorem limited_within_five_bytes :
    Run.Always quotaStep fiveBytes.Limited fiveBytesEngine recordThreeReserveTen := by
  obtain ⟨ht, hrem⟩ := fiveBytes_tracked
  have hlim : fiveBytes.Limited fiveBytesEngine := by
    rw [Account.Limited, ht.remaining, hrem]
    decide
  refine (limited_iff_safe ht (by rw [hrem]; exact ⟨by decide, by decide⟩) hlim _).mpr ⟨?_, ?_, trivial⟩
  · intro r hr _
    rw [← Option.some.inj (ht.here.symm.trans hr), hrem]
    decide
  · exact fun _ _ => trivial

/-- **A datagram of six bytes is recorded**: the account with five bytes is unlimited. -/
theorem overdrawn_by_one :
    fiveBytes.Limited fiveBytesEngine ∧
      ¬ Run.Always quotaStep fiveBytes.Limited fiveBytesEngine recordSix := by
  obtain ⟨ht, hrem⟩ := fiveBytes_tracked
  constructor
  · rw [Account.Limited, ht.remaining, hrem]
    decide
  · rintro ⟨-, h⟩
    obtain ⟨r, ht', hrem'⟩ := quotaStep_tracked ht (a := .record .tx (Vector.replicate 16 1) 6 (some 0)
      (by decide)) rfl
    rw [hrem] at hrem'
    refine h.head ?_
    rw [ht'.remaining, hrem']
    decide

end RXCore
