import RXCore.Transport.Resolver

/-!
# The cache of the resolver

`DnsCache` with any capacity and any lifetime of a failure. An `Instant` is a number of ticks, and a second is so many
ticks. An insertion reads the clock twice, before it makes room and when it files its entry.

* `DnsCache`, `DnsCache.evict`, `DnsCache.insert`: the cache; `dnsInsert_eq`: that of the resolver is one;
* `CacheRun`, `cacheStep`: any sequence of operations, with what was last inserted under each key;
* `CacheRun.Kept`: an entry is what was last inserted under its key;
* **`dnsCache_answers`**: the capacity, the answers and the lifetimes;
* `dnsCache_empty_answer`: a success without addresses is read back as a failure.
-/

set_option autoImplicit false

namespace RXCore

open SingleFlight (Answer)

/-! ## The operations -/

/-- The settings of a `DnsCache`. -/
structure DnsCache where
  maxEntries : ℕ
  /-- In ticks. -/
  negativeTtl : ℕ
  /-- The ticks of a second. -/
  second : ℕ

/-- The lifetime of a result, in ticks. -/
def DnsCache.lifetime (C : DnsCache) : Answer → ℕ
  | .ok (_, rawTtl) => max 5 (min rawTtl 600) * C.second
  | .error _ => C.negativeTtl

/-- The addresses under which a result is cached. -/
def answerIps : Answer → List Ipv4Addr
  | .ok (ips, _) => ips
  | .error _ => []

/-- What `insert` removes from a full cache: what has expired, or else the `n`-th key. -/
def DnsCache.evict (C : DnsCache) (entries : DnsEntries) (now n : ℕ) : DnsEntries :=
  if C.maxEntries ≤ entries.keys.length then
    let expired := entries.keys.filter fun k => (entries.lookup k).any fun e => decide (e.expiresAt ≤ now)
    if expired ≠ [] then expired.foldl (fun m k => m.erase k) entries
    else match entries.keys[n % entries.keys.length]? with
      | some k => entries.erase k
      | none => entries
  else entries

/-- `DnsCache::insert`: `now` is the clock when it makes room, `filed` when it files the entry. -/
def DnsCache.insert (C : DnsCache) (X : Crates) (entries : DnsEntries) (now filed n : ℕ) (hostname : String)
    (result : Answer) : DnsEntries :=
  (C.evict entries now n).insert (X.toLowercase hostname) ⟨answerIps result, filed + C.lifetime result⟩

/-- The caches of the resolver count milliseconds. -/
def resolverCache : DnsCache := ⟨maxEntries, negativeTtl * 1000, 1000⟩

theorem dnsInsert_eq (X : Crates) (entries : DnsEntries) (now n : ℕ) (hostname : String) (result : Answer) :
    dnsInsert X entries now n hostname result = resolverCache.insert X entries now now n hostname result := by
  cases result <;> rfl

/-- What a `get` makes of addresses that are cached: none at all stand for a failure. -/
def readBack (port : UInt16) (ips : List Ipv4Addr) : Except String (List SocketAddrV4) :=
  if ips = [] then .error "Cached negative DNS result" else .ok (withPort port ips)

/-! ## Runs -/

/-- A cache, the clock, and what was last inserted under each key since the cache was last cleared, and when. -/
structure CacheRun where
  entries : DnsEntries
  clock : ℕ
  inserted : String → Option (Answer × ℕ)

inductive CacheOp where
  | insert (now filed n : ℕ) (hostname : String) (result : Answer)
  | get (now : ℕ) (hostname : String) (port : UInt16)
  | clear

def CacheRun.init : CacheRun := ⟨∅, 0, fun _ => none⟩

/-- An operation on the cache. The clock does not go back. -/
def cacheStep (C : DnsCache) (X : Crates) (s : CacheRun) : CacheOp → Option CacheRun
  | .insert now filed n hostname result =>
    if s.clock ≤ now ∧ now ≤ filed then some
      { entries := C.insert X s.entries now filed n hostname result
        clock := filed
        inserted := Function.update s.inserted (X.toLowercase hostname) (some (result, filed)) }
    else none
  | .get now hostname port =>
    if s.clock ≤ now then some { s with entries := (dnsGet X s.entries now hostname port).2, clock := now }
    else none
  | .clear => some { s with entries := ∅, inserted := fun _ => none }

/-- The entry is that of a result inserted at the time `filed`. -/
structure DnsCache.Entry (C : DnsCache) (result : Answer) (filed : ℕ) (e : CacheEntry) : Prop where
  ips : e.ips = answerIps result
  expiresAt : e.expiresAt = filed + C.lifetime result

/-- An entry is what was last inserted under its key. -/
structure CacheRun.Kept (C : DnsCache) (s : CacheRun) : Prop where
  size : s.entries.keys.length ≤ C.maxEntries
  last : ∀ key e, s.entries.lookup key = some e →
    ∃ result filed, s.inserted key = some (result, filed) ∧ filed ≤ s.clock ∧ C.Entry result filed e

/-! ## Room for an entry -/

section

variable {C : DnsCache} {X : Crates} {entries : DnsEntries} {now filed n : ℕ} {key : String} {e : CacheEntry}

theorem DnsCache.evict_lookup (h : (C.evict entries now n).lookup key = some e) : entries.lookup key = some e := by
  unfold DnsCache.evict at h
  split_ifs at h with hfull
  · dsimp only at h
    split_ifs at h
    · exact Tables.lookup_of_lookup_foldl_erase h
    · split at h
      · exact (Tables.lookup_erase_cases h).2
      · exact h
  · exact h

/-- **A full cache makes room**, for one of its keys is taken out. -/
theorem DnsCache.evict_size (hcap : 0 < C.maxEntries) (hsize : entries.keys.length ≤ C.maxEntries) (now n : ℕ) :
    (C.evict entries now n).keys.length < C.maxEntries := by
  unfold DnsCache.evict
  split_ifs with hfull
  · have hpos : 0 < entries.keys.length := hcap.trans_le hfull
    dsimp only
    split_ifs with hexpired
    · obtain ⟨k, ks, hks⟩ := List.exists_cons_of_ne_nil hexpired
      have hk : k ∈ entries.keys := by
        have : k ∈ k :: ks := List.mem_cons_self
        rw [← hks] at this
        exact (List.mem_filter.mp this).1
      have hle := Tables.length_keys_foldl_erase_le ks (entries.erase k)
      rw [Tables.length_keys_erase hk] at hle
      rw [hks, List.foldl_cons]
      exact hle.trans_lt (by omega)
    · have hlt := Nat.mod_lt n hpos
      rw [List.getElem?_eq_getElem hlt]
      dsimp only
      rw [Tables.length_keys_erase (List.getElem_mem hlt)]
      omega
  · exact not_le.mp hfull

theorem DnsCache.insert_size (hcap : 0 < C.maxEntries) (hsize : entries.keys.length ≤ C.maxEntries)
    (hostname : String) (result : Answer) :
    (C.insert X entries now filed n hostname result).keys.length ≤ C.maxEntries :=
  (Tables.length_keys_insert_le _ _ _).trans (C.evict_size hcap hsize now n)

/-! ## What a get returns -/

/-- **A get** returns what is cached under the key of its host, as long as it has not expired. -/
theorem dnsGet_some {hostname : String} {port : UInt16} {res : Except String (List SocketAddrV4)} :
    (dnsGet X entries now hostname port).1 = some res ↔
      ∃ e, entries.lookup (X.toLowercase hostname) = some e ∧ now < e.expiresAt ∧ res = readBack port e.ips := by
  unfold dnsGet
  cases hl : entries.lookup (X.toLowercase hostname) with
  | none =>
    simp only [hl]
    exact ⟨fun h => (nomatch h), fun ⟨e, he, _⟩ => (nomatch he)⟩
  | some e =>
    simp only [hl, readBack, Option.some.injEq, exists_eq_left']
    by_cases hlive : now < e.expiresAt
    · rw [if_pos hlive]
      split_ifs
      · exact ⟨fun h => ⟨hlive, (Option.some.inj h).symm⟩, fun h => congrArg some h.2.symm⟩
      · exact ⟨fun h => ⟨hlive, (Option.some.inj h).symm⟩, fun h => congrArg some h.2.symm⟩
    · rw [if_neg hlive]
      exact ⟨fun h => (nomatch h), fun h => absurd h.1 hlive⟩

theorem dnsGet_lookup {hostname : String} {port : UInt16}
    (h : (dnsGet X entries now hostname port).2.lookup key = some e) : entries.lookup key = some e :=
  (dnsGet_cases entries now hostname port).1 key e h

theorem dnsGet_size (entries : DnsEntries) (now : ℕ) (hostname : String) (port : UInt16) :
    (dnsGet X entries now hostname port).2.keys.length ≤ entries.keys.length := by
  unfold dnsGet
  cases hl : entries.lookup (X.toLowercase hostname) with
  | none =>
    simp only [hl]
    exact le_rfl
  | some e =>
    simp only [hl]
    split_ifs
    · exact le_rfl
    · exact le_rfl
    · rw [AList.keys_erase]
      exact List.length_erase_le

/-- **A get after an insertion under the same key** returns what was inserted until its lifetime is over. -/
theorem DnsCache.insert_get (C : DnsCache) (entries : DnsEntries) (now filed n : ℕ) {hostname hostname' : String}
    (hkey : X.toLowercase hostname' = X.toLowercase hostname) (result : Answer) {later : ℕ}
    (hlive : later < filed + C.lifetime result) (port : UInt16) :
    (dnsGet X (C.insert X entries now filed n hostname result) later hostname' port).1 =
      some (readBack port (answerIps result)) := by
  refine dnsGet_some.mpr ⟨⟨answerIps result, filed + C.lifetime result⟩, ?_, hlive, rfl⟩
  rw [hkey, DnsCache.insert, AList.lookup_insert]

theorem DnsCache.lifetime_ok (C : DnsCache) (ips : List Ipv4Addr) (rawTtl : ℕ) :
    5 * C.second ≤ C.lifetime (.ok (ips, rawTtl)) ∧ C.lifetime (.ok (ips, rawTtl)) ≤ 600 * C.second :=
  ⟨Nat.mul_le_mul_right _ (by omega), Nat.mul_le_mul_right _ (by omega)⟩

end

/-! ## Every run -/

section

variable {C : DnsCache} {X : Crates} {s s' : CacheRun}

theorem CacheRun.init_kept (C : DnsCache) : CacheRun.init.Kept C :=
  ⟨Nat.zero_le _, fun _ _ h => by cases h⟩

/-- **An operation keeps the entries what was last inserted.** -/
theorem cacheStep_kept (hcap : 0 < C.maxEntries) (h : s.Kept C) {op : CacheOp} (hs : cacheStep C X s op = some s') :
    s'.Kept C := by
  cases op with
  | insert now filed n hostname result =>
    rw [cacheStep] at hs
    split_ifs at hs with hclock
    obtain rfl := Option.some.inj hs
    refine ⟨DnsCache.insert_size hcap h.size hostname result, fun key e he => ?_⟩
    rcases Tables.lookup_insert_cases he with ⟨rfl, rfl⟩ | ⟨hne, he⟩
    · exact ⟨result, filed, Function.update_self .., le_rfl, rfl, rfl⟩
    · obtain ⟨result', filed', hlast, hle, hentry⟩ := h.last key e (DnsCache.evict_lookup he)
      exact ⟨result', filed', (Function.update_of_ne hne ..).trans hlast, by dsimp only; omega, hentry⟩
  | get now hostname port =>
    rw [cacheStep] at hs
    split_ifs at hs with hclock
    obtain rfl := Option.some.inj hs
    refine ⟨(dnsGet_size s.entries now hostname port).trans h.size, fun key e he => ?_⟩
    obtain ⟨result, filed, hlast, hle, hentry⟩ := h.last key e (dnsGet_lookup he)
    exact ⟨result, filed, hlast, hle.trans hclock, hentry⟩
  | clear =>
    obtain rfl := Option.some.inj hs
    exact ⟨Nat.zero_le _, fun _ _ he => by cases he⟩

/-- **The cache in every run**, for any capacity from 1 on and any lifetime of a failure. There are never more entries
than the capacity. A get right after an insertion for the same host, in any spelling of its case, returns the addresses
that were inserted with its port until their lifetime is over, or a failure if there are none. Whatever a get returns
is what was last inserted for its host, and has not expired. An entry lives for 5 to 600 seconds if it is a success,
and for the negative lifetime if it is a failure. -/
theorem dnsCache_answers (hcap : 0 < C.maxEntries) (ops : List CacheOp)
    (hrun : Run.exec (cacheStep C X) .init ops = some s) :
    s.entries.keys.length ≤ C.maxEntries ∧
    (∀ now filed n hostname result s', cacheStep C X s (.insert now filed n hostname result) = some s' →
      ∀ later hostname' port, later < filed + C.lifetime result →
        X.toLowercase hostname' = X.toLowercase hostname →
          (dnsGet X s'.entries later hostname' port).1 = some (readBack port (answerIps result))) ∧
    (∀ now hostname port res, s.clock ≤ now → (dnsGet X s.entries now hostname port).1 = some res →
      ∃ result filed, s.inserted (X.toLowercase hostname) = some (result, filed) ∧
        filed ≤ now ∧ now < filed + C.lifetime result ∧ res = readBack port (answerIps result)) ∧
    ∀ key e, s.entries.lookup key = some e →
      ∃ result filed, s.inserted key = some (result, filed) ∧ e.expiresAt = filed + C.lifetime result ∧
        match result with
        | .ok _ => 5 * C.second ≤ C.lifetime result ∧ C.lifetime result ≤ 600 * C.second
        | .error _ => C.lifetime result = C.negativeTtl := by
  have hkept := Run.exec_invariant (fun _ _ _ h hs => cacheStep_kept hcap h hs) (CacheRun.init_kept C) hrun
  refine ⟨hkept.size, fun now filed n hostname result s' hs later hostname' port hlive hkey => ?_,
    fun now hostname port res hclock hget => ?_, fun key e he => ?_⟩
  · rw [cacheStep] at hs
    split_ifs at hs
    obtain rfl := Option.some.inj hs
    exact C.insert_get s.entries now filed n hkey result hlive port
  · obtain ⟨e, he, hlive, rfl⟩ := dnsGet_some.mp hget
    obtain ⟨result, filed, hlast, hle, hips, hexpires⟩ := hkept.last _ e he
    exact ⟨result, filed, hlast, hle.trans hclock, by omega, by rw [hips]⟩
  · obtain ⟨result, filed, hlast, -, -, hexpires⟩ := hkept.last key e he
    refine ⟨result, filed, hlast, hexpires, ?_⟩
    cases result with
    | ok found => exact C.lifetime_ok found.1 found.2
    | error e => rfl

end

/-- A cache with room for one entry. -/
def smallCache : DnsCache := ⟨1, 10, 1⟩

/-- A failure takes the place of a success. -/
def fullRun : List CacheOp :=
  [.insert 0 0 0 "a.example" (.ok ([.localhost], 60)), .insert 1 1 0 "b.example" (.error "refused")]

/-- The theorem on a cache that is full. -/
theorem dnsCache_answers_full : ∃ s, Run.exec (cacheStep smallCache Sample.crates) .init fullRun = some s ∧
    s.entries.keys.length ≤ 1 ∧
    (∀ now filed n hostname result s',
      cacheStep smallCache Sample.crates s (.insert now filed n hostname result) = some s' →
      ∀ later hostname' port, later < filed + smallCache.lifetime result →
        Sample.crates.toLowercase hostname' = Sample.crates.toLowercase hostname →
          (dnsGet Sample.crates s'.entries later hostname' port).1 = some (readBack port (answerIps result))) ∧
    (∀ now hostname port res, s.clock ≤ now → (dnsGet Sample.crates s.entries now hostname port).1 = some res →
      ∃ result filed, s.inserted (Sample.crates.toLowercase hostname) = some (result, filed) ∧
        filed ≤ now ∧ now < filed + smallCache.lifetime result ∧ res = readBack port (answerIps result)) ∧
    ∀ key e, s.entries.lookup key = some e →
      ∃ result filed, s.inserted key = some (result, filed) ∧ e.expiresAt = filed + smallCache.lifetime result ∧
        match result with
        | .ok _ => 5 * 1 ≤ smallCache.lifetime result ∧ smallCache.lifetime result ≤ 600 * 1
        | .error _ => smallCache.lifetime result = 10 :=
  ⟨_, rfl, dnsCache_answers (by decide) fullRun rfl⟩

/-- **A success without addresses is not read back**: the cache takes it for a failure. -/
theorem dnsCache_empty_answer : ∃ s, Run.exec (cacheStep resolverCache Sample.crates) .init
    [.insert 0 0 0 "a.example" (.ok ([], 60))] = some s ∧
    (dnsGet Sample.crates s.entries 0 "a.example" 443).1 ≠ some (.ok (withPort 443 [])) :=
  ⟨_, rfl, by decide⟩

end RXCore
