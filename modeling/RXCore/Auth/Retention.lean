import RXCore.Auth.Login

/-!
# What the login limiter keeps

`LoginRateLimiter` by itself: checks, failures and successes of any addresses, in any order, with a clock. What it
keeps is compared with the failures that were recorded in the last 300 seconds.

* `LimiterRun`, `limiterStep`: the calls, with every failure that was recorded;
* `LimiterRun.Retains`: addresses and times are no more than recent failures;
* `LimiterRun.Fresh`: nothing that the step leaves alone is older than 300 seconds;
* **`limiter_retains`**: as long as all steps are of that kind, the limiter keeps no more;
* `limiter_keeps_old`: an address that does not come back is kept.
-/

set_option autoImplicit false

namespace RXCore

open Tables

/-! ## The calls -/

/-- The limiter, the clock, and the failures that were recorded, the oldest first. -/
structure LimiterRun where
  limiter : LoginRateLimiter
  clock : ℕ
  recorded : List (IpAddr × ℕ)

inductive LimiterAct where
  | check (ip : IpAddr)
  | failure (ip : IpAddr)
  | success (ip : IpAddr)

def LimiterRun.start : LimiterRun := ⟨.new, 0, []⟩

/-- A call at the time `now`. The clock does not go back. -/
def limiterStep (s : LimiterRun) : LimiterAct × ℕ → Option LimiterRun
  | (a, now) =>
    if now < s.clock then none
    else match a with
      | .check ip => some { s with limiter := (s.limiter.isAllowed ip now).2, clock := now }
      | .failure ip => some ⟨s.limiter.recordFailure ip now, now, s.recorded ++ [(ip, now)]⟩
      | .success ip => some { s with limiter := s.limiter.recordSuccess ip, clock := now }

/-! ## What is kept -/

/-- The number of addresses. -/
def LoginRateLimiter.addresses (l : LoginRateLimiter) : ℕ := l.attempts.keys.length

/-- The number of times that are kept for addresses. -/
def LoginRateLimiter.timestamps (l : LoginRateLimiter) : ℕ :=
  (l.attempts.keys.map fun ip => (l.attemptsOf ip).length).sum

/-- The time is less than 300 seconds ago. -/
abbrev LoginRecent (now t : ℕ) : Prop := now - t < loginWindow

/-- The failures that were recorded in the last 300 seconds. -/
def LimiterRun.recentFailures (s : LimiterRun) : ℕ := s.recorded.countP fun r => decide (LoginRecent s.clock r.2)

/-- The addresses, the times of addresses and the times of all are no more than the failures that were recorded in the
last 300 seconds. -/
structure LimiterRun.Retains (s : LimiterRun) : Prop where
  addresses : s.limiter.addresses ≤ s.recentFailures
  timestamps : s.limiter.timestamps ≤ s.recentFailures
  global : s.limiter.globalAttempts.length ≤ s.recentFailures

/-- What the call leaves alone is recent when it comes: a check leaves other addresses alone, and its own if there are
too many failures of all; a failure leaves all alone; a success leaves other addresses and the times of all alone. An
address keeps a recent time. -/
def LimiterRun.Fresh (s : LimiterRun) : LimiterAct × ℕ → Prop
  | (.check ip, now) =>
    (∀ ip' ∈ s.limiter.attempts.keys, (ip' ≠ ip ∨ 20 ≤ (recentAttempts now s.limiter.globalAttempts).length) →
      ∀ t ∈ s.limiter.attemptsOf ip', LoginRecent now t) ∧
    (ip ∈ s.limiter.attempts.keys → ∃ t ∈ s.limiter.attemptsOf ip, LoginRecent now t)
  | (.failure _, now) =>
    (∀ ip' ∈ s.limiter.attempts.keys, ∀ t ∈ s.limiter.attemptsOf ip', LoginRecent now t) ∧
      ∀ t ∈ s.limiter.globalAttempts, LoginRecent now t
  | (.success ip, now) =>
    (∀ ip' ∈ s.limiter.attempts.keys, ip' ≠ ip → ∀ t ∈ s.limiter.attemptsOf ip', LoginRecent now t) ∧
      ∀ t ∈ s.limiter.globalAttempts, LoginRecent now t

instance (s : LimiterRun) : ∀ a, Decidable (s.Fresh a)
  | (.check _, _) => inferInstanceAs (Decidable (_ ∧ _))
  | (.failure _, _) => inferInstanceAs (Decidable (_ ∧ _))
  | (.success _, _) => inferInstanceAs (Decidable (_ ∧ _))

/-- The times are those of recorded failures, all of them recent, and every address has one. -/
structure LimiterRun.Kept (s : LimiterRun) : Prop where
  times : ∀ ip, (s.limiter.attemptsOf ip).Sublist ((s.recorded.filter fun r => decide (r.1 = ip)).map Prod.snd)
  global : s.limiter.globalAttempts.Sublist (s.recorded.map Prod.snd)
  present : ∀ ip ∈ s.limiter.attempts.keys, s.limiter.attemptsOf ip ≠ []
  recent : ∀ ip, ∀ t ∈ s.limiter.attemptsOf ip, LoginRecent s.clock t
  globalRecent : ∀ t ∈ s.limiter.globalAttempts, LoginRecent s.clock t

/-! ## Counting -/

section

variable {s s' : LimiterRun}

/-- LoginRecent times among others are no more than the recent ones of these. -/
theorem length_le_countP {now : ℕ} {kept all : List ℕ} (h : kept.Sublist all) (hrecent : ∀ t ∈ kept, LoginRecent now t) :
    kept.length ≤ all.countP fun t => decide (LoginRecent now t) := by
  have hall : kept.countP (fun t => decide (LoginRecent now t)) = kept.length :=
    List.countP_eq_length.mpr fun t ht => decide_eq_true (hrecent t ht)
  exact hall.symm.trans_le h.countP_le

/-- **LoginRecent failures outnumber what is kept of them.** -/
theorem LimiterRun.Kept.retains (h : s.Kept) : s.Retains := by
  have hone : ∀ ip, (s.limiter.attemptsOf ip).length ≤
      s.recorded.countP fun r => decide (r.1 = ip) && decide (LoginRecent s.clock r.2) := by
    intro ip
    refine (length_le_countP (h.times ip) (h.recent ip)).trans (le_of_eq ?_)
    rw [List.countP_map, List.countP_filter]
    exact List.countP_congr fun r _ => by simp [and_comm]
  have htimes : s.limiter.timestamps ≤ s.recentFailures := by
    refine (List.sum_le_sum fun ip _ => hone ip).trans ?_
    exact sum_countP_le Prod.fst (fun r => decide (LoginRecent s.clock r.2)) s.limiter.attempts.nodupKeys s.recorded
  refine ⟨?_, htimes, ?_⟩
  · refine le_trans ?_ htimes
    calc s.limiter.addresses = (s.limiter.attempts.keys.map fun _ => 1).sum := by simp [LoginRateLimiter.addresses]
      _ ≤ s.limiter.timestamps :=
        List.sum_le_sum fun ip hip => List.length_pos_of_ne_nil (h.present ip hip)
  · refine (length_le_countP h.global h.globalRecent).trans (le_of_eq ?_)
    rw [List.countP_map]
    rfl

/-! ## The calls one by one -/

variable {l : LoginRateLimiter} {ip ip' : IpAddr} {now : ℕ}

theorem mem_keys_of_mem_attemptsOf {t : ℕ} (h : t ∈ l.attemptsOf ip) : ip ∈ l.attempts.keys := by
  rw [← AList.mem_keys, ← AList.lookup_isSome]
  rw [LoginRateLimiter.attemptsOf] at h
  cases hl : l.attempts.lookup ip with
  | none =>
    rw [hl] at h
    cases h
  | some entry => rfl

/-- A check does not touch another address. -/
theorem isAllowed_other (hip : ip' ≠ ip) (now : ℕ) : (l.isAllowed ip now).2.attemptsOf ip' = l.attemptsOf ip' := by
  rw [LoginRateLimiter.isAllowed]
  split_ifs
  · rfl
  · split
    · rfl
    · rw [LoginRateLimiter.attemptsOf, AList.lookup_insert_ne hip]
      rfl

/-- A check that gets so far keeps what is recent of its address. -/
theorem isAllowed_own (h : (recentAttempts now l.globalAttempts).length < 20) :
    (l.isAllowed ip now).2.attemptsOf ip = recentAttempts now (l.attemptsOf ip) := by
  rw [LoginRateLimiter.isAllowed]
  dsimp only
  rw [if_neg (not_le.mpr h)]
  cases hentry : l.attempts.lookup ip with
  | none => simp [LoginRateLimiter.attemptsOf, hentry, recentAttempts]
  | some entry => simp [LoginRateLimiter.attemptsOf, hentry]

theorem isAllowed_keys (l : LoginRateLimiter) (ip : IpAddr) (now : ℕ) (ip' : IpAddr) :
    ip' ∈ (l.isAllowed ip now).2.attempts.keys ↔ ip' ∈ l.attempts.keys := by
  rw [LoginRateLimiter.isAllowed]
  split_ifs
  · rfl
  · split
    · rfl
    · next entry hentry =>
      have hmem : ip ∈ l.attempts := AList.lookup_isSome.mp (by rw [hentry]; rfl)
      rw [← AList.mem_keys, ← AList.mem_keys, AList.mem_insert]
      exact ⟨fun h => h.elim (fun h => h ▸ hmem) id, .inr⟩

/-- The times of recorded failures of an address, when one more was recorded. -/
theorem recorded_concat (recorded : List (IpAddr × ℕ)) (ip ip' : IpAddr) (now : ℕ) :
    ((recorded ++ [(ip, now)]).filter fun r => decide (r.1 = ip')).map Prod.snd =
      (recorded.filter fun r => decide (r.1 = ip')).map Prod.snd ++ if ip' = ip then [now] else [] := by
  rw [List.filter_append, List.map_append]
  by_cases hip : ip' = ip
  · subst hip
    simp
  · rw [List.filter_singleton, decide_eq_false (Ne.symm hip), if_neg hip]
    rfl

/-- A check. -/
theorem LimiterRun.Kept.check (h : s.Kept) (hfresh : s.Fresh (.check ip, now)) :
    Kept { s with limiter := (s.limiter.isAllowed ip now).2, clock := now } := by
  obtain ⟨hothers, hown⟩ := hfresh
  have hglobal := isAllowed_global s.limiter ip now
  refine ⟨fun ip' => ?_, ?_, fun ip' hip' => ?_, fun ip' t ht => ?_, fun t ht => ?_⟩
  · rcases isAllowed_attempts s.limiter ip now ip' with heq | heq
    · simpa only [heq] using h.times ip'
    · simpa only [heq, recentAttempts] using List.filter_sublist.trans (h.times ip')
  · simpa only [hglobal, recentAttempts] using List.filter_sublist.trans h.global
  · have hkeys := (isAllowed_keys s.limiter ip now ip').mp hip'
    dsimp only
    rcases isAllowed_attempts s.limiter ip now ip' with heq | heq
    · rw [heq]
      exact h.present ip' hkeys
    · by_cases hip : ip' = ip
      · subst hip
        obtain ⟨t, ht, hrecent⟩ := hown hkeys
        rw [heq]
        exact List.ne_nil_of_mem (List.mem_filter.mpr ⟨ht, decide_eq_true hrecent⟩)
      · rw [isAllowed_other hip]
        exact h.present ip' hkeys
  · dsimp only at ht
    by_cases hip : ip' ≠ ip ∨ 20 ≤ (recentAttempts now s.limiter.globalAttempts).length
    · rcases isAllowed_attempts s.limiter ip now ip' with heq | heq
      · rw [heq] at ht
        exact hothers ip' (mem_keys_of_mem_attemptsOf ht) hip t ht
      · rw [heq] at ht
        exact of_decide_eq_true (List.mem_filter.mp ht).2
    · obtain ⟨hip, hroom⟩ := not_or.mp hip
      rw [not_not.mp hip, isAllowed_own (not_le.mp hroom)] at ht
      exact of_decide_eq_true (List.mem_filter.mp ht).2
  · dsimp only at ht
    rw [hglobal] at ht
    exact of_decide_eq_true (List.mem_filter.mp ht).2

/-- A failure. -/
theorem LimiterRun.Kept.failure (h : s.Kept) (hfresh : s.Fresh (.failure ip, now)) :
    Kept ⟨s.limiter.recordFailure ip now, now, s.recorded ++ [(ip, now)]⟩ := by
  obtain ⟨htimes, hglobal⟩ := hfresh
  have hself : LoginRecent now now := by
    rw [LoginRecent, Nat.sub_self]
    exact loginWindow_pos
  refine ⟨fun ip' => ?_, ?_, fun ip' hip' => ?_, fun ip' t ht => ?_, fun t ht => ?_⟩
  · dsimp only
    rw [recordFailure_attempts, recorded_concat]
    split_ifs with hip
    · subst hip
      exact (h.times ip').append (List.Sublist.refl _)
    · rw [List.append_nil]
      exact h.times ip'
  · dsimp only
    rw [List.map_append]
    exact h.global.append (List.Sublist.refl _)
  · dsimp only
    rw [recordFailure_attempts]
    split_ifs with hip
    · exact List.append_ne_nil_of_right_ne_nil _ (List.cons_ne_nil _ _)
    · refine h.present ip' ?_
      have hmem : ip' ∈ s.limiter.attempts.insert ip (s.limiter.attemptsOf ip ++ [now]) := hip'
      exact ((AList.mem_insert _).mp hmem).resolve_left hip
  · dsimp only at ht
    rw [recordFailure_attempts] at ht
    split_ifs at ht with hip
    · obtain ht | ht := List.mem_append.mp ht
      · exact htimes ip' (mem_keys_of_mem_attemptsOf ht) t ht
      · exact List.mem_singleton.mp ht ▸ hself
    · exact htimes ip' (mem_keys_of_mem_attemptsOf ht) t ht
  · obtain ht | ht := List.mem_append.mp ht
    · exact hglobal t ht
    · exact List.mem_singleton.mp ht ▸ hself

/-- A success. -/
theorem LimiterRun.Kept.success (h : s.Kept) (hfresh : s.Fresh (.success ip, now)) :
    Kept { s with limiter := s.limiter.recordSuccess ip, clock := now } := by
  obtain ⟨hothers, hglobal⟩ := hfresh
  refine ⟨fun ip' => ?_, h.global, fun ip' hip' => ?_, fun ip' t ht => ?_, hglobal⟩
  · dsimp only
    rw [recordSuccess_attempts]
    split_ifs
    · exact List.nil_sublist _
    · exact h.times ip'
  · dsimp only
    have hmem : ip' ∈ s.limiter.attempts.erase ip := hip'
    obtain ⟨hip, hmem⟩ := AList.mem_erase.mp hmem
    rw [recordSuccess_attempts, if_neg hip]
    exact h.present ip' hmem
  · dsimp only at ht
    rw [recordSuccess_attempts] at ht
    split_ifs at ht with hip
    · cases ht
    · exact hothers ip' (mem_keys_of_mem_attemptsOf ht) hip t ht

/-- **A call that leaves nothing old alone** keeps the limiter to recent failures. -/
theorem limiterStep_kept (h : s.Kept) {a : LimiterAct × ℕ} (hfresh : s.Fresh a) (hs : limiterStep s a = some s') :
    s'.Kept := by
  obtain ⟨a, now⟩ := a
  simp only [limiterStep] at hs
  split_ifs at hs with hnow
  cases a with
  | check ip =>
    obtain rfl := Option.some.inj hs
    exact h.check hfresh
  | failure ip =>
    obtain rfl := Option.some.inj hs
    exact h.failure hfresh
  | success ip =>
    obtain rfl := Option.some.inj hs
    exact h.success hfresh

theorem LimiterRun.start_kept : LimiterRun.start.Kept :=
  ⟨fun _ => List.Sublist.refl _, List.Sublist.refl _, nofun, nofun, nofun⟩

/-- **What the limiter keeps**: in every run of calls of any addresses with a clock that does not go back, in which
every call leaves only recent times alone and its address a recent one, the addresses and the times that the limiter
keeps are, in every state, no more than the failures that were recorded in the last 300 seconds. -/
theorem limiter_retains {acts : List (LimiterAct × ℕ)} (hfresh : Run.Meets limiterStep LimiterRun.Fresh .start acts) :
    Run.Always limiterStep LimiterRun.Retains .start acts :=
  Run.always_of_meets (fun _ _ _ h hfresh hs => limiterStep_kept h hfresh hs) (fun _ h => h.retains)
    LimiterRun.start_kept hfresh

end

/-- Two failures of one address, and its check when the first is forgotten. -/
def returningRun : List (LimiterAct × ℕ) :=
  [(.check (.v4 .localhost), 0), (.failure (.v4 .localhost), 0), (.check (.v4 .localhost), 200 * 1000000000),
    (.failure (.v4 .localhost), 200 * 1000000000), (.check (.v4 .localhost), 301 * 1000000000)]

/-- The theorem on the run. -/
theorem limiter_retains_returning : Run.Always limiterStep LimiterRun.Retains .start returningRun :=
  limiter_retains (by decide)

/-- A failure, and 301 seconds later a check of another address. -/
def leavingRun : List (LimiterAct × ℕ) :=
  [(.check (.v4 .localhost), 0), (.failure (.v4 .localhost), 0), (.check (.v4 .unspecified), 301 * 1000000000)]

/-- **An address that does not come back is kept** with a time that no longer counts. -/
theorem limiter_keeps_old : ∃ s, Run.exec limiterStep .start leavingRun = some s ∧ s.recentFailures = 0 ∧
    s.limiter.addresses = 1 ∧ s.limiter.timestamps = 1 ∧ ¬ s.Retains := by
  refine ⟨_, rfl, by decide, by decide, by decide, fun h => ?_⟩
  have := h.addresses
  revert this
  decide

end RXCore
