import RXCore.Net
import RXCore.Lib.Run
import RXCore.Lib.Tables
import RXCore.Lib.Window

/-!
# The rate of subscription requests

`check_sub_rate_limit` keeps the times of the calls that it has accepted for each address, and forgets old ones when
the address calls again or when more than 1000 addresses are known.

* `SubLimiter`, `checkSubRateLimit`: the table and a call;
* `SubRun`, `subStep`: calls of any addresses, with every call that was accepted;
* `SubRun.Kept`: what the clock sees of the accepted calls, the table still has;
* **`subLimiter_windows`**: no window sees more than 10, and a call is refused for 10 only.
-/

set_option autoImplicit false

namespace RXCore

open Tables Window

/-! ## A call -/

/-- `SUB_LIMITER`; times are in nanoseconds. -/
abbrev SubLimiter := AList fun _ : IpAddr => List ℕ

/-- 60 seconds. -/
def subWindow : ℕ := 60 * 1000000000

/-- The times of an address. -/
def subTimes (map : SubLimiter) (ip : IpAddr) : List ℕ := (map.lookup ip).getD []

/-- `retain` over all addresses: old times are dropped, and addresses without any left. -/
def pruneSubLimiter (map : SubLimiter) (now : ℕ) : SubLimiter :=
  retain (fun v => let v := recent subWindow now v; if v ≠ [] then some v else none) map

/-- `check_sub_rate_limit`, at the time `now`. -/
def checkSubRateLimit (map : SubLimiter) (ip : IpAddr) (now : ℕ) : Bool × SubLimiter :=
  let map := if 1000 < map.keys.length then pruneSubLimiter map now else map
  let entry := recent subWindow now (subTimes map ip)
  if 10 ≤ entry.length then (false, map.insert ip entry) else (true, map.insert ip (entry ++ [now]))

/-! ## Runs -/

/-- The table, the clock, and the calls that were accepted, the oldest first. -/
structure SubRun where
  map : SubLimiter
  clock : ℕ
  accepted : List (IpAddr × ℕ)

def SubRun.start : SubRun := ⟨∅, 0, []⟩

/-- A call of an address at a time. The clock does not go back. -/
def subStep (s : SubRun) : IpAddr × ℕ → Option SubRun
  | (ip, now) =>
    if now < s.clock then none
    else
      let (ok, map) := checkSubRateLimit s.map ip now
      some ⟨map, now, if ok then s.accepted ++ [(ip, now)] else s.accepted⟩

/-- The times of the accepted calls of an address. -/
def SubRun.acceptedBy (s : SubRun) (ip : IpAddr) : List ℕ :=
  (s.accepted.filter fun r => decide (r.1 = ip)).map Prod.snd

/-- What the clock sees of the accepted calls of an address is what it sees in the table, and no window sees more
than 10. -/
structure SubRun.Kept (s : SubRun) : Prop where
  seen : ∀ ip, recent subWindow s.clock (subTimes s.map ip) = recent subWindow s.clock (s.acceptedBy ip)
  past : ∀ ip, ∀ t ∈ s.acceptedBy ip, t ≤ s.clock
  windows : ∀ ip w, within subWindow w (s.acceptedBy ip) ≤ 10

/-! ## Pruning -/

section

variable {map : SubLimiter} {s s' : SubRun} {ip ip' : IpAddr} {now : ℕ}

theorem subWindow_pos : 0 < subWindow := by decide

/-- **Pruning drops nothing that the clock sees.** -/
theorem subTimes_prune (map : SubLimiter) (now : ℕ) (ip : IpAddr) :
    subTimes (pruneSubLimiter map now) ip = recent subWindow now (subTimes map ip) := by
  rw [subTimes, pruneSubLimiter, lookup_retain, subTimes]
  cases map.lookup ip with
  | none => rfl
  | some v =>
    rw [Option.bind_some, Option.getD_some]
    dsimp only
    split_ifs with hv
    · rfl
    · exact (not_not.mp hv).symm

/-- What the clock sees in the table of a call. -/
theorem recent_subTimes_if (c : Prop) [Decidable c] (map : SubLimiter) (now : ℕ) (ip : IpAddr) :
    recent subWindow now (subTimes (if c then pruneSubLimiter map now else map) ip) =
      recent subWindow now (subTimes map ip) := by
  split_ifs
  · rw [subTimes_prune, recent_recent le_rfl]
  · rfl

/-! ## A call step by step -/

theorem subTimes_insert (map : SubLimiter) (ip ip' : IpAddr) (v : List ℕ) :
    subTimes (map.insert ip v) ip' = if ip' = ip then v else subTimes map ip' := by
  rw [subTimes]
  split_ifs with hip
  · subst hip
    rw [AList.lookup_insert, Option.getD_some]
  · rw [AList.lookup_insert_ne hip, subTimes]

/-- **A call** is accepted if the clock sees fewer than 10 of its address. -/
theorem checkSubRateLimit_cases (map : SubLimiter) (ip : IpAddr) (now : ℕ) :
    ∃ map', (∀ ip', recent subWindow now (subTimes map' ip') = recent subWindow now (subTimes map ip')) ∧
      ((10 ≤ (recent subWindow now (subTimes map ip)).length ∧
        checkSubRateLimit map ip now = (false, map'.insert ip (recent subWindow now (subTimes map ip)))) ∨
      ((recent subWindow now (subTimes map ip)).length < 10 ∧
        checkSubRateLimit map ip now = (true, map'.insert ip (recent subWindow now (subTimes map ip) ++ [now])))) := by
  refine ⟨if 1000 < map.keys.length then pruneSubLimiter map now else map, recent_subTimes_if _ map now, ?_⟩
  rw [checkSubRateLimit, recent_subTimes_if]
  rcases Nat.lt_or_ge (recent subWindow now (subTimes map ip)).length 10 with h | h
  · exact .inr ⟨h, if_neg (not_le.mpr h)⟩
  · exact .inl ⟨h, if_pos h⟩

theorem checkSubRateLimit_accepts :
    (checkSubRateLimit map ip now).1 = decide ((recent subWindow now (subTimes map ip)).length < 10) := by
  obtain ⟨map', -, ⟨hlen, heq⟩ | ⟨hlen, heq⟩⟩ := checkSubRateLimit_cases map ip now
  · rw [heq, decide_eq_false (not_lt.mpr hlen)]
  · rw [heq, decide_eq_true hlen]

/-- The table after a call, as the clock sees it. -/
theorem checkSubRateLimit_times (ip' : IpAddr) :
    recent subWindow now (subTimes (checkSubRateLimit map ip now).2 ip') =
      recent subWindow now (subTimes map ip') ++
        if ip' = ip ∧ (checkSubRateLimit map ip now).1 = true then [now] else [] := by
  obtain ⟨map', hsame, ⟨-, heq⟩ | ⟨-, heq⟩⟩ := checkSubRateLimit_cases map ip now
  · rw [heq, if_neg fun h => Bool.false_ne_true h.2, List.append_nil, subTimes_insert]
    split_ifs with hip
    · rw [hip, recent_recent le_rfl]
    · exact hsame ip'
  · rw [heq, subTimes_insert]
    by_cases hip : ip' = ip
    · rw [if_pos hip, if_pos ⟨hip, rfl⟩, hip, recent_concat subWindow_pos, recent_recent le_rfl]
    · rw [if_neg hip, if_neg fun h => hip h.1, List.append_nil]
      exact hsame ip'

/-! ## Every run -/

theorem SubRun.start_kept : SubRun.start.Kept := ⟨fun _ => rfl, nofun, fun _ _ => Nat.zero_le _⟩

/-- The accepted calls of an address after a call. -/
theorem acceptedBy_step (s : SubRun) (map : SubLimiter) (ip ip' : IpAddr) (now : ℕ) (ok : Bool) :
    (SubRun.mk map now (if ok then s.accepted ++ [(ip, now)] else s.accepted)).acceptedBy ip' =
      s.acceptedBy ip' ++ if ip' = ip ∧ ok = true then [now] else [] := by
  rw [SubRun.acceptedBy, SubRun.acceptedBy]
  cases ok with
  | false => simp
  | true =>
    rw [if_pos rfl, List.filter_append, List.map_append, List.filter_singleton]
    by_cases hip : ip' = ip
    · subst hip
      simp
    · rw [decide_eq_false (Ne.symm hip), if_neg fun h => hip h.1]
      rfl

/-- What a later clock sees. -/
theorem SubRun.Kept.seenAt (h : s.Kept) (hnow : s.clock ≤ now) (ip : IpAddr) :
    recent subWindow now (subTimes s.map ip) = recent subWindow now (s.acceptedBy ip) := by
  rw [← recent_recent hnow, h.seen ip, recent_recent hnow]

/-- **A call keeps all this.** -/
theorem subStep_kept (h : s.Kept) {a : IpAddr × ℕ} (hs : subStep s a = some s') : s'.Kept := by
  obtain ⟨ip, now⟩ := a
  simp only [subStep] at hs
  by_cases hnow : now < s.clock
  · rw [if_pos hnow] at hs
    cases hs
  rw [if_neg hnow] at hs
  obtain rfl := Option.some.inj hs
  have hclock := not_lt.mp hnow
  have haccepted := acceptedBy_step s (checkSubRateLimit s.map ip now).2 ip
  refine ⟨fun ip' => ?_, fun ip' t ht => ?_, fun ip' w => ?_⟩
  · dsimp only
    rw [haccepted, checkSubRateLimit_times, h.seenAt hclock]
    split_ifs
    · rw [recent_concat subWindow_pos]
    · rw [List.append_nil, List.append_nil]
  · rw [haccepted] at ht
    rcases List.mem_append.mp ht with ht | ht
    · exact (h.past ip' t ht).trans hclock
    · split_ifs at ht
      · exact (List.mem_singleton.mp ht).le
      · cases ht
  · rw [haccepted]
    split_ifs with hok
    · obtain ⟨rfl, hok⟩ := hok
      rw [checkSubRateLimit_accepts, decide_eq_true_eq, h.seenAt hclock] at hok
      exact within_concat_le (fun t ht => (h.past ip' t ht).trans hclock) hok (h.windows ip' w)
    · rw [List.append_nil]
      exact h.windows ip' w

/-- **The rate of every address** in every run of calls of any addresses with a clock that does not go back: at most 10
calls are accepted in any 60 seconds, and a call is refused only if 10 were accepted in the last 60 seconds. -/
theorem subLimiter_windows {calls : List (IpAddr × ℕ)} (hrun : Run.exec subStep .start calls = some s) :
    (∀ ip w, within subWindow w (s.acceptedBy ip) ≤ 10) ∧
    ∀ ip now, s.clock ≤ now → (checkSubRateLimit s.map ip now).1 = false →
      10 ≤ (s.acceptedBy ip).countP fun t => decide (now - t < subWindow) := by
  have hkept := Run.exec_invariant (fun _ _ _ h hs => subStep_kept h hs) SubRun.start_kept hrun
  refine ⟨hkept.windows, fun ip now hnow hrefused => ?_⟩
  rw [checkSubRateLimit_accepts, decide_eq_false_iff_not, hkept.seenAt hnow] at hrefused
  rw [List.countP_eq_length_filter]
  exact not_lt.mp hrefused

end

/-- Eleven calls of one address in 10 seconds. -/
def elevenCalls : List (IpAddr × ℕ) := (List.range 11).map fun i => (.v4 .localhost, i * 1000000000)

/-- The theorem on eleven calls, the last of which is refused. -/
theorem subLimiter_windows_eleven : ∃ s, Run.exec subStep .start elevenCalls = some s ∧ s.accepted.length = 10 ∧
    (∀ ip w, within subWindow w (s.acceptedBy ip) ≤ 10) ∧
    ∀ ip now, s.clock ≤ now → (checkSubRateLimit s.map ip now).1 = false →
      10 ≤ (s.acceptedBy ip).countP fun t => decide (now - t < subWindow) := by
  have hrun : (Run.exec subStep .start elevenCalls).map (fun s => s.accepted.length) = some 10 := by decide
  obtain ⟨s, hs, hlen⟩ := Option.map_eq_some_iff.mp hrun
  exact ⟨s, hs, hlen, subLimiter_windows hs⟩

end RXCore
