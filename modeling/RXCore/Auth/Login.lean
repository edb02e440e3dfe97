import RXCore.Auth
import RXCore.Net
import RXCore.Lib.Run
import RXCore.Lib.Window
import RXCore.Lib.Parties
import RXCore.Lib.Tables

/-!
# Logins and password changes at their awaits

`login_handler` and `change_password_handler` wait for Argon2, which runs in blocking tasks. A handler that is
dropped because its client has disconnected gives its permit back, and its blocking task runs on.

* `LoginRateLimiter`: failed logins of the last 300 seconds, of each address and of all;
* `AuthServer`, `AuthServer.step`: requests in any order, with a clock and with what was verified;
* `AuthServer.Bounded`: no window of 300 seconds sees more wrong passwords than the limiter means to allow;
* **`logins_bounded`**: so it is as long as no handler is dropped while it verifies a wrong password;
* **`argon2_alone_iff`**: when the computations of Argon2 do not overlap.
-/

set_option autoImplicit false

namespace RXCore

open Window Parties Tables

/-! ## The limiter -/

/-- `LoginRateLimiter`; times are in nanoseconds. -/
structure LoginRateLimiter where
  attempts : AList fun _ : IpAddr => List ℕ
  globalAttempts : List ℕ

def LoginRateLimiter.new : LoginRateLimiter := ⟨∅, []⟩

/-- 300 seconds. -/
def loginWindow : ℕ := 300 * 1000000000

/-- The times that are still in the window. -/
def recentAttempts (now : ℕ) (l : List ℕ) : List ℕ := l.filter fun t => decide (now - t < loginWindow)

/-- `is_allowed`. -/
def LoginRateLimiter.isAllowed (l : LoginRateLimiter) (ip : IpAddr) (now : ℕ) : Bool × LoginRateLimiter :=
  let l := { l with globalAttempts := recentAttempts now l.globalAttempts }
  if 20 ≤ l.globalAttempts.length then (false, l)
  else match l.attempts.lookup ip with
    | none => (true, l)
    | some entry =>
      let entry := recentAttempts now entry
      (decide (entry.length < 5), { l with attempts := l.attempts.insert ip entry })

/-- The times that are recorded for an address. -/
def LoginRateLimiter.attemptsOf (l : LoginRateLimiter) (ip : IpAddr) : List ℕ := (l.attempts.lookup ip).getD []

/-- `record_failure`. -/
def LoginRateLimiter.recordFailure (l : LoginRateLimiter) (ip : IpAddr) (now : ℕ) : LoginRateLimiter where
  attempts := l.attempts.insert ip (l.attemptsOf ip ++ [now])
  globalAttempts := l.globalAttempts ++ [now]

/-- `record_success`. -/
def LoginRateLimiter.recordSuccess (l : LoginRateLimiter) (ip : IpAddr) : LoginRateLimiter :=
  { l with attempts := l.attempts.erase ip }

/-! ## The handlers -/

inductive AuthRequest where
  | login (ip : IpAddr)
  | change (newPassword : String)
deriving DecidableEq

/-- Where a handler waits. -/
inductive AuthStage where
  /-- For the verification of the password. -/
  | verifying
  /-- For the hash of the new password. -/
  | hashing
  /-- It has returned, or was dropped. -/
  | done
deriving DecidableEq

structure AuthTask where
  request : AuthRequest
  /-- What the verification finds; an error counts as `false`. -/
  valid : Bool
  stage : AuthStage
  /-- Its blocking task is computing Argon2. -/
  computing : Bool
deriving DecidableEq

/-- The handler holds the permit of `ADMIN_AUTH_CPU`. -/
def AuthTask.permit (t : AuthTask) : Bool :=
  match t.request, t.stage with
  | .login _, .verifying => true
  | .change _, .hashing => true
  | _, _ => false

/-- A password of a login that was verified. -/
structure Verification where
  ip : IpAddr
  time : ℕ
  valid : Bool

structure AuthServer where
  /-- `admin_auth` holds credentials. -/
  initialized : Bool
  limiter : LoginRateLimiter
  /-- The free permits of `ADMIN_AUTH_CPU`. -/
  permits : ℕ
  tasks : List AuthTask
  clock : ℕ
  /-- What the logins have verified, the newest first. -/
  verified : List Verification

def AuthServer.start (initialized : Bool) : AuthServer := ⟨initialized, .new, 1, [], 0, []⟩

inductive AuthEvent where
  /-- A request arrives, with a password that is valid or not. -/
  | login (ip : IpAddr) (valid : Bool) (now : ℕ)
  | change (newPassword : String) (valid : Bool)
  /-- The blocking task of a request is done. -/
  | computed (i : ℕ) (now : ℕ)
  /-- The handler goes on with its result. -/
  | resume (i : ℕ) (now : ℕ)
  /-- The client has disconnected, and the handler is dropped. -/
  | drop (i : ℕ)

/-- A handler goes on to a stage. -/
def AuthServer.moveTo (s : AuthServer) (i : ℕ) (t : AuthTask) (stage : AuthStage) (computing : Bool) : AuthServer :=
  { s with tasks := s.tasks.set i { t with stage := stage, computing := computing } }

/-- A handler is over, and its permit is free. -/
def AuthServer.leave (s : AuthServer) (i : ℕ) (t : AuthTask) : AuthServer :=
  { s.moveTo i t .done t.computing with permits := s.permits + if t.permit then 1 else 0 }

/-- The checks of `login_handler`; the limiter forgets what is too old. -/
def AuthServer.admits (s : AuthServer) (ip : IpAddr) (now : ℕ) : Bool :=
  (s.limiter.isAllowed ip now).1 && s.initialized && decide (0 < s.permits)

/-- `change_password_handler` after a good verification: the rules, and then the permit. -/
def AuthServer.startsHash (s : AuthServer) (t : AuthTask) : Bool :=
  match t.request, t.stage with
  | .change newPassword, .verifying =>
    t.valid && (validatePasswordRules newPassword).toOption.isSome && decide (0 < s.permits)
  | _, _ => false

/-- One step. -/
def AuthServer.step (s : AuthServer) : AuthEvent → Option AuthServer
  | .login ip valid now =>
    if now < s.clock then none
    else
      let s' := { s with clock := now, limiter := (s.limiter.isAllowed ip now).2 }
      if s.admits ip now then
        some { s' with permits := s.permits - 1, tasks := s.tasks ++ [⟨.login ip, valid, .verifying, true⟩] }
      else some s'
  | .change newPassword valid =>
    if s.initialized then some { s with tasks := s.tasks ++ [⟨.change newPassword, valid, .verifying, true⟩] }
    else some s
  | .computed i now => match s.tasks[i]? with
    | none => none
    | some t =>
      if now < s.clock ∨ t.computing = false then none
      else
        let s' := { s.moveTo i t t.stage false with clock := now }
        match t.request with
        | .login ip => some { s' with verified := ⟨ip, now, t.valid⟩ :: s.verified }
        | .change _ => some s'
  | .resume i now => match s.tasks[i]? with
    | none => none
    | some t =>
      if now < s.clock ∨ t.computing = true ∨ t.stage = .done then none
      else
        let s' := { s with clock := now }
        match t.request with
        | .login ip =>
          let limiter := if t.valid then s.limiter.recordSuccess ip else s.limiter.recordFailure ip now
          some ({ s' with limiter := limiter }.leave i t)
        | .change _ =>
          if s.startsHash t then some { s'.moveTo i t .hashing true with permits := s.permits - 1 }
          else some (s'.leave i t)
  | .drop i => match s.tasks[i]? with
    | none => none
    | some t => if t.stage = .done then none else some (s.leave i t)

/-! ## What the limiter means to bound -/

/-- The times of the wrong passwords. -/
def failures (verified : List Verification) : List ℕ := (verified.filter fun v => !v.valid).map (·.time)

/-- The times of the wrong passwords of an address since its last success. -/
def failuresSince (ip : IpAddr) : List Verification → List ℕ
  | [] => []
  | v :: verified =>
    if v.ip ≠ ip then failuresSince ip verified
    else if v.valid then [] else v.time :: failuresSince ip verified

/-- In any window of 300 seconds at most 5 wrong passwords of an address were verified since its last success,
and at most 20 of all addresses. -/
def AuthServer.Bounded (s : AuthServer) : Prop :=
  (∀ ip w, within loginWindow w (failuresSince ip s.verified) ≤ 5) ∧ ∀ w, within loginWindow w (failures s.verified) ≤ 20

/-- The handler of a login is waiting for the verification of a wrong password, or has not recorded it yet. -/
def AuthTask.failing (t : AuthTask) : Bool :=
  match t.request, t.stage with
  | .login _, .verifying => !t.valid
  | _, _ => false

/-- No handler is dropped while it verifies a wrong password. -/
def AuthServer.Stays (s : AuthServer) : AuthEvent → Prop
  | .drop i => ∀ t, s.tasks[i]? = some t → t.failing = false
  | _ => True

/-! ## What runs at the same time -/

/-- The computations that run now. -/
def AuthServer.running (s : AuthServer) : ℕ := s.tasks.countP AuthTask.computing

/-- A computation runs for which no handler holds the permit: the verification of a password change, or one whose
handler was dropped. -/
def AuthTask.stray (t : AuthTask) : Bool := t.computing && !t.permit

/-- No computation starts while a stray one runs, and no password change starts its verification while any runs. -/
def AuthServer.Apart (s : AuthServer) : AuthEvent → Prop
  | .login ip _ now => s.admits ip now = true → ∀ t ∈ s.tasks, t.stray = false
  | .change _ _ => s.initialized = true → ∀ t ∈ s.tasks, t.computing = false
  | .resume i _ => ∀ t, s.tasks[i]? = some t → s.startsHash t = true → ∀ t ∈ s.tasks, t.stray = false
  | _ => True

/-! ## Steps -/

/-- What a step does. -/
inductive AuthServer.Moves (s : AuthServer) : AuthEvent → AuthServer → Prop
  | refused (ip : IpAddr) (valid : Bool) {now : ℕ} (hnow : s.clock ≤ now) (h : s.admits ip now = false) :
    Moves s (.login ip valid now) { s with clock := now, limiter := (s.limiter.isAllowed ip now).2 }
  | admitted (ip : IpAddr) (valid : Bool) {now : ℕ} (hnow : s.clock ≤ now) (h : s.admits ip now = true) :
    Moves s (.login ip valid now) { s with
      clock := now, limiter := (s.limiter.isAllowed ip now).2, permits := s.permits - 1
      tasks := s.tasks ++ [⟨.login ip, valid, .verifying, true⟩] }
  | ignored (newPassword : String) (valid : Bool) (h : s.initialized = false) : Moves s (.change newPassword valid) s
  | changing (newPassword : String) (valid : Bool) (h : s.initialized = true) :
    Moves s (.change newPassword valid) { s with
      tasks := s.tasks ++ [⟨.change newPassword, valid, .verifying, true⟩] }
  | verified {i now : ℕ} {t : AuthTask} {ip : IpAddr} (hnow : s.clock ≤ now) (ht : s.tasks[i]? = some t)
      (hc : t.computing = true) (hr : t.request = .login ip) :
    Moves s (.computed i now) { s.moveTo i t t.stage false with
      clock := now, verified := ⟨ip, now, t.valid⟩ :: s.verified }
  | computed {i now : ℕ} {t : AuthTask} {newPassword : String} (hnow : s.clock ≤ now) (ht : s.tasks[i]? = some t)
      (hc : t.computing = true) (hr : t.request = .change newPassword) :
    Moves s (.computed i now) { s.moveTo i t t.stage false with clock := now }
  | decided {i now : ℕ} {t : AuthTask} {ip : IpAddr} (hnow : s.clock ≤ now) (ht : s.tasks[i]? = some t)
      (hc : t.computing = false) (hstage : t.stage ≠ .done) (hr : t.request = .login ip) :
    Moves s (.resume i now) ({ s with
      clock := now
      limiter := if t.valid then s.limiter.recordSuccess ip else s.limiter.recordFailure ip now }.leave i t)
  | hashes {i now : ℕ} {t : AuthTask} (hnow : s.clock ≤ now) (ht : s.tasks[i]? = some t) (hc : t.computing = false)
      (h : s.startsHash t = true) :
    Moves s (.resume i now) { s.moveTo i t .hashing true with clock := now, permits := s.permits - 1 }
  | returned {i now : ℕ} {t : AuthTask} {newPassword : String} (hnow : s.clock ≤ now) (ht : s.tasks[i]? = some t)
      (hr : t.request = .change newPassword) (h : s.startsHash t = false) :
    Moves s (.resume i now) ({ s with clock := now }.leave i t)
  | dropped {i : ℕ} {t : AuthTask} (ht : s.tasks[i]? = some t) (hstage : t.stage ≠ .done) :
    Moves s (.drop i) (s.leave i t)

section

variable {s s' : AuthServer} {e : AuthEvent} {t : AuthTask} {i : ℕ}

theorem AuthServer.step_moves (h : s.step e = some s') : s.Moves e s' := by
  cases e with
  | login ip valid now =>
    simp only [AuthServer.step] at h
    split_ifs at h with hnow hadmits
    · obtain rfl := Option.some.inj h
      exact .admitted ip valid (not_lt.mp hnow) hadmits
    · obtain rfl := Option.some.inj h
      exact .refused ip valid (not_lt.mp hnow) (Bool.not_eq_true _ ▸ hadmits)
  | change newPassword valid =>
    simp only [AuthServer.step] at h
    split_ifs at h with hinit
    · obtain rfl := Option.some.inj h
      exact .changing newPassword valid hinit
    · obtain rfl := Option.some.inj h
      exact .ignored newPassword valid (Bool.not_eq_true _ ▸ hinit)
  | computed i now =>
    simp only [AuthServer.step] at h
    cases ht : s.tasks[i]? with
    | none =>
      rw [ht] at h
      cases h
    | some t =>
      rw [ht] at h
      dsimp only at h
      split_ifs at h with hgo
      obtain ⟨hnow, hc⟩ := not_or.mp hgo
      cases hr : t.request with
      | login ip =>
        rw [hr] at h
        obtain rfl := Option.some.inj h
        exact .verified (not_lt.mp hnow) ht (Bool.not_eq_false _ ▸ hc) hr
      | change newPassword =>
        rw [hr] at h
        obtain rfl := Option.some.inj h
        exact .computed (not_lt.mp hnow) ht (Bool.not_eq_false _ ▸ hc) hr
  | resume i now =>
    simp only [AuthServer.step] at h
    cases ht : s.tasks[i]? with
    | none =>
      rw [ht] at h
      cases h
    | some t =>
      rw [ht] at h
      dsimp only at h
      by_cases hgo : now < s.clock ∨ t.computing = true ∨ t.stage = .done
      · rw [if_pos hgo] at h
        cases h
      rw [if_neg hgo] at h
      obtain ⟨hnow, hgo⟩ := not_or.mp hgo
      obtain ⟨hc, hstage⟩ := not_or.mp hgo
      have hc : t.computing = false := Bool.not_eq_true _ ▸ hc
      cases hr : t.request with
      | login ip =>
        rw [hr] at h
        obtain rfl := Option.some.inj h
        exact .decided (not_lt.mp hnow) ht hc hstage hr
      | change newPassword =>
        rw [hr] at h
        dsimp only at h
        split_ifs at h with hstarts
        · obtain rfl := Option.some.inj h
          exact .hashes (not_lt.mp hnow) ht hc hstarts
        · obtain rfl := Option.some.inj h
          exact .returned (not_lt.mp hnow) ht hr (Bool.not_eq_true _ ▸ hstarts)
  | drop i =>
    simp only [AuthServer.step] at h
    cases ht : s.tasks[i]? with
    | none =>
      rw [ht] at h
      cases h
    | some t =>
      rw [ht] at h
      dsimp only at h
      split_ifs at h with hstage
      obtain rfl := Option.some.inj h
      exact .dropped ht hstage

/-! ## Permits -/

/-- Every permit is free or held by a handler. -/
def AuthServer.Permitted (s : AuthServer) : Prop := s.tasks.countP AuthTask.permit + s.permits = 1

@[simp] theorem AuthTask.permit_done (t : AuthTask) (computing : Bool) :
    ({ t with stage := .done, computing := computing } : AuthTask).permit = false := by
  rw [AuthTask.permit]
  cases t.request <;> rfl

/-- A handler that goes on keeps the permits balanced if it takes or gives what the new stage needs. -/
theorem AuthServer.Permitted.set (h : s.Permitted) (ht : s.tasks[i]? = some t) {t' : AuthTask} {permits : ℕ}
    (hp : permits + (if t'.permit then 1 else 0) = s.permits + if t.permit then 1 else 0) :
    (s.tasks.set i t').countP AuthTask.permit + permits = 1 := by
  have hset := countP_set AuthTask.permit ht t'
  have hsum : s.tasks.countP AuthTask.permit + s.permits = 1 := h
  omega

theorem AuthServer.Permitted.leave (h : s.Permitted) (ht : s.tasks[i]? = some t) : (s.leave i t).Permitted := by
  refine h.set ht ?_
  rw [t.permit_done t.computing, if_neg Bool.false_ne_true, Nat.add_zero]
  rfl

/-- A free permit is held by no handler. -/
theorem AuthServer.Permitted.free (h : s.Permitted) (hfree : 0 < s.permits) : ∀ t ∈ s.tasks, t.permit = false := by
  have hsum : s.tasks.countP AuthTask.permit + s.permits = 1 := h
  have hzero : s.tasks.countP AuthTask.permit = 0 := by omega
  intro t ht
  simpa using List.countP_eq_zero.mp hzero t ht

theorem AuthServer.permits_of_admits {ip : IpAddr} {now : ℕ} (h : s.admits ip now = true) : 0 < s.permits := by
  simp only [AuthServer.admits, Bool.and_eq_true, decide_eq_true_eq] at h
  exact h.2

theorem AuthServer.startsHash_change (h : s.startsHash t = true) :
    ∃ newPassword, t.request = .change newPassword ∧ t.stage = .verifying ∧ 0 < s.permits := by
  rw [AuthServer.startsHash] at h
  split at h
  · next newPassword hr hstage =>
    simp only [Bool.and_eq_true, decide_eq_true_eq] at h
    exact ⟨newPassword, hr, hstage, h.2⟩
  · cases h

theorem AuthServer.Moves.permitted (hm : s.Moves e s') (h : s.Permitted) : s'.Permitted := by
  have hsum : s.tasks.countP AuthTask.permit + s.permits = 1 := h
  cases hm with
  | refused ip valid hnow hadmits => exact h
  | admitted ip valid hnow hadmits =>
    have := AuthServer.permits_of_admits hadmits
    show (s.tasks ++ [_]).countP AuthTask.permit + (s.permits - 1) = 1
    rw [List.countP_append, List.countP_singleton]
    show s.tasks.countP AuthTask.permit + 1 + (s.permits - 1) = 1
    omega
  | ignored newPassword valid hinit => exact h
  | changing newPassword valid hinit =>
    show (s.tasks ++ [_]).countP AuthTask.permit + s.permits = 1
    rw [List.countP_append, List.countP_singleton]
    exact h
  | verified hnow ht hc hr => exact h.set ht rfl
  | computed hnow ht hc hr => exact h.set ht rfl
  | decided hnow ht hc hstage hr => exact AuthServer.Permitted.leave (s := { s with clock := _, limiter := _ }) h ht
  | @hashes i now t hnow ht hc hstarts =>
    obtain ⟨newPassword, hr, hstage, hfree⟩ := AuthServer.startsHash_change hstarts
    have hold : t.permit = false := by rw [AuthTask.permit, hr, hstage]
    have hnew : ({ t with stage := .hashing, computing := true } : AuthTask).permit = true := by
      simp only [AuthTask.permit, hr]
    refine h.set ht ?_
    rw [hold, hnew, if_pos rfl, if_neg Bool.false_ne_true]
    show s.permits - 1 + 1 = s.permits + 0
    omega
  | returned hnow ht hr hstarts => exact AuthServer.Permitted.leave (s := { s with clock := _ }) h ht
  | dropped ht hstage => exact h.leave ht

theorem AuthServer.start_permitted (initialized : Bool) : (AuthServer.start initialized).Permitted := rfl

/-! ## Computations -/

/-- While a permit is free, the computations that run are strays. -/
theorem AuthServer.Permitted.stray_iff (h : s.Permitted) (hfree : 0 < s.permits) :
    (∀ t ∈ s.tasks, t.stray = false) ↔ s.running = 0 := by
  rw [AuthServer.running, List.countP_eq_zero]
  refine forall₂_congr fun t ht => ?_
  rw [AuthTask.stray, h.free hfree t ht, Bool.not_false, Bool.and_true, Bool.not_eq_true]

theorem AuthServer.running_eq_zero : s.running = 0 ↔ ∀ t ∈ s.tasks, t.computing = false := by
  rw [AuthServer.running, List.countP_eq_zero]
  exact forall₂_congr fun t _ => Bool.not_eq_true _ ▸ Iff.rfl

/-- A computation that starts runs alone if none runs. -/
theorem running_succ {n : ℕ} : n + 1 ≤ 1 ↔ n = 0 := by omega

theorem AuthServer.running_set (ht : s.tasks[i]? = some t) (t' : AuthTask) :
    (s.tasks.set i t').countP AuthTask.computing + (if t.computing then 1 else 0) =
      s.running + if t'.computing then 1 else 0 :=
  countP_set AuthTask.computing ht t'

theorem AuthServer.running_done (ht : s.tasks[i]? = some t) (hc : t.computing = true) :
    (s.moveTo i t t.stage false).running ≤ s.running := by
  have hset := AuthServer.running_set ht { t with computing := false }
  rw [hc, if_pos rfl] at hset
  exact (Nat.le_succ _).trans hset.le

theorem AuthServer.leave_running (ht : s.tasks[i]? = some t) : (s.leave i t).running = s.running := by
  have hset := AuthServer.running_set ht { t with stage := .done }
  exact Nat.add_right_cancel hset

/-- **A step keeps the computations apart** exactly when it does not let them overlap. -/
theorem AuthServer.Moves.apart_iff (hm : s.Moves e s') (h : s.Permitted) (hrunning : s.running ≤ 1) :
    s'.running ≤ 1 ↔ s.Apart e := by
  cases hm with
  | refused ip valid hnow hadmits =>
    exact ⟨fun _ h => absurd (hadmits.symm.trans h) Bool.false_ne_true, fun _ => hrunning⟩
  | admitted ip valid hnow hadmits =>
    show (s.tasks ++ [_]).countP AuthTask.computing ≤ 1 ↔ (s.admits ip _ = true → _)
    rw [List.countP_append, List.countP_singleton, h.stray_iff (AuthServer.permits_of_admits hadmits)]
    exact running_succ.trans ⟨fun h _ => h, fun h => h hadmits⟩
  | ignored newPassword valid hinit =>
    exact ⟨fun _ h => absurd (hinit.symm.trans h) Bool.false_ne_true, fun _ => hrunning⟩
  | changing newPassword valid hinit =>
    show (s.tasks ++ [_]).countP AuthTask.computing ≤ 1 ↔ (s.initialized = true → _)
    rw [List.countP_append, List.countP_singleton, ← AuthServer.running_eq_zero]
    exact running_succ.trans ⟨fun h _ => h, fun h => h hinit⟩
  | verified hnow ht hc hr =>
    exact iff_of_true ((AuthServer.running_done ht hc).trans hrunning) trivial
  | computed hnow ht hc hr =>
    exact iff_of_true ((AuthServer.running_done ht hc).trans hrunning) trivial
  | @decided i now t ip hnow ht hc hstage hr =>
    refine iff_of_true ((AuthServer.leave_running (s := { s with clock := _, limiter := _ }) ht).le.trans hrunning) ?_
    intro t' ht' hstarts
    obtain rfl := Option.some.inj (ht.symm.trans ht')
    obtain ⟨newPassword, hr', -⟩ := AuthServer.startsHash_change hstarts
    cases hr.symm.trans hr'
  | @hashes i now t hnow ht hc hstarts =>
    obtain ⟨newPassword, -, -, hfree⟩ := AuthServer.startsHash_change hstarts
    have hset := AuthServer.running_set ht { t with stage := .hashing, computing := true }
    rw [hc, if_neg Bool.false_ne_true] at hset
    show (s.tasks.set i { t with stage := .hashing, computing := true }).countP AuthTask.computing ≤ 1 ↔
      (∀ t, s.tasks[i]? = some t → s.startsHash t = true → _)
    rw [h.stray_iff hfree, show (s.tasks.set i { t with stage := .hashing, computing := true }).countP
      AuthTask.computing = s.running + 1 from hset]
    refine running_succ.trans ⟨fun h _ _ _ => h, fun h => h t ht hstarts⟩
  | @returned i now t newPassword hnow ht hr hstarts =>
    refine iff_of_true ((AuthServer.leave_running (s := { s with clock := _ }) ht).le.trans hrunning) ?_
    intro t' ht' hstarts'
    obtain rfl := Option.some.inj (ht.symm.trans ht')
    exact absurd (hstarts.symm.trans hstarts') Bool.false_ne_true
  | dropped ht hstage => exact iff_of_true ((AuthServer.leave_running ht).le.trans hrunning) trivial

/-- **One Argon2 at a time.** At most one computation runs all along a run if and only if none starts while another
runs without a permit, and no password change begins to verify while any runs. -/
theorem argon2_alone_iff (initialized : Bool) (events : List AuthEvent) :
    Run.Always AuthServer.step (fun s => s.running ≤ 1) (AuthServer.start initialized) events ↔
      Run.Meets AuthServer.step AuthServer.Apart (AuthServer.start initialized) events :=
  Run.always_iff_meets (I := AuthServer.Permitted) (fun _ _ _ h _ _ hstep => (AuthServer.step_moves hstep).permitted h)
    (fun _ _ _ h hrunning hstep => (AuthServer.step_moves hstep).apart_iff h hrunning)
    (AuthServer.start_permitted initialized) (Nat.zero_le 1) events

/-- A client sends a login and disconnects; the next login is verified beside it. -/
theorem argon2_overlap : ¬ ∀ (initialized : Bool) (events : List AuthEvent),
    Run.Always AuthServer.step (fun s => s.running ≤ 1) (AuthServer.start initialized) events := by
  intro h
  have hrun := h true [.login (.v4 .localhost) false 0, .drop 0, .login (.v4 .localhost) false 0]
  exact absurd (hrun.last rfl) (by decide)

end

/-! ## The limiter and its logins -/

section

variable {s s' : AuthServer} {e : AuthEvent} {t t' : AuthTask} {i j N clock now : ℕ} {ip ip' : IpAddr}
  {p : IpAddr → Bool} {l : LoginRateLimiter} {recorded failed : List ℕ} {tasks : List AuthTask}

/-- A login of one of the addresses `p` is under way. -/
def AuthTask.logsIn (p : IpAddr → Bool) (t : AuthTask) : Bool :=
  match t.request, t.stage with
  | .login ip, .verifying => p ip
  | _, _ => false

/-- Its password was found wrong, which is not recorded yet. -/
def AuthTask.unrecorded (p : IpAddr → Bool) (t : AuthTask) : Bool := t.logsIn p && (!t.computing && !t.valid)

/-- The records about the addresses `p` cover their failures. -/
def Keeps (N clock : ℕ) (p : IpAddr → Bool) (tasks : List AuthTask) (recorded failed : List ℕ) : Prop :=
  Ledger loginWindow N clock recorded failed (tasks.countP (AuthTask.logsIn p)) (tasks.countP (AuthTask.unrecorded p))

/-- The addresses that are one address. -/
def isIp (ip : IpAddr) : IpAddr → Bool := fun ip' => decide (ip' = ip)

/-- What holds of the limiter while no handler is dropped that verifies a wrong password. -/
structure AuthServer.Limited (s : AuthServer) : Prop where
  permitted : s.Permitted
  all : Keeps 20 s.clock (fun _ => true) s.tasks s.limiter.globalAttempts (failures s.verified)
  each : ∀ ip, Keeps 5 s.clock (isIp ip) s.tasks (s.limiter.attemptsOf ip) (failuresSince ip s.verified)
  logins : ∀ t ∈ s.tasks, ∀ ip, t.request = .login ip → t.stage ≠ .hashing
  waiting : ∀ t ∈ s.tasks, ∀ ip, t.request = .login ip → t.computing = true → t.valid = false → t.stage ≠ .done
  /-- After a good password nothing counts against its address. -/
  settled : ∀ t ∈ s.tasks, ∀ ip, t.request = .login ip → t.stage = .verifying → t.computing = false →
    t.valid = true → failuresSince ip s.verified = []

theorem loginWindow_pos : 0 < loginWindow := by decide

theorem isAllowed_global (l : LoginRateLimiter) (ip : IpAddr) (now : ℕ) :
    (l.isAllowed ip now).2.globalAttempts = recentAttempts now l.globalAttempts := by
  rw [LoginRateLimiter.isAllowed]
  split_ifs
  · rfl
  · split
    · rfl
    · rfl

/-- The records of an address are those before, or what is recent of them. -/
theorem isAllowed_attempts (l : LoginRateLimiter) (ip : IpAddr) (now : ℕ) (ip' : IpAddr) :
    (l.isAllowed ip now).2.attemptsOf ip' = l.attemptsOf ip' ∨
      (l.isAllowed ip now).2.attemptsOf ip' = recentAttempts now (l.attemptsOf ip') := by
  rw [LoginRateLimiter.isAllowed]
  split_ifs
  · exact .inl rfl
  · split
    · exact .inl rfl
    · next entry hentry =>
      by_cases hip : ip' = ip
      · subst hip
        right
        simp only [LoginRateLimiter.attemptsOf, AList.lookup_insert]
        rw [hentry]
        rfl
      · left
        simp only [LoginRateLimiter.attemptsOf, AList.lookup_insert_ne hip]

/-- A login that is allowed has room in both records. -/
theorem isAllowed_room (h : (l.isAllowed ip now).1 = true) :
    (recentAttempts now l.globalAttempts).length < 20 ∧ (recentAttempts now (l.attemptsOf ip)).length < 5 ∧
      (l.isAllowed ip now).2.attemptsOf ip = recentAttempts now (l.attemptsOf ip) := by
  rw [LoginRateLimiter.isAllowed] at h ⊢
  dsimp only at h ⊢
  split_ifs at h ⊢ with hglobal
  refine ⟨not_le.mp hglobal, ?_⟩
  cases hentry : l.attempts.lookup ip with
  | none =>
    have hnil : l.attemptsOf ip = [] := by rw [LoginRateLimiter.attemptsOf, hentry, Option.getD_none]
    rw [hnil]
    exact ⟨Nat.zero_lt_succ 4, hnil⟩
  | some entry =>
    have hsome : l.attemptsOf ip = entry := by rw [LoginRateLimiter.attemptsOf, hentry, Option.getD_some]
    rw [hentry] at h
    rw [hsome]
    refine ⟨by simpa using h, ?_⟩
    simp only [LoginRateLimiter.attemptsOf, AList.lookup_insert, Option.getD_some]

theorem recordFailure_attempts (l : LoginRateLimiter) (ip : IpAddr) (now : ℕ) (ip' : IpAddr) :
    (l.recordFailure ip now).attemptsOf ip' = if ip' = ip then l.attemptsOf ip' ++ [now] else l.attemptsOf ip' := by
  rw [LoginRateLimiter.recordFailure, LoginRateLimiter.attemptsOf]
  split_ifs with hip
  · subst hip
    rw [AList.lookup_insert, Option.getD_some]
  · rw [AList.lookup_insert_ne hip, LoginRateLimiter.attemptsOf]

theorem recordSuccess_attempts (l : LoginRateLimiter) (ip ip' : IpAddr) :
    (l.recordSuccess ip).attemptsOf ip' = if ip' = ip then [] else l.attemptsOf ip' := by
  rw [LoginRateLimiter.recordSuccess, LoginRateLimiter.attemptsOf]
  split_ifs with hip
  · subst hip
    rw [AList.lookup_erase, Option.getD_none]
  · rw [AList.lookup_erase_ne hip, LoginRateLimiter.attemptsOf]

/-! ### Counting the logins under way -/

theorem AuthTask.logsIn_change {newPassword : String} (p : IpAddr → Bool) (hr : t.request = .change newPassword) :
    t.logsIn p = false := by rw [AuthTask.logsIn, hr]

theorem AuthTask.logsIn_login (p : IpAddr → Bool) (hr : t.request = .login ip) (hs : t.stage = .verifying) :
    t.logsIn p = p ip := by rw [AuthTask.logsIn, hr, hs]

theorem AuthTask.logsIn_done (p : IpAddr → Bool) (hs : t.stage = .done) : t.logsIn p = false := by
  rw [AuthTask.logsIn, hs]
  cases t.request <;> rfl

theorem AuthTask.permit_of_logsIn (h : t.logsIn p = true) : t.permit = true := by
  rw [AuthTask.logsIn] at h
  rw [AuthTask.permit]
  split at h
  · next hr hs => rw [hr, hs]
  · cases h

theorem unrecorded_le (p : IpAddr → Bool) (tasks : List AuthTask) :
    tasks.countP (AuthTask.unrecorded p) ≤ tasks.countP (AuthTask.logsIn p) :=
  List.countP_mono_left fun _ _ h => (Bool.and_eq_true _ _ ▸ h : _ ∧ _).1

theorem countP_set_same {q : AuthTask → Bool} (ht : tasks[i]? = some t) (h : q t' = q t) :
    (tasks.set i t').countP q = tasks.countP q := by
  have hset := countP_set q ht t'
  rw [h] at hset
  exact Nat.add_right_cancel hset

/-- A step of a task that is no login of these addresses, before and after. -/
theorem Keeps.set (h : Keeps N clock p tasks recorded failed) (ht : tasks[i]? = some t)
    (hlogs : t'.logsIn p = t.logsIn p) (hunrec : t'.unrecorded p = t.unrecorded p) :
    Keeps N clock p (tasks.set i t') recorded failed := by
  rw [Keeps, countP_set_same ht hlogs, countP_set_same ht hunrec]
  exact h

theorem Keeps.set_of_false (h : Keeps N clock p tasks recorded failed) (ht : tasks[i]? = some t)
    (hold : t.logsIn p = false) (hnew : t'.logsIn p = false) : Keeps N clock p (tasks.set i t') recorded failed :=
  h.set ht (hnew.trans hold.symm) (by rw [AuthTask.unrecorded, AuthTask.unrecorded, hold, hnew, Bool.false_and, Bool.false_and])

/-- A login is over that has failed, or is dropped before it is known to have failed. -/
theorem Keeps.leave (h : Keeps N clock p tasks recorded failed) (ht : tasks[i]? = some t)
    (hunrec : t.unrecorded p = false) : Keeps N clock p (tasks.set i { t with stage := .done }) recorded failed := by
  have hdone : ({ t with stage := .done } : AuthTask).logsIn p = false := AuthTask.logsIn_done p rfl
  cases hlogs : t.logsIn p with
  | false => exact h.set_of_false ht hlogs hdone
  | true =>
    have hlive := countP_set (AuthTask.logsIn p) ht { t with stage := .done }
    have hpending : (tasks.set i { t with stage := .done }).countP (AuthTask.unrecorded p) =
        tasks.countP (AuthTask.unrecorded p) :=
      countP_set_same ht (by rw [hunrec, AuthTask.unrecorded, hdone, Bool.false_and])
    have hle := unrecorded_le p (tasks.set i { t with stage := .done })
    rw [hlogs, hdone, if_pos rfl, if_neg Bool.false_ne_true] at hlive
    rw [Keeps, ← Nat.add_zero (tasks.countP (AuthTask.logsIn p)), ← hlive] at h
    rw [hpending] at hle
    rw [Keeps, hpending]
    exact h.leave hle

/-- A login is admitted while none is under way. -/
theorem Keeps.enter (h : Keeps N clock p tasks recorded failed) (hnow : clock ≤ now)
    (hfree : ∀ t ∈ tasks, t.permit = false) (hlen : (recentAttempts now recorded).length < N) (hp : p ip = true)
    (valid : Bool) :
    Keeps N now p (tasks ++ [⟨.login ip, valid, .verifying, true⟩]) (recentAttempts now recorded) failed := by
  have hzero : tasks.countP (AuthTask.logsIn p) = 0 := by
    refine List.countP_eq_zero.mpr fun t ht hlogs => ?_
    exact absurd ((hfree t ht).symm.trans (AuthTask.permit_of_logsIn hlogs)) Bool.false_ne_true
  have hnew : (⟨.login ip, valid, .verifying, true⟩ : AuthTask).logsIn p = true := hp
  rw [Keeps, hzero] at h
  rw [Keeps, List.countP_append, List.countP_append, List.countP_singleton, List.countP_singleton, hzero, hnew,
    if_pos rfl, AuthTask.unrecorded, hnew]
  exact Ledger.enter loginWindow_pos (h.tick hnow) hlen

/-- A login that is not of these addresses comes in. -/
theorem Keeps.other (h : Keeps N clock p tasks recorded failed) (hp : p ip = false) (valid : Bool) :
    Keeps N clock p (tasks ++ [⟨.login ip, valid, .verifying, true⟩]) recorded failed := by
  have hnew : (⟨.login ip, valid, .verifying, true⟩ : AuthTask).logsIn p = false := hp
  rw [Keeps, List.countP_append, List.countP_append, List.countP_singleton, List.countP_singleton, hnew,
    if_neg Bool.false_ne_true, AuthTask.unrecorded, hnew]
  exact h

theorem Keeps.tick (h : Keeps N clock p tasks recorded failed) (hnow : clock ≤ now) :
    Keeps N now p tasks recorded failed :=
  Ledger.tick h hnow

/-- The limiter looks at its records. -/
theorem Keeps.isAllowed (h : Keeps N clock p tasks (l.attemptsOf ip') failed) (hnow : clock ≤ now) (ip : IpAddr) :
    Keeps N now p tasks ((l.isAllowed ip now).2.attemptsOf ip') failed := by
  obtain heq | heq := isAllowed_attempts l ip now ip'
  · rw [heq]
    exact h.tick hnow
  · rw [heq]
    exact Ledger.prune loginWindow_pos (h.tick hnow)

/-- The password of a login under way is found wrong. -/
theorem Keeps.fail (h : Keeps N clock p tasks recorded failed) (ht : tasks[i]? = some t) (hlogs : t.logsIn p = true)
    (hc : t.computing = true) (hvalid : t.valid = false) :
    Keeps N clock p (tasks.set i { t with computing := false }) recorded (clock :: failed) := by
  have hlive : (tasks.set i { t with computing := false }).countP (AuthTask.logsIn p) =
      tasks.countP (AuthTask.logsIn p) := countP_set_same ht rfl
  have hpending := countP_set (AuthTask.unrecorded p) ht { t with computing := false }
  have hold : t.unrecorded p = false := by rw [AuthTask.unrecorded, hc, Bool.not_true, Bool.false_and, Bool.and_false]
  have hnew : ({ t with computing := false } : AuthTask).unrecorded p = true := by
    show (t.logsIn p && (!false && !t.valid)) = true
    rw [hlogs, hvalid]
    rfl
  have hle := unrecorded_le p (tasks.set i { t with computing := false })
  rw [hold, hnew, if_pos rfl, if_neg Bool.false_ne_true, Nat.add_zero] at hpending
  rw [hlive, hpending] at hle
  rw [Keeps, hlive, hpending]
  exact Ledger.fail h hle

/-- The failure of a login is recorded. -/
theorem Keeps.record (h : Keeps N clock p tasks recorded failed) (ht : tasks[i]? = some t)
    (hunrec : t.unrecorded p = true) :
    Keeps N clock p (tasks.set i { t with stage := .done }) (recorded ++ [clock]) failed := by
  have hdone : ({ t with stage := .done } : AuthTask).logsIn p = false := AuthTask.logsIn_done p rfl
  have hlogs : t.logsIn p = true := (Bool.and_eq_true _ _ ▸ hunrec : _ ∧ _).1
  have hlive := countP_set (AuthTask.logsIn p) ht { t with stage := .done }
  have hpending := countP_set (AuthTask.unrecorded p) ht { t with stage := .done }
  have hnew : ({ t with stage := .done } : AuthTask).unrecorded p = false := by
    rw [AuthTask.unrecorded, hdone, Bool.false_and]
  rw [hlogs, hdone, if_pos rfl, if_neg Bool.false_ne_true] at hlive
  rw [hunrec, hnew, if_pos rfl, if_neg Bool.false_ne_true] at hpending
  rw [Keeps, ← Nat.add_zero (tasks.countP (AuthTask.logsIn p)), ← hlive,
    ← Nat.add_zero (tasks.countP (AuthTask.unrecorded p)), ← hpending] at h
  exact Ledger.record h

/-! ### Failures -/

theorem failuresSince_other {verified : List Verification} (hip : ip ≠ ip') (now : ℕ) (valid : Bool) :
    failuresSince ip' (⟨ip, now, valid⟩ :: verified) = failuresSince ip' verified := by
  rw [failuresSince, if_pos hip]

theorem failuresSince_valid {verified : List Verification} (ip : IpAddr) (now : ℕ) :
    failuresSince ip (⟨ip, now, true⟩ :: verified) = [] := by
  rw [failuresSince, if_neg (not_not.mpr rfl), if_pos rfl]

theorem failuresSince_wrong {verified : List Verification} (ip : IpAddr) (now : ℕ) :
    failuresSince ip (⟨ip, now, false⟩ :: verified) = now :: failuresSince ip verified := by
  rw [failuresSince, if_neg (not_not.mpr rfl), if_neg Bool.false_ne_true]

/-! ### One step -/

theorem isIp_self (ip : IpAddr) : isIp ip ip = true := decide_eq_true rfl

theorem isIp_ne (h : ip ≠ ip') : isIp ip' ip = false := decide_eq_false h

/-- A property of all tasks after one of them has changed. -/
theorem forall_mem_set {P : AuthTask → Prop} (h : ∀ t ∈ tasks, P t) (hnew : P t') : ∀ t ∈ tasks.set i t', P t := by
  intro x hx
  obtain hx | rfl := List.mem_or_eq_of_mem_set hx
  · exact h x hx
  · exact hnew

theorem forall_mem_concat {P : AuthTask → Prop} (h : ∀ t ∈ tasks, P t) (hnew : P t') : ∀ t ∈ tasks ++ [t'], P t := by
  intro x hx
  obtain hx | hx := List.mem_append.mp hx
  · exact h x hx
  · rw [List.mem_singleton.mp hx]
    exact hnew

/-- Two handlers never hold the permit. -/
theorem AuthServer.Permitted.unique (h : s.Permitted) (ht : s.tasks[i]? = some t) (hp : t.permit = true)
    (ht' : s.tasks[j]? = some t') (hp' : t'.permit = true) : i = j := by
  by_contra hij
  have hset := countP_set AuthTask.permit ht { t with stage := .done }
  have hother : (s.tasks.set i { t with stage := .done })[j]? = some t' := by rwa [List.getElem?_set_ne hij]
  have hset' := countP_set AuthTask.permit hother { t' with stage := .done }
  have hdone := t.permit_done t.computing
  have hdone' := t'.permit_done t'.computing
  rw [hp, hdone, if_pos rfl, if_neg Bool.false_ne_true] at hset
  rw [hp', hdone', if_pos rfl, if_neg Bool.false_ne_true] at hset'
  have hsum : s.tasks.countP AuthTask.permit + s.permits = 1 := h
  omega

/-- A login comes in and is admitted. -/
theorem AuthServer.Limited.admitted (h : s.Limited) (hnow : s.clock ≤ now) (hadmits : s.admits ip now = true)
    (valid : Bool) : AuthServer.Limited { s with
      clock := now, limiter := (s.limiter.isAllowed ip now).2, permits := s.permits - 1
      tasks := s.tasks ++ [⟨.login ip, valid, .verifying, true⟩] } := by
  have hpermitted := (AuthServer.Moves.admitted ip valid hnow hadmits).permitted h.permitted
  have hfree := h.permitted.free (AuthServer.permits_of_admits hadmits)
  have hallowed : (s.limiter.isAllowed ip now).1 = true := by
    simp only [AuthServer.admits, Bool.and_eq_true] at hadmits
    exact hadmits.1.1
  obtain ⟨hall, heach, hattempts⟩ := isAllowed_room hallowed
  refine ⟨hpermitted, ?_, fun ip' => ?_, ?_, ?_, ?_⟩
  · show Keeps 20 now _ _ (s.limiter.isAllowed ip now).2.globalAttempts _
    rw [isAllowed_global]
    exact h.all.enter hnow hfree hall rfl valid
  · show Keeps 5 now _ _ ((s.limiter.isAllowed ip now).2.attemptsOf ip') _
    by_cases hip : ip = ip'
    · subst hip
      rw [hattempts]
      exact (h.each ip).enter hnow hfree heach (isIp_self ip) valid
    · exact ((h.each ip').isAllowed hnow ip).other (isIp_ne hip) valid
  · exact forall_mem_concat h.logins fun _ _ => nofun
  · exact forall_mem_concat h.waiting fun _ _ _ _ => nofun
  · exact forall_mem_concat h.settled fun _ _ _ => nofun

/-- The blocking task of a login is done. -/
theorem AuthServer.Limited.verified (h : s.Limited) (hnow : s.clock ≤ now) (ht : s.tasks[i]? = some t)
    (hc : t.computing = true) (hr : t.request = .login ip) : AuthServer.Limited { s.moveTo i t t.stage false with
      clock := now, verified := ⟨ip, now, t.valid⟩ :: s.verified } := by
  have hpermitted := (AuthServer.Moves.verified hnow ht hc hr).permitted h.permitted
  have hmem := List.mem_of_getElem? ht
  have hlogins : ∀ x ∈ s.tasks.set i { t with computing := false }, ∀ ip, x.request = .login ip → x.stage ≠ .hashing :=
    forall_mem_set h.logins (h.logins t hmem)
  have hwaiting : ∀ x ∈ s.tasks.set i { t with computing := false }, ∀ ip, x.request = .login ip →
      x.computing = true → x.valid = false → x.stage ≠ .done := forall_mem_set h.waiting fun _ _ => nofun
  cases hvalid : t.valid with
  | true =>
    -- nothing fails, and what has failed before is forgiven
    have hkeeps : ∀ {N : ℕ} {p : IpAddr → Bool} {recorded failed : List ℕ},
        Keeps N s.clock p s.tasks recorded failed →
          Keeps N now p (s.tasks.set i { t with computing := false }) recorded failed := by
      intro N p recorded failed hk
      refine (hk.tick hnow).set ht rfl ?_
      show (t.logsIn p && (!false && !t.valid)) = (t.logsIn p && (!t.computing && !t.valid))
      simp only [hvalid, Bool.not_true, Bool.and_false]
    refine ⟨hpermitted, hkeeps h.all, fun ip' => ?_, hlogins, hwaiting, ?_⟩
    · show Keeps 5 now _ _ _ (failuresSince ip' (⟨ip, now, true⟩ :: s.verified))
      by_cases hip : ip = ip'
      · subst hip
        rw [failuresSince_valid]
        exact Ledger.forgive (hkeeps (h.each ip))
      · rw [failuresSince_other hip]
        exact hkeeps (h.each ip')
    · have hforgiven : ∀ {ip'}, (ip ≠ ip' → failuresSince ip' s.verified = []) →
          failuresSince ip' (⟨ip, now, true⟩ :: s.verified) = [] := by
        intro ip' hother
        by_cases hip : ip = ip'
        · subst hip
          exact failuresSince_valid ip now
        · rw [failuresSince_other hip, hother hip]
      refine forall_mem_set (fun x hx ip' hr' hs' hc' hv' => hforgiven fun _ => h.settled x hx ip' hr' hs' hc' hv') ?_
      intro ip' hr' _ _ _
      exact hforgiven fun hip => absurd (AuthRequest.login.inj (hr.symm.trans hr')) hip
  | false =>
    have hstage : t.stage = .verifying := by
      cases hs : t.stage with
      | verifying => rfl
      | hashing => exact absurd hs (h.logins t hmem ip hr)
      | done => exact absurd hs (h.waiting t hmem ip hr hc hvalid)
    have hkeeps : ∀ {N : ℕ} {p : IpAddr → Bool} {recorded failed : List ℕ}, p ip = true →
        Keeps N s.clock p s.tasks recorded failed →
          Keeps N now p (s.tasks.set i { t with computing := false }) recorded (now :: failed) := by
      intro N p recorded failed hp hk
      exact (hk.tick hnow).fail ht ((AuthTask.logsIn_login p hr hstage).trans hp) hc hvalid
    have hpermit : t.permit = true := by rw [AuthTask.permit, hr, hstage]
    refine ⟨hpermitted, hkeeps rfl h.all, fun ip' => ?_, hlogins, hwaiting, ?_⟩
    · show Keeps 5 now _ _ _ (failuresSince ip' (⟨ip, now, false⟩ :: s.verified))
      by_cases hip : ip = ip'
      · subst hip
        rw [failuresSince_wrong]
        exact hkeeps (isIp_self ip) (h.each ip)
      · rw [failuresSince_other hip]
        have hlogs : t.logsIn (isIp ip') = false := (AuthTask.logsIn_login _ hr hstage).trans (isIp_ne hip)
        exact ((h.each ip').tick hnow).set_of_false ht hlogs hlogs
    · -- no other login is under way
      refine forall_mem_set (fun x hx ip' hr' hs' hc' _ => ?_) fun ip' _ _ _ hv' => absurd (hvalid.symm.trans hv') nofun
      obtain ⟨j, hj⟩ := List.getElem?_of_mem hx
      have hpermit' : x.permit = true := by rw [AuthTask.permit, hr', hs']
      obtain rfl := h.permitted.unique ht hpermit hj hpermit'
      obtain rfl := Option.some.inj (ht.symm.trans hj)
      exact absurd (hc.symm.trans hc') nofun

/-- The handler of a login has its result: it records it and returns. -/
theorem AuthServer.Limited.decided (h : s.Limited) (hnow : s.clock ≤ now) (ht : s.tasks[i]? = some t)
    (hc : t.computing = false) (hstage : t.stage ≠ .done) (hr : t.request = .login ip) :
    AuthServer.Limited ({ s with
      clock := now
      limiter := if t.valid then s.limiter.recordSuccess ip else s.limiter.recordFailure ip now }.leave i t) := by
  have hpermitted := (AuthServer.Moves.decided hnow ht hc hstage hr).permitted h.permitted
  have hmem := List.mem_of_getElem? ht
  have hverifying : t.stage = .verifying := by
    cases hs : t.stage with
    | verifying => rfl
    | hashing => exact absurd hs (h.logins t hmem ip hr)
    | done => exact absurd hs hstage
  have hlogs : ∀ p, t.logsIn p = p ip := fun p => AuthTask.logsIn_login p hr hverifying
  refine ⟨hpermitted, ?_, fun ip' => ?_, forall_mem_set h.logins fun _ _ => nofun,
    forall_mem_set h.waiting fun _ _ hc' => absurd (hc.symm.trans hc') nofun, forall_mem_set h.settled fun _ _ => nofun⟩
  · show Keeps 20 now _ (s.tasks.set i { t with stage := .done })
      (if t.valid then s.limiter.recordSuccess ip else s.limiter.recordFailure ip now).globalAttempts
      (failures s.verified)
    by_cases hvalid : t.valid = true
    · rw [if_pos hvalid]
      exact (h.all.tick hnow).leave ht (by simp [AuthTask.unrecorded, hvalid])
    · rw [if_neg hvalid]
      exact (h.all.tick hnow).record ht (by simp [AuthTask.unrecorded, hlogs, hc, hvalid])
  · show Keeps 5 now _ (s.tasks.set i { t with stage := .done })
      ((if t.valid then s.limiter.recordSuccess ip else s.limiter.recordFailure ip now).attemptsOf ip')
      (failuresSince ip' s.verified)
    have hk := (h.each ip').tick hnow
    by_cases hvalid : t.valid = true
    · have hleave := hk.leave ht (by simp [AuthTask.unrecorded, hvalid])
      rw [if_pos hvalid, recordSuccess_attempts]
      split_ifs with hip
      · subst hip
        rw [h.settled t hmem ip' hr hverifying hc hvalid] at hleave ⊢
        exact Ledger.clear hleave
      · exact hleave
    · rw [if_neg hvalid, recordFailure_attempts]
      split_ifs with hip
      · subst hip
        exact hk.record ht (by simp [AuthTask.unrecorded, hlogs, hc, hvalid, isIp_self])
      · exact hk.leave ht (by simp [AuthTask.unrecorded, hlogs, isIp_ne (Ne.symm hip)])

/-- A task of a password change goes on, or a new one comes in; the limiter does not see it. -/
theorem AuthServer.Limited.change {newPassword : String} (h : s.Limited) (hnow : s.clock ≤ now)
    (ht : s.tasks[i]? = some t) (hr : t.request = .change newPassword) (hr' : t'.request = .change newPassword)
    {permits : ℕ} (hp : permits + (if t'.permit then 1 else 0) = s.permits + if t.permit then 1 else 0) :
    AuthServer.Limited { s with clock := now, permits := permits, tasks := s.tasks.set i t' } := by
  have hkeeps : ∀ {N : ℕ} {p : IpAddr → Bool} {recorded failed : List ℕ},
      Keeps N s.clock p s.tasks recorded failed → Keeps N now p (s.tasks.set i t') recorded failed :=
    fun hk => (hk.tick hnow).set_of_false ht (AuthTask.logsIn_change _ hr) (AuthTask.logsIn_change _ hr')
  have hnever : ∀ ip, t'.request ≠ .login ip := fun ip h => nomatch hr'.symm.trans h
  exact ⟨h.permitted.set ht hp, hkeeps h.all, fun ip => hkeeps (h.each ip),
    forall_mem_set h.logins fun ip hl => absurd hl (hnever ip),
    forall_mem_set h.waiting fun ip hl => absurd hl (hnever ip),
    forall_mem_set h.settled fun ip hl => absurd hl (hnever ip)⟩

/-- A handler is dropped that does not verify a wrong password. -/
theorem AuthServer.Limited.dropped (h : s.Limited) (ht : s.tasks[i]? = some t) (hfailing : t.failing = false) :
    (s.leave i t).Limited := by
  have hmem := List.mem_of_getElem? ht
  have hvalid : ∀ p, t.logsIn p = true → t.valid = true := by
    intro p hlogs
    rw [AuthTask.logsIn] at hlogs
    rw [AuthTask.failing] at hfailing
    split at hlogs
    · next hr hs =>
      rw [hr, hs] at hfailing
      simpa using hfailing
    · cases hlogs
  have hunrec : ∀ p, t.unrecorded p = false := by
    intro p
    rw [AuthTask.unrecorded]
    cases hlogs : t.logsIn p with
    | false => rfl
    | true => rw [hvalid p hlogs, Bool.not_true, Bool.and_false, Bool.and_false]
  refine ⟨h.permitted.leave ht, h.all.leave ht (hunrec _), fun ip => (h.each ip).leave ht (hunrec _),
    forall_mem_set h.logins fun _ _ => nofun, forall_mem_set h.waiting ?_, forall_mem_set h.settled fun _ _ => nofun⟩
  intro ip hr hc hv _
  have hs : t.stage = .verifying := by
    cases hs : t.stage with
    | verifying => rfl
    | hashing => exact absurd hs (h.logins t hmem ip hr)
    | done => exact absurd hs (h.waiting t hmem ip hr hc hv)
  have := hvalid (fun _ => true) (AuthTask.logsIn_login _ hr hs)
  exact absurd (hv.symm.trans this) nofun

/-- **One step.** -/
theorem AuthServer.Moves.limited (hm : s.Moves e s') (h : s.Limited) (hstays : s.Stays e) : s'.Limited := by
  cases hm with
  | @refused ip valid now hnow hadmits =>
    refine ⟨h.permitted, ?_, fun ip' => (h.each ip').isAllowed hnow ip, h.logins, h.waiting, h.settled⟩
    show Keeps 20 now _ _ (s.limiter.isAllowed ip now).2.globalAttempts _
    rw [isAllowed_global]
    exact Ledger.prune loginWindow_pos (h.all.tick hnow)
  | admitted ip valid hnow hadmits => exact h.admitted hnow hadmits valid
  | ignored newPassword valid hinit => exact h
  | changing newPassword valid hinit =>
    have hpermitted := (AuthServer.Moves.changing newPassword valid hinit).permitted h.permitted
    have hkeeps : ∀ {N : ℕ} {p : IpAddr → Bool} {recorded failed : List ℕ},
        Keeps N s.clock p s.tasks recorded failed →
          Keeps N s.clock p (s.tasks ++ [⟨.change newPassword, valid, .verifying, true⟩]) recorded failed := by
      intro N p recorded failed hk
      rw [Keeps, List.countP_append, List.countP_append, List.countP_singleton, List.countP_singleton]
      exact hk
    exact ⟨hpermitted, hkeeps h.all, fun ip => hkeeps (h.each ip), forall_mem_concat h.logins fun _ => nofun,
      forall_mem_concat h.waiting fun _ => nofun, forall_mem_concat h.settled fun _ => nofun⟩
  | verified hnow ht hc hr => exact h.verified hnow ht hc hr
  | @computed i now t newPassword hnow ht hc hr =>
    have hr' : ({ t with computing := false } : AuthTask).request = .change newPassword := hr
    exact h.change hnow ht hr hr' rfl
  | decided hnow ht hc hstage hr => exact h.decided hnow ht hc hstage hr
  | @hashes i now t hnow ht hc hstarts =>
    obtain ⟨newPassword, hr, hstage, hfree⟩ := AuthServer.startsHash_change hstarts
    have hr' : ({ t with stage := .hashing, computing := true } : AuthTask).request = .change newPassword := hr
    refine h.change hnow ht hr hr' ?_
    rw [AuthTask.permit, AuthTask.permit]
    simp only [hr, hstage, if_true, Bool.false_eq_true, if_false]
    omega
  | @returned i now t newPassword hnow ht hr hstarts =>
    have hr' : ({ t with stage := .done } : AuthTask).request = .change newPassword := hr
    refine h.change hnow ht hr hr' ?_
    rw [t.permit_done t.computing, if_neg Bool.false_ne_true, Nat.add_zero]
  | dropped ht hstage => exact h.dropped ht (hstays _ ht)

theorem AuthServer.start_limited (initialized : Bool) : (AuthServer.start initialized).Limited :=
  ⟨rfl, Ledger.nil _ _ _, fun _ => Ledger.nil _ _ _, nofun, nofun, nofun⟩

theorem AuthServer.Limited.bounded (h : s.Limited) : s.Bounded :=
  ⟨fun ip => (h.each ip).windows, h.all.windows⟩

/-- **The login limiter.** All along a run in which no handler is dropped while it verifies a wrong password, no
window of 300 seconds sees more than 5 wrong passwords of an address since its last success, nor more than 20 of all
addresses. -/
theorem logins_bounded (initialized : Bool) (events : List AuthEvent)
    (h : Run.Meets AuthServer.step AuthServer.Stays (AuthServer.start initialized) events) :
    Run.Always AuthServer.step AuthServer.Bounded (AuthServer.start initialized) events :=
  Run.always_of_meets (I := AuthServer.Limited)
    (fun _ _ _ hl hstays hstep => (AuthServer.step_moves hstep).limited hl hstays) (fun _ hl => hl.bounded)
    (AuthServer.start_limited initialized) h

/-- A client tries wrong passwords, one after the other. -/
def guesses (n : ℕ) : List AuthEvent :=
  (List.range n).flatMap fun i => [.login (.v4 .localhost) false i, .computed i i, .resume i i]

/-- It stays until each is refused. -/
theorem guesses_bounded :
    Run.Always AuthServer.step AuthServer.Bounded (AuthServer.start true) (guesses 5 ++ [.login (.v4 .localhost) true 9]) :=
  logins_bounded true _ (Run.meets_of_forall_mem (by
    intro e he s
    obtain he | he := List.mem_append.mp he
    · obtain ⟨i, -, he⟩ := List.mem_flatMap.mp he
      simp only [List.mem_cons, List.not_mem_nil, or_false] at he
      obtain rfl | rfl | rfl := he <;> trivial
    · rw [List.mem_singleton.mp he]
      trivial) _)

/-- It disconnects at once each time: six wrong passwords are verified within a second. -/
def hastyGuesses : List AuthEvent :=
  (List.range 6).flatMap fun i => [.login (.v4 .localhost) false i, .drop i, .computed i i]

theorem hasty_guesses_unbounded : ¬ ∀ (initialized : Bool) (events : List AuthEvent),
    Run.Always AuthServer.step AuthServer.Bounded (AuthServer.start initialized) events := by
  intro h
  have hbounded := ((h true hastyGuesses).last rfl).1 (.v4 .localhost) 0
  exact absurd hbounded (by decide)

end

end RXCore
