import RXCore.Auth
import RXCore.Lib.Run

/-!
# Sessions of the dashboard

The server verifies cookies against the credentials it has in memory, which a password change over HTTP
replaces. The commands of the administrator run as programs of their own and write the credentials file,
which the server reads once, at its start.

* `loginCookie`, `changedCredentials`, `adminAuthMiddleware`, `serveIndex`: the handlers;
* `Installation`, `installationStep`: the server, the file and the commands, in any order;
* `Recent`: an accepted cookie was issued after the last change of the password;
* **`recent_of_reached`**: runs in which no command changes the password over open sessions;
* **`session_survives_reset`**: a session outlives `admin reset-password`.
-/

set_option autoImplicit false

namespace RXCore

open Encoding

/-! ## Handlers -/

/-- `login_handler` once the password is verified: the cookie. -/
def loginCookie (A : AuthCrates) (auth : AdminAuthRuntime) (password : String) (now : ℤ) (csrf : Key) :
    Except (ℕ × String) String :=
  match A.verifyPassword auth.passwordHash password with
  | .ok true => .ok (encodeSessionCookie A
      ⟨1, now, asI64 (now + 3600 * 24), auth.sessionEpoch, csrf⟩ auth.sessionSecret)
  | _ => .error (401, "Invalid password.")

/-- An error of another type. -/
def orRefuse {α : Type} (r : Except String α) (f : String → ℕ × String) : Except (ℕ × String) α :=
  match r with
  | .ok a => .ok a
  | .error e => .error (f e)

/-- `change_password_handler` up to its save; `permit` says that no other Argon2 work is under way. -/
def changedCredentials (A : AuthCrates) (auth : AdminAuthRuntime) (currentPassword newPassword salt : String)
    (secret : Key) (now : ℤ) (permit : Bool) : Except (ℕ × String) AdminCredentials :=
  match A.verifyPassword auth.passwordHash currentPassword with
  | .ok true => do
    orRefuse (validatePasswordRules newPassword) fun e => (400, e)
    refuseIf (permit = false) (429, "Server busy, please try again shortly.")
    let newHash ← orRefuse (A.hashPassword newPassword salt) fun _ => (500, "Failed to hash new password")
    return ⟨newHash, generateRandomSecret secret, auth.sessionEpoch + 1, now, now, 1⟩
  | _ => .error (401, "Incorrect current password.")

/-- The value of the first well-formed cookie `ruve_session`. -/
def sessionCookieOf (cookieHeader : String) : String :=
  let values := (cookieHeader.toList.splitOn ';').filterMap fun cookie =>
    match (cookie.splitOn '=').map trimList with
    | [name, value] => if name = "ruve_session".toList then some value else none
    | _ => none
  String.ofList (values.head?.getD [])

/-- **A cookie is found in its header.** -/
theorem sessionCookieOf_encode (A : AuthCrates) (claims : AdminSessionClaims) (keyBytes : List UInt8) :
    sessionCookieOf ("ruve_session=" ++ encodeSessionCookie A claims keyBytes) =
      encodeSessionCookie A claims keyBytes := by
  have hsymbols : ∀ v : Fin 64,
      urlSymbol v ≠ ';' ∧ urlSymbol v ≠ '=' ∧ isWhitespace (urlSymbol v) = false := by
    decide
  have hplain : ∀ c ∈ base64UrlEncode (claims.payload ++ A.hmacSha256 keyBytes claims.payload),
      c ≠ ';' ∧ c ≠ '=' ∧ isWhitespace c = false := by
    intro c hc
    obtain ⟨v, hv, rfl⟩ := mem_base64UrlEncode hc
    exact hsymbols ⟨v, hv⟩
  have hname : ∀ c ∈ "ruve_session".toList, c ≠ ';' ∧ c ≠ '=' ∧ isWhitespace c = false := by
    simp [isWhitespace]
  have htext : ("ruve_session=" ++ encodeSessionCookie A claims keyBytes).toList =
      "ruve_session".toList ++
        '=' :: base64UrlEncode (claims.payload ++ A.hmacSha256 keyBytes claims.payload) := by
    simp [encodeSessionCookie]
  rw [sessionCookieOf, htext, List.splitOn_eq_singleton]
  · have hvalue := trimList_eq fun c hc => (hplain c hc).2.2
    have hkey := trimList_eq fun c hc => (hname c hc).2.2
    simp only [List.filterMap_cons, List.filterMap_nil,
      List.splitOn_append_cons_self_of_not_mem (fun h => (hname _ h).2.1 rfl),
      List.splitOn_eq_singleton (fun h => (hplain _ h).2.1 rfl), List.map_cons, List.map_nil, hvalue, hkey,
      if_true]
    rfl
  · intro h
    rcases List.mem_append.mp h with h | h
    · exact (hname _ h).1 rfl
    · rcases List.mem_cons.mp h with h | h
      · cases h
      · exact (hplain _ h).1 rfl

/-- The credentials, or the reply that there are none. -/
def loadAuth (adminAuth : Option AdminAuthRuntime) : Except (ℕ × String) AdminAuthRuntime :=
  match adminAuth with
  | some auth => .ok auth
  | none => .error (500, "Credentials not initialized")

/-- `admin_auth_middleware`. -/
def adminAuthMiddleware (A : AuthCrates) (adminAuth : Option AdminAuthRuntime) (now : ℤ)
    (cookieHeader method csrfHeader : String) : Except (ℕ × String) AdminSessionClaims := do
  let sessionCookie := sessionCookieOf cookieHeader
  refuseIf (sessionCookie = "") (401, "Unauthorized: Session cookie missing")
  let auth ← loadAuth adminAuth
  let claims ← orRefuse (decodeAndVerifySession A now sessionCookie auth.sessionSecret) fun _ =>
    (401, "Unauthorized: Invalid session token")
  refuseIf (claims.sessionEpoch ≠ auth.sessionEpoch) (401, "Unauthorized: Session epoch invalidated")
  refuseIf ((method = "POST" ∨ method = "PUT" ∨ method = "DELETE") ∧
    csrfHeader ≠ hexEncode claims.csrfToken.toList) (403, "Forbidden: CSRF validation failed")
  return claims

/-- `serve_index`: whether it serves the dashboard, by the credentials in the file. -/
def serveIndex (A : AuthCrates) (file : Option AdminCredentials) (now : ℤ) (cookieHeader : String) : Bool :=
  match file with
  | none => false
  | some creds =>
    match decodeAndVerifySession A now (sessionCookieOf cookieHeader) creds.runtime.sessionSecret with
    | .ok claims => sessionCookieOf cookieHeader ≠ "" ∧ claims.sessionEpoch = creds.sessionEpoch
    | .error _ => false

/-! ## The installation -/

inductive SessionEvent where
  /-- A cookie was issued, signed with a key. -/
  | issued (key : List UInt8) (cookie : String)
  /-- The password was changed or reset. -/
  | changed
  /-- A protected request was accepted. -/
  | accepted (cookie : String)
deriving DecidableEq

structure PendingLogin where
  auth : AdminAuthRuntime
  password : String

structure PendingChange where
  auth : AdminAuthRuntime
  currentPassword : String
  newPassword : String

/-- A command that has read the file. -/
structure PendingCommand where
  existing : AdminCredentials
  current : String
  newPass : String

structure Installation where
  /-- `data/admin_credentials.json`. -/
  file : Option AdminCredentials
  /-- The credentials in the memory of the server. -/
  adminAuth : Option AdminAuthRuntime
  logins : List PendingLogin
  changes : List PendingChange
  commands : List PendingCommand
  /-- What has happened, the latest first. -/
  log : List SessionEvent

/-- `save_admin_credentials` succeeds, or fails before or after it has renamed the file. -/
inductive SaveResult where
  | ok
  | failed (renamed : Bool)
deriving DecidableEq

inductive InstallationAct where
  /-- `login_handler` lets the attempt pass and loads the credentials. -/
  | login (password : String)
  | verified (i : ℕ) (now : ℤ) (csrf : Key)
  /-- `change_password_handler` loads the credentials. -/
  | change (currentPassword newPassword : String)
  | hashed (i : ℕ) (salt : String) (secret : Key) (now : ℤ) (permit : Bool) (save : SaveResult)
  /-- `admin set-password` loads the file. -/
  | setPassword (current newPass : String)
  | passwordSet (i : ℕ) (salt : String) (secret : Key) (now : ℤ) (save : SaveResult)
  | resetPassword (newPass salt : String) (secret : Key) (now : ℤ) (save : SaveResult)
  | request (cookieHeader method csrfHeader : String) (now : ℤ)

namespace Installation

/-- The server starts with the credentials of the file. -/
def start (file : Option AdminCredentials) : Installation :=
  ⟨file, file.map AdminCredentials.runtime, [], [], [], []⟩

/-- The file after a save. -/
def saved (v : Installation) (creds : AdminCredentials) : SaveResult → Installation
  | .ok => { v with file := some creds }
  | .failed true => { v with file := some creds }
  | .failed false => v

/-- A command ends with its save. -/
def commandSaved (v : Installation) (r : Except String AdminCredentials) (save : SaveResult) :
    Installation :=
  match r with
  | .error _ => v
  | .ok creds =>
    let v := v.saved creds save
    if save = .ok then { v with log := .changed :: v.log } else v

/-- A change over HTTP ends with its save, and the memory follows the file. -/
def changeSaved (v : Installation) (r : Except (ℕ × String) AdminCredentials) (save : SaveResult) :
    Installation :=
  match r with
  | .error _ => v
  | .ok creds =>
    let v := v.saved creds save
    if save = .ok then { v with
      adminAuth := some creds.runtime
      log := .changed :: v.log }
    else v

/-- A login ends, with a cookie if its password was right. -/
def loginEnded (v : Installation) (key : List UInt8) (r : Except (ℕ × String) String) : Installation :=
  match r with
  | .error _ => v
  | .ok cookie => { v with log := .issued key cookie :: v.log }

end Installation

/-- One step of the installation. -/
def installationStep (A : AuthCrates) (v : Installation) : InstallationAct → Option Installation
  | .login password => v.adminAuth.map fun auth => { v with logins := v.logins ++ [⟨auth, password⟩] }
  | .verified i now csrf => v.logins[i]?.map fun p =>
    { v with logins := v.logins.eraseIdx i }.loginEnded p.auth.sessionSecret
      (loginCookie A p.auth p.password now csrf)
  | .change currentPassword newPassword => v.adminAuth.map fun auth =>
    { v with changes := v.changes ++ [⟨auth, currentPassword, newPassword⟩] }
  | .hashed i salt secret now permit save => v.changes[i]?.map fun p =>
    { v with changes := v.changes.eraseIdx i }.changeSaved
      (changedCredentials A p.auth p.currentPassword p.newPassword salt secret now permit) save
  | .setPassword current newPass =>
    if (validatePasswordRules newPass).toBool then
      v.file.map fun existing => { v with commands := v.commands ++ [⟨existing, current, newPass⟩] }
    else none
  | .passwordSet i salt secret now save => v.commands[i]?.map fun p =>
    { v with commands := v.commands.eraseIdx i }.commandSaved
      (setPassword A p.existing p.current p.newPass salt secret now) save
  | .resetPassword newPass salt secret now save =>
    if (validatePasswordRules newPass).toBool then
      some (v.commandSaved (resetPassword A newPass salt secret now) save)
    else none
  | .request cookieHeader method csrfHeader now =>
    match adminAuthMiddleware A v.adminAuth now cookieHeader method csrfHeader with
    | .ok _ => some { v with log := .accepted (sessionCookieOf cookieHeader) :: v.log }
    | .error _ => some v

/-! ## Recent sessions -/

/-- The cookies issued since the last change of the password. -/
def issuedSince : List SessionEvent → List String
  | [] => []
  | .issued _ cookie :: log => cookie :: issuedSince log
  | .changed :: _ => []
  | .accepted _ :: log => issuedSince log

/-- Every accepted cookie had been issued since the last change. -/
def Recent : List SessionEvent → Prop
  | [] => True
  | .accepted cookie :: log => cookie ∈ issuedSince log ∧ Recent log
  | .issued _ _ :: log => Recent log
  | .changed :: log => Recent log

instance decidableRecent : DecidablePred Recent
  | [] => isTrue trivial
  | .accepted _ :: log => @instDecidableAnd _ _ _ (decidableRecent log)
  | .issued _ _ :: log => decidableRecent log
  | .changed :: log => decidableRecent log

/-- The cookies that were signed, each with its key. -/
def signed : List SessionEvent → List (List UInt8 × String)
  | [] => []
  | .issued key cookie :: log => (key, cookie) :: signed log
  | .changed :: log => signed log
  | .accepted _ :: log => signed log

/-- What HMAC and the random generator promise: a cookie that verifies was signed with the key, and a new
secret is not the key of any cookie. -/
def Installation.Ideal (A : AuthCrates) (v : Installation) : InstallationAct → Prop
  | .request cookieHeader _ _ now => ∀ auth ∈ v.adminAuth,
    (decodeAndVerifySession A now (sessionCookieOf cookieHeader) auth.sessionSecret).toBool = true →
      (auth.sessionSecret, sessionCookieOf cookieHeader) ∈ signed v.log
  | .hashed _ _ secret _ _ _ => ∀ e ∈ signed v.log,
    e.1 ≠ (hexDecode (utf8 (generateRandomSecret secret))).toOption.getD []
  | _ => True

/-- The server has issued no cookie under the secret that it has in memory. -/
def Installation.NoSession (v : Installation) : Prop :=
  ∀ auth ∈ v.adminAuth, ∀ e ∈ signed v.log, e.1 ≠ auth.sessionSecret

/-- A command ends only when there is no session for it to revoke. -/
def Installation.Reached (v : Installation) : InstallationAct → Prop
  | .passwordSet _ _ _ _ _ => v.NoSession
  | .resetPassword _ _ _ _ _ => v.NoSession
  | _ => True

instance (A : AuthCrates) (v : Installation) (a : InstallationAct) : Decidable (v.Ideal A a) := by
  unfold Installation.Ideal
  split <;> infer_instance

instance (v : Installation) : Decidable v.NoSession :=
  inferInstanceAs (Decidable (∀ auth ∈ v.adminAuth, ∀ e ∈ signed v.log, e.1 ≠ auth.sessionSecret))

instance (v : Installation) (a : InstallationAct) : Decidable (v.Reached a) := by
  unfold Installation.Reached
  split <;> infer_instance

/-- The invariant: the cookies under the secret in memory have been issued since the last change. -/
structure Installation.Current (v : Installation) : Prop where
  recent : Recent v.log
  issued : ∀ auth ∈ v.adminAuth, ∀ cookie, (auth.sessionSecret, cookie) ∈ signed v.log →
    cookie ∈ issuedSince v.log

section

variable {A : AuthCrates} {v v' : Installation}

/-- A request that passes the middleware carries a cookie that verifies. -/
theorem adminAuthMiddleware_ok {now : ℤ} {cookieHeader method csrfHeader : String}
    {adminAuth : Option AdminAuthRuntime} {claims : AdminSessionClaims}
    (h : adminAuthMiddleware A adminAuth now cookieHeader method csrfHeader = .ok claims) :
    ∃ auth, adminAuth = some auth ∧
      decodeAndVerifySession A now (sessionCookieOf cookieHeader) auth.sessionSecret = .ok claims ∧
      claims.sessionEpoch = auth.sessionEpoch := by
  simp only [adminAuthMiddleware, bind_ok] at h
  obtain ⟨-, -, auth, hauth, c, hc, _, hepoch, -, -, h⟩ := h
  obtain rfl := Except.ok.inj h
  cases adminAuth with
  | none => cases hauth
  | some a =>
    obtain rfl := Except.ok.inj hauth
    refine ⟨a, rfl, ?_, by simpa using refuseIf_ok.mp hepoch⟩
    unfold orRefuse at hc
    split at hc
    · next c' hc' =>
      obtain rfl := Except.ok.inj hc
      exact hc'
    · cases hc

/-- A save writes the file and nothing else. -/
theorem Installation.saved_fields (v : Installation) (creds : AdminCredentials) (save : SaveResult) :
    (v.saved creds save).adminAuth = v.adminAuth ∧ (v.saved creds save).log = v.log := by
  rcases save with _ | _ | _ <;> exact ⟨rfl, rfl⟩

theorem Installation.Current.commandSaved (h : v.Current) (hno : v.NoSession)
    (r : Except String AdminCredentials) (save : SaveResult) : (v.commandSaved r save).Current := by
  unfold Installation.commandSaved
  split
  · exact h
  · next creds =>
    obtain ⟨hauth, hlog⟩ := v.saved_fields creds save
    dsimp only
    split_ifs
    · refine ⟨by rw [hlog]; exact h.recent, fun auth ha cookie hc => ?_⟩
      rw [hauth] at ha
      rw [hlog] at hc
      exact absurd rfl (hno auth ha _ hc)
    · exact ⟨hlog ▸ h.recent, by rw [hauth, hlog]; exact h.issued⟩

theorem Installation.Current.changeSaved (h : v.Current) {r : Except (ℕ × String) AdminCredentials}
    (hfresh : ∀ creds, r = .ok creds → ∀ e ∈ signed v.log, e.1 ≠ creds.runtime.sessionSecret)
    (save : SaveResult) : (v.changeSaved r save).Current := by
  unfold Installation.changeSaved
  split
  · exact h
  · next creds =>
    obtain ⟨hauth, hlog⟩ := v.saved_fields creds save
    dsimp only
    split_ifs
    · refine ⟨by rw [hlog]; exact h.recent, fun auth ha cookie hc => ?_⟩
      obtain rfl := Option.some.inj ha
      rw [hlog] at hc
      exact absurd rfl (hfresh creds rfl _ hc)
    · exact ⟨hlog ▸ h.recent, by rw [hauth, hlog]; exact h.issued⟩

theorem Installation.Current.loginEnded (h : v.Current) (key : List UInt8)
    (r : Except (ℕ × String) String) : (v.loginEnded key r).Current := by
  unfold Installation.loginEnded
  split
  · exact h
  · next cookie =>
    refine ⟨h.recent, fun auth ha c hc => ?_⟩
    rcases List.mem_cons.mp hc with heq | hc
    · obtain ⟨-, rfl⟩ := Prod.mk.inj heq
      exact List.mem_cons_self
    · exact List.mem_cons_of_mem _ (h.issued auth ha c hc)

/-- The secret of the credentials that a change makes. -/
theorem changedCredentials_secret {auth : AdminAuthRuntime} {current newPassword salt : String}
    {secret : Key} {now : ℤ} {permit : Bool} {creds : AdminCredentials}
    (h : changedCredentials A auth current newPassword salt secret now permit = .ok creds) :
    creds.sessionSecret = generateRandomSecret secret := by
  unfold changedCredentials at h
  split at h
  · simp only [bind_ok] at h
    obtain ⟨-, -, -, -, newHash, -, h⟩ := h
    obtain rfl := Except.ok.inj h
    rfl
  · cases h

/-- **A step keeps the sessions under the secret in memory recent.** -/
theorem Installation.Current.step {a : InstallationAct} (h : v.Current)
    (hC : v.Ideal A a ∧ v.Reached a) (hs : installationStep A v a = some v') : v'.Current := by
  cases a with
  | login password =>
    obtain ⟨auth, -, rfl⟩ := Option.map_eq_some_iff.mp hs
    exact ⟨h.recent, h.issued⟩
  | verified i now csrf =>
    obtain ⟨p, -, rfl⟩ := Option.map_eq_some_iff.mp hs
    have hrest : Installation.Current { v with logins := v.logins.eraseIdx i } := ⟨h.recent, h.issued⟩
    exact hrest.loginEnded _ _
  | change current newPassword =>
    obtain ⟨auth, -, rfl⟩ := Option.map_eq_some_iff.mp hs
    exact ⟨h.recent, h.issued⟩
  | hashed i salt secret now permit save =>
    obtain ⟨p, -, rfl⟩ := Option.map_eq_some_iff.mp hs
    have hrest : Installation.Current { v with changes := v.changes.eraseIdx i } := ⟨h.recent, h.issued⟩
    refine hrest.changeSaved (fun creds hcreds e he => ?_) save
    rw [AdminCredentials.runtime, changedCredentials_secret hcreds]
    exact hC.1 e he
  | setPassword current newPass =>
    simp only [installationStep] at hs
    split_ifs at hs
    obtain ⟨existing, -, rfl⟩ := Option.map_eq_some_iff.mp hs
    exact ⟨h.recent, h.issued⟩
  | passwordSet i salt secret now save =>
    obtain ⟨p, -, rfl⟩ := Option.map_eq_some_iff.mp hs
    have hrest : Installation.Current { v with commands := v.commands.eraseIdx i } := ⟨h.recent, h.issued⟩
    exact hrest.commandSaved hC.2 _ save
  | resetPassword newPass salt secret now save =>
    simp only [installationStep] at hs
    split_ifs at hs
    obtain rfl := Option.some.inj hs
    exact h.commandSaved hC.2 _ save
  | request cookieHeader method csrfHeader now =>
    simp only [installationStep] at hs
    split at hs
    · next claims hok =>
      obtain rfl := Option.some.inj hs
      obtain ⟨auth, hauth, hverified, -⟩ := adminAuthMiddleware_ok hok
      have hsigned := hC.1 auth hauth (by rw [hverified]; rfl)
      exact ⟨⟨h.issued auth hauth _ hsigned, h.recent⟩, h.issued⟩
    · obtain rfl := Option.some.inj hs
      exact h

/-- A request that changes nothing passes the middleware if its cookie verifies. -/
theorem adminAuthMiddleware_get {adminAuth : Option AdminAuthRuntime} {auth : AdminAuthRuntime} {now : ℤ}
    {cookieHeader csrfHeader : String} {claims : AdminSessionClaims} (hauth : adminAuth = some auth)
    (hcookie : sessionCookieOf cookieHeader ≠ "")
    (hclaims : decodeAndVerifySession A now (sessionCookieOf cookieHeader) auth.sessionSecret = .ok claims)
    (hepoch : claims.sessionEpoch = auth.sessionEpoch) :
    adminAuthMiddleware A adminAuth now cookieHeader "GET" csrfHeader = .ok claims := by
  simp [adminAuthMiddleware, loadAuth, orRefuse, refuseIf, hauth, hclaims, hcookie, hepoch, bind,
    Except.bind, pure, Except.pure]

theorem installationStep_request {cookieHeader method csrfHeader : String} {now : ℤ}
    {claims : AdminSessionClaims}
    (h : adminAuthMiddleware A v.adminAuth now cookieHeader method csrfHeader = .ok claims) :
    installationStep A v (.request cookieHeader method csrfHeader now) =
      some { v with log := .accepted (sessionCookieOf cookieHeader) :: v.log } := by
  simp only [installationStep, h]

/-- The dashboard is not served to a cookie that the credentials in the file refuse. -/
theorem serveIndex_refused {creds : AdminCredentials} {now : ℤ} {cookieHeader e : String}
    (h : decodeAndVerifySession A now (sessionCookieOf cookieHeader) creds.runtime.sessionSecret = .error e) :
    serveIndex A (some creds) now cookieHeader = false := by
  simp only [serveIndex, h]

/-- **Session revocation**: while no command changes the password over a session of the server, a request
is accepted only with a cookie that was issued since the last change. -/
theorem recent_of_reached (file : Option AdminCredentials) {as : List InstallationAct}
    (hideal : Run.Meets (installationStep A) (Installation.Ideal A) (.start file) as)
    (h : Run.Meets (installationStep A) Installation.Reached (.start file) as) :
    Run.Always (installationStep A) (fun w => Recent w.log) (.start file) as := by
  have hstart : (Installation.start file).Current := ⟨trivial, fun _ _ _ hc => nomatch hc⟩
  exact Run.always_of_meets (I := Installation.Current) (fun w a w' hI hC hs => hI.step hC hs)
    (fun w hI => hI.recent) hstart (hideal.and h)

end

/-! ## Runs of one installation -/

namespace Sample

/-- The file after `admin init`. -/
def adminFile : AdminCredentials := ⟨passwordHash, generateRandomSecret sessionKey, 1, 0, 0, 1⟩

/-- The cookie of the session that begins at the time 1000. -/
def cookie : String :=
  "AQAAAAAAAAPoAAAAAAABVWgAAAAAAAAAAQcHBwcHBwcHBwcHBwcHBwcHBwcHBwcHBwcHBwcHBwcHLuzRqeBftKG06DK_BEerZWtsXoXnfwGBOmAgnM0vR1g"

def cookieHeader : String := "ruve_session=" ++ cookie

/-- A login, and a request with its cookie. -/
def session : List InstallationAct :=
  [.login password, .verified 0 1000 (claims 1).csrfToken, .request cookieHeader "GET" "" 2000]

/-- The server that was started with this file, between requests. -/
def serving (file : AdminCredentials) (log : List SessionEvent) : Installation :=
  ⟨some file, some adminFile.runtime, [], [], [], log⟩

/-- The credentials after a change over HTTP. -/
def changed : AdminCredentials :=
  ⟨newPasswordHash, generateRandomSecret (Vector.replicate 32 2), 2, 3000, 3000, 1⟩

/-- The credentials after a reset. -/
def reset : AdminCredentials :=
  ⟨newPasswordHash, generateRandomSecret (Vector.replicate 32 2), 1, 3000, 3000, 1⟩

theorem encode_cookie : encodeSessionCookie authCrates (claims 1) sessionKey.toList = cookie := by
  decide

theorem sessionCookieOf_cookieHeader : sessionCookieOf cookieHeader = cookie := by
  rw [cookieHeader, ← encode_cookie, sessionCookieOf_encode]

/-- The secrets in memory. -/
theorem sessionSecret_runtime : adminFile.runtime.sessionSecret = sessionKey.toList ∧
    changed.runtime.sessionSecret = List.replicate 32 2 := by
  decide

theorem verifyPassword_adminFile :
    authCrates.verifyPassword adminFile.runtime.passwordHash password = .ok true := by
  simp [authCrates, adminFile, AdminCredentials.runtime]

theorem hashPassword_newPassword :
    authCrates.hashPassword newPassword "AgICAgICAgICAgICAgICAg" = .ok newPasswordHash := by
  simp [authCrates, newPassword, password]

theorem validatePasswordRules_newPassword : validatePasswordRules newPassword = .ok () := by rfl

theorem decode_cookie {now : ℤ} (hnow : now ≤ 87400) :
    decodeAndVerifySession authCrates now cookie adminFile.runtime.sessionSecret = .ok (claims 1) := by
  rw [sessionSecret_runtime.1, ← encode_cookie]
  exact decode_encode rfl rfl (by decide) (by decide) hnow

/-- The cookie is refused under the new secret. -/
theorem decode_cookie_changed (now : ℤ) :
    ∃ e, decodeAndVerifySession authCrates now cookie changed.runtime.sessionSecret = .error e := by
  rw [sessionSecret_runtime.2, ← encode_cookie]
  exact ⟨_, decode_refused rfl (by decide)⟩

theorem cookie_ne : cookie ≠ "" := by simp [cookie]

/-- The credentials in memory accept the cookie for a day. -/
theorem step_request (file : AdminCredentials) (log : List SessionEvent) {now : ℤ} (hnow : now ≤ 87400) :
    installationStep authCrates (serving file log) (.request cookieHeader "GET" "" now) =
      some (serving file (.accepted cookie :: log)) := by
  have hcookie : sessionCookieOf cookieHeader ≠ "" := by
    rw [sessionCookieOf_cookieHeader]
    exact cookie_ne
  have hclaims : decodeAndVerifySession authCrates now (sessionCookieOf cookieHeader)
      adminFile.runtime.sessionSecret = .ok (claims 1) := by
    rw [sessionCookieOf_cookieHeader]
    exact decode_cookie hnow
  rw [installationStep_request (adminAuthMiddleware_get rfl hcookie hclaims rfl),
    sessionCookieOf_cookieHeader]
  rfl

theorem exec_login : Run.exec (installationStep authCrates) (.start (some adminFile))
    [.login password, .verified 0 1000 (claims 1).csrfToken] =
      some (serving adminFile [.issued adminFile.runtime.sessionSecret cookie]) := by
  have hlogin : loginCookie authCrates adminFile.runtime password 1000 (claims 1).csrfToken = .ok cookie := by
    rw [loginCookie, verifyPassword_adminFile, ← encode_cookie, ← sessionSecret_runtime.1]
    rfl
  simp [Run.exec, installationStep, Installation.start, hlogin, Installation.loginEnded, serving]

theorem session_eq : session = [.login password, .verified 0 1000 (claims 1).csrfToken] ++
    [.request cookieHeader "GET" "" 2000] := rfl

theorem exec_session : Run.exec (installationStep authCrates) (.start (some adminFile)) session =
    some (serving adminFile [.accepted cookie, .issued adminFile.runtime.sessionSecret cookie]) := by
  rw [session_eq, Run.exec_append, exec_login, Option.bind_some,
    Run.exec_cons_of_step (step_request _ _ (by decide))]
  rfl

/-- The session of the sample keeps to what HMAC promises. -/
theorem meets_session :
    Run.Meets (installationStep authCrates) (Installation.Ideal authCrates) (.start (some adminFile))
      session := by
  have hlogin : Run.Meets (installationStep authCrates) (Installation.Ideal authCrates)
      (.start (some adminFile)) [.login password, .verified 0 1000 (claims 1).csrfToken] := by
    refine Run.meets_of_forall_mem (fun a ha s => ?_) _
    obtain rfl | rfl := List.mem_pair.mp ha
    · exact True.intro
    · exact True.intro
  rw [session_eq]
  refine hlogin.append exec_login ?_
  rw [Run.meets_cons (step_request _ _ (by decide))]
  refine ⟨?_, trivial⟩
  simp [Installation.Ideal, serving, sessionCookieOf_cookieHeader, signed]

/-- A change keeps to what the random generator promises, and the cookie from before it is refused. -/
theorem meets_change : Run.Meets (installationStep authCrates) (Installation.Ideal authCrates)
    (serving adminFile [.accepted cookie, .issued adminFile.runtime.sessionSecret cookie])
    [.change password newPassword,
      .hashed 0 "AgICAgICAgICAgICAgICAg" (Vector.replicate 32 2) 3000 true .ok,
      .request cookieHeader "GET" "" 4000] := by
  have hchanged : changedCredentials authCrates adminFile.runtime password newPassword
      "AgICAgICAgICAgICAgICAg" (Vector.replicate 32 2) 3000 true = .ok changed := by
    rw [changedCredentials, verifyPassword_adminFile, validatePasswordRules_newPassword,
      hashPassword_newPassword]
    rfl
  have hhashed : installationStep authCrates ⟨some adminFile, some adminFile.runtime, [],
      [⟨adminFile.runtime, password, newPassword⟩], [],
        [.accepted cookie, .issued adminFile.runtime.sessionSecret cookie]⟩
      (.hashed 0 "AgICAgICAgICAgICAgICAg" (Vector.replicate 32 2) 3000 true .ok) =
        some ⟨some changed, some changed.runtime, [], [], [],
          [.changed, .accepted cookie, .issued adminFile.runtime.sessionSecret cookie]⟩ := by
    simp [installationStep, hchanged, Installation.changeSaved, Installation.saved]
  have hideal : ∀ log, Installation.Ideal authCrates ⟨some changed, some changed.runtime, [], [], [], log⟩
      (.request cookieHeader "GET" "" 4000) := by
    intro log auth hauth hok
    obtain rfl := Option.some.inj hauth
    obtain ⟨e, hrefused⟩ := decode_cookie_changed 4000
    rw [sessionCookieOf_cookieHeader, hrefused] at hok
    cases hok
  refine (Run.meets_cons rfl).mpr ⟨trivial, (Run.meets_cons hhashed).mpr ⟨?_, ?_⟩⟩
  · intro signing hsigned
    obtain rfl := List.mem_singleton.mp hsigned
    rw [sessionSecret_runtime.1]
    exact fun heq => absurd (heq.trans sessionSecret_runtime.2) (by decide)
  · rw [Run.Meets]
    split
    · trivial
    · exact ⟨hideal _, trivial⟩

/-- The session goes on after a reset: the credentials in memory are those from before it. -/
theorem exec_reset : Run.exec (installationStep authCrates) (.start (some adminFile))
    (session ++ [.resetPassword newPassword "AgICAgICAgICAgICAgICAg" (Vector.replicate 32 2) 3000 .ok,
      .request cookieHeader "GET" "" 4000]) =
    some (serving reset
      [.accepted cookie, .changed, .accepted cookie, .issued adminFile.runtime.sessionSecret cookie]) := by
  have hreset : resetPassword authCrates newPassword "AgICAgICAgICAgICAgICAg" (Vector.replicate 32 2) 3000 =
      .ok reset := by
    rw [resetPassword, hashPassword_newPassword]
    rfl
  have hstep : installationStep authCrates
      (serving adminFile [.accepted cookie, .issued adminFile.runtime.sessionSecret cookie])
      (.resetPassword newPassword "AgICAgICAgICAgICAgICAg" (Vector.replicate 32 2) 3000 .ok) =
        some (serving reset
          [.changed, .accepted cookie, .issued adminFile.runtime.sessionSecret cookie]) := by
    simp [installationStep, validatePasswordRules_newPassword, hreset, Installation.commandSaved,
      Installation.saved, Except.toBool, serving]
  rw [Run.exec_append, exec_session, Option.bind_some, Run.exec_cons_of_step hstep,
    Run.exec_cons_of_step (step_request _ _ (by decide))]
  rfl

end Sample

open Sample in
/-- The theorem on a session that a change over HTTP revokes: its cookie is refused afterwards. -/
theorem recent_of_reached_run :
    Run.Always (installationStep authCrates) (fun w => Recent w.log) (.start (some adminFile))
      (session ++ [.change password newPassword,
        .hashed 0 "AgICAgICAgICAgICAgICAg" (Vector.replicate 32 2) 3000 true .ok,
        .request cookieHeader "GET" "" 4000]) := by
  refine recent_of_reached (some adminFile) (meets_session.append exec_session meets_change) ?_
  -- no command changes the password
  refine Run.meets_of_forall_mem (fun a ha v => ?_) _
  simp only [session, List.cons_append, List.nil_append, List.mem_cons, List.not_mem_nil, or_false] at ha
  rcases ha with rfl | rfl | rfl | rfl | rfl | rfl <;> exact True.intro

open Sample in
/-- The session goes on after `admin reset-password`. -/
def resetRun : Installation :=
  (Run.exec (installationStep authCrates) (.start (some adminFile))
    (session ++ [.resetPassword newPassword "AgICAgICAgICAgICAgICAg" (Vector.replicate 32 2) 3000 .ok,
      .request cookieHeader "GET" "" 4000])).get
    (by
      rw [exec_reset]
      rfl)

open Sample in
/-- **A session survives the reset** of the password: its cookie is accepted by the middleware, though not
by `serve_index`, which reads the file. -/
theorem session_survives_reset :
    Run.Reachable (installationStep authCrates) (.start (some adminFile)) resetRun ∧
    ¬ Recent resetRun.log ∧ serveIndex authCrates resetRun.file 4000 cookieHeader = false := by
  have hrun : resetRun = _ := Option.some.inj ((Option.some_get _).trans exec_reset)
  refine ⟨⟨_, (Option.some_get _).symm⟩, ?_, ?_⟩
  · rw [hrun]
    simp [serving, Recent, issuedSince]
  · obtain ⟨e, hrefused⟩ := decode_cookie_changed 4000
    have hsecret : reset.runtime.sessionSecret = changed.runtime.sessionSecret := rfl
    rw [hrun]
    exact serveIndex_refused (by rw [sessionCookieOf_cookieHeader, hsecret, hrefused])

end RXCore
