import RXCore.Std
import RXCore.Crates

/-!
# Administrator credentials

The credentials file, the session cookie and the checks of `auth.rs`. What `argon2` and `ring` compute is
a parameter; the clock and the random bytes are given.

* `AdminCredentials`, `AdminAuthRuntime`: in the file, and in the memory of the server;
* `encodeSessionCookie`, `decodeAndVerifySession`, and **`decode_encode`**: a cookie is accepted under its
  key until it expires;
* `setPassword`, `resetPassword`: what the two commands put into the file;
* `Sample.authCrates`: functions that compute what the crates compute on two passwords and two cookies.
-/

set_option autoImplicit false

namespace RXCore

open Encoding

/-- The functions of `argon2`, with the parameters of `get_argon2_instance`, and of `ring`. -/
structure AuthCrates where
  /-- `ring::hmac::sign` with HMAC-SHA256; `verify` compares with it. -/
  hmacSha256 : (key message : List UInt8) → List UInt8
  /-- `hash_password` with a salt. -/
  hashPassword : (password salt : String) → Except String String
  /-- `verify_password`. -/
  verifyPassword : (hash password : String) → Except String Bool

structure AdminCredentials where
  passwordHash : String
  sessionSecret : String
  sessionEpoch : UInt64
  createdAt : ℤ
  updatedAt : ℤ
  version : UInt32
deriving DecidableEq

structure AdminAuthRuntime where
  passwordHash : String
  sessionSecret : List UInt8
  sessionEpoch : UInt64
deriving DecidableEq

structure AdminSessionClaims where
  version : UInt8
  issuedAt : ℤ
  expiresAt : ℤ
  sessionEpoch : UInt64
  csrfToken : Key
deriving DecidableEq

/-- The credentials as the server keeps them in memory. -/
def AdminCredentials.runtime (c : AdminCredentials) : AdminAuthRuntime :=
  ⟨c.passwordHash, (hexDecode (utf8 c.sessionSecret)).toOption.getD [], c.sessionEpoch⟩

/-- `generate_random_secret`. -/
def generateRandomSecret (bytes : Key) : String := hexEncode bytes.toList

/-- `validate_password_rules`. -/
def validatePasswordRules (password : String) : Except String Unit := do
  refuseIf (trim password = "") "Password cannot be empty or whitespace-only"
  refuseIf ((utf8 password).length < 12) "Password must be at least 12 characters long"
  refuseIf (128 < (utf8 password).length) "Password must not exceed 128 characters"

/-! ## The session cookie -/

/-- The 57 bytes that are signed. -/
def AdminSessionClaims.payload (c : AdminSessionClaims) : List UInt8 :=
  c.version :: (beBytes 8 (asU64 c.issuedAt) ++ beBytes 8 (asU64 c.expiresAt) ++
    beBytes 8 c.sessionEpoch.toNat ++ c.csrfToken.toList)

/-- `encode_session_cookie`. -/
def encodeSessionCookie (A : AuthCrates) (claims : AdminSessionClaims) (keyBytes : List UInt8) : String :=
  String.ofList (base64UrlEncode (claims.payload ++ A.hmacSha256 keyBytes claims.payload))

/-- The bytes of a cookie; the text of a decoding error is not kept. -/
def cookieBytes (cookieVal : String) : Except String (List UInt8) :=
  match base64UrlDecode cookieVal.toList with
  | some full => .ok full
  | none => .error "base64"

/-- `decode_and_verify_session` at the time `now`. -/
def decodeAndVerifySession (A : AuthCrates) (now : ℤ) (cookieVal : String) (keyBytes : List UInt8) :
    Except String AdminSessionClaims := do
  let full ← cookieBytes cookieVal
  refuseIf (full.length ≠ 89) "Invalid session token length"
  let payload := full.take 57
  refuseIf (A.hmacSha256 keyBytes payload ≠ full.drop 57) "Session token signature verification failed"
  let version := payload.getD 0 0
  refuseIf (version ≠ 1) "Unsupported session token version"
  let expiresAt := asI64 (ofBe ((payload.drop 9).take 8))
  refuseIf (expiresAt < now) "Session token expired"
  return {
    version := version
    issuedAt := asI64 (ofBe ((payload.drop 1).take 8))
    expiresAt := expiresAt
    sessionEpoch := .ofNat (ofBe ((payload.drop 17).take 8))
    csrfToken := Vector.ofFn fun i => payload.getD (25 + i) 0 }

theorem AdminSessionClaims.payload_length (c : AdminSessionClaims) : c.payload.length = 57 := by
  simp [payload]

theorem asI64_asU64 {n : ℤ} (h1 : i64Min ≤ n) (h2 : n ≤ i64Max) : asI64 (asU64 n : ℕ) = n := by
  rw [i64Min] at h1
  rw [i64Max] at h2
  rw [asI64, asU64, Int.bmod_def]
  omega

/-- The fields of a payload, where `decode_and_verify_session` reads them. -/
theorem AdminSessionClaims.payload_fields (c : AdminSessionClaims) :
    c.payload.getD 0 0 = c.version ∧ (c.payload.drop 1).take 8 = beBytes 8 (asU64 c.issuedAt) ∧
      (c.payload.drop 9).take 8 = beBytes 8 (asU64 c.expiresAt) ∧
      (c.payload.drop 17).take 8 = beBytes 8 c.sessionEpoch.toNat ∧
      c.payload.drop 25 = c.csrfToken.toList := by
  refine ⟨rfl, ?_, ?_, ?_, ?_⟩
  · simp [payload]
  · simp [payload]
  · simp [payload, List.drop_append, List.drop_eq_nil_of_le]
  · simp [payload, List.drop_append, List.drop_eq_nil_of_le]

/-- The bytes of a cookie that was written. -/
theorem cookieBytes_encode (A : AuthCrates) (claims : AdminSessionClaims) (key : List UInt8) :
    cookieBytes (encodeSessionCookie A claims key) = .ok (claims.payload ++ A.hmacSha256 key claims.payload) := by
  simp [cookieBytes, encodeSessionCookie, base64UrlDecode_encode]

/-- A cookie is refused under a key that signs its claims in another way. -/
theorem decode_refused {A : AuthCrates} {claims : AdminSessionClaims} {key key' : List UInt8} {now : ℤ}
    (htag : (A.hmacSha256 key claims.payload).length = 32)
    (hne : A.hmacSha256 key' claims.payload ≠ A.hmacSha256 key claims.payload) :
    decodeAndVerifySession A now (encodeSessionCookie A claims key) key' =
      .error "Session token signature verification failed" := by
  have hlen := claims.payload_length
  have htake : (claims.payload ++ A.hmacSha256 key claims.payload).take 57 = claims.payload := by
    rw [← hlen, List.take_left]
  have hdrop : (claims.payload ++ A.hmacSha256 key claims.payload).drop 57 =
      A.hmacSha256 key claims.payload := by
    rw [← hlen, List.drop_left]
  rw [decodeAndVerifySession, cookieBytes_encode]
  simp only [bind, Except.bind, refuseIf]
  rw [if_neg (by simp [hlen, htag])]
  dsimp only
  rw [htake, hdrop, if_pos hne]

/-- **A cookie is accepted** under the key that has signed it until it expires. -/
theorem decode_encode {A : AuthCrates} {claims : AdminSessionClaims} {key : List UInt8} {now : ℤ}
    (htag : (A.hmacSha256 key claims.payload).length = 32) (hversion : claims.version = 1)
    (hissued : i64Min ≤ claims.issuedAt ∧ claims.issuedAt ≤ i64Max)
    (hexpires : i64Min ≤ claims.expiresAt ∧ claims.expiresAt ≤ i64Max) (hnow : now ≤ claims.expiresAt) :
    decodeAndVerifySession A now (encodeSessionCookie A claims key) key = .ok claims := by
  have hlen := claims.payload_length
  obtain ⟨h0, h1, h9, h17, h25⟩ := claims.payload_fields
  have htake : (claims.payload ++ A.hmacSha256 key claims.payload).take 57 = claims.payload := by
    rw [← hlen, List.take_left]
  have hdrop : (claims.payload ++ A.hmacSha256 key claims.payload).drop 57 =
      A.hmacSha256 key claims.payload := by
    rw [← hlen, List.drop_left]
  have hu64 : ∀ n : ℤ, asU64 n % 256 ^ 8 = asU64 n := fun n => by
    rw [asU64]
    omega
  have hissuedAt : asI64 (ofBe (beBytes 8 (asU64 claims.issuedAt)) : ℕ) = claims.issuedAt := by
    rw [ofBe_beBytes, hu64, asI64_asU64 hissued.1 hissued.2]
  have hexpiresAt : asI64 (ofBe (beBytes 8 (asU64 claims.expiresAt)) : ℕ) = claims.expiresAt := by
    rw [ofBe_beBytes, hu64, asI64_asU64 hexpires.1 hexpires.2]
  have hepoch : UInt64.ofNat (ofBe (beBytes 8 claims.sessionEpoch.toNat)) = claims.sessionEpoch := by
    rw [ofBe_beBytes, Nat.mod_eq_of_lt (by have := claims.sessionEpoch.toNat_lt; omega), UInt64.ofNat_toNat]
  have hcsrf : (Vector.ofFn fun i : Fin 32 => claims.payload.getD (25 + i) 0) = claims.csrfToken := by
    refine Vector.ext fun i hi => ?_
    have hget : (claims.payload.drop 25)[i]? = some claims.csrfToken[i] := by simp [h25, hi]
    rw [List.getElem?_drop] at hget
    rw [Vector.getElem_ofFn, List.getD_eq_getElem?_getD, hget, Option.getD_some]
  rw [decodeAndVerifySession, cookieBytes_encode]
  simp only [bind, Except.bind, refuseIf]
  rw [if_neg (by simp [hlen, htag])]
  dsimp only
  rw [htake, hdrop, if_neg (by simp)]
  dsimp only
  rw [h0, if_neg (by simp [hversion])]
  dsimp only
  rw [h9, hexpiresAt, if_neg (by omega)]
  dsimp only
  rw [h1, hissuedAt, h17, hepoch, hcsrf]
  rfl

/-! ## The commands -/

/-- `admin set-password`, once both passwords are entered: the new contents of the file. The new password
keeps to the rules, since the prompt is repeated until it does. -/
def setPassword (A : AuthCrates) (existing : AdminCredentials) (current newPass salt : String) (secret : Key)
    (now : ℤ) : Except String AdminCredentials := do
  let ok ← A.verifyPassword existing.passwordHash current
  refuseIf (ok = false) "Error: Incorrect current password."
  let hash ← A.hashPassword newPass salt
  return { existing with
    passwordHash := hash
    sessionSecret := generateRandomSecret secret
    sessionEpoch := existing.sessionEpoch + 1
    updatedAt := now }

/-- `admin reset-password --confirm-local-reset`. -/
def resetPassword (A : AuthCrates) (newPass salt : String) (secret : Key) (now : ℤ) :
    Except String AdminCredentials := do
  let hash ← A.hashPassword newPass salt
  return ⟨hash, generateRandomSecret secret, 1, now, now, 1⟩

/-! ## A concrete instance

Argon2id and HMAC-SHA256 on two passwords and two cookies; elsewhere the functions are stand-ins. -/

namespace Sample

def password : String := "correct-horse-battery"

def newPassword : String := "staple-staple-staple"

def passwordHash : String :=
  "$argon2id$v=19$m=32768,t=2,p=1$AQEBAQEBAQEBAQEBAQEBAQ$iUTK5dJ992ROn3MgpZLT2pdpnvxZmBmq8AUQPPRqQG8"

def newPasswordHash : String :=
  "$argon2id$v=19$m=32768,t=2,p=1$AgICAgICAgICAgICAgICAg$DUWWf6Tw6iHCOdDznv618LAxKoFLB4CBpYMEevGfhWg"

def sessionKey : Key := Vector.replicate 32 1

/-- The claims of a session that begins at the time 1000 in an epoch. -/
def claims (epoch : UInt64) : AdminSessionClaims := ⟨1, 1000, 87400, epoch, Vector.replicate 32 7⟩

def hmacSha256 (key message : List UInt8) : List UInt8 :=
  if key = sessionKey.toList ∧ message = (claims 1).payload then
    [46, 236, 209, 169, 224, 95, 180, 161, 180, 232, 50, 191, 4, 71, 171, 101, 107, 108, 94, 133, 231, 127,
      1, 129, 58, 96, 32, 156, 205, 47, 71, 88]
  else if key = List.replicate 32 2 ∧ message = (claims 2).payload then
    [214, 218, 239, 46, 118, 254, 232, 245, 251, 251, 4, 214, 144, 35, 246, 101, 130, 216, 41, 172, 99, 11,
      46, 211, 83, 206, 132, 196, 200, 214, 78, 57]
  else if key = List.replicate 32 2 ∧ message = (claims 1).payload then
    [164, 141, 27, 179, 191, 188, 242, 205, 155, 169, 84, 68, 169, 14, 191, 18, 36, 227, 58, 136, 69,
      157, 64, 197, 6, 89, 35, 157, 118, 75, 74, 206]
  else List.replicate 32 0

def authCrates : AuthCrates where
  hmacSha256 := hmacSha256
  hashPassword p _ := .ok (if p = password then passwordHash else newPasswordHash)
  verifyPassword h p := .ok (h = (if p = password then passwordHash else newPasswordHash))

end Sample

end RXCore
