import RXCore.Auth

/-!
# Cookies and sessions

The cookies that `decode_and_verify_session` accepts are the ones that `encode_session_cookie` writes.

* `payload_decode`: 57 bytes are the payload of the claims that are read off them;
* `decode_ok`: what an accepted cookie has passed;
* **`session_cookie_iff`**: which cookies carry which claims; no two carry the same.
-/

set_option autoImplicit false

namespace RXCore

open Encoding

/-- The two times are of the type `i64`. -/
def AdminSessionClaims.Fits (c : AdminSessionClaims) : Prop :=
  (i64Min ≤ c.issuedAt ∧ c.issuedAt ≤ i64Max) ∧ i64Min ≤ c.expiresAt ∧ c.expiresAt ≤ i64Max

instance (c : AdminSessionClaims) : Decidable c.Fits := inferInstanceAs (Decidable (_ ∧ _))

/-- The claims that are read off a payload. -/
def AdminSessionClaims.ofPayload (payload : List UInt8) : AdminSessionClaims where
  version := payload.getD 0 0
  issuedAt := asI64 (ofBe ((payload.drop 1).take 8))
  expiresAt := asI64 (ofBe ((payload.drop 9).take 8))
  sessionEpoch := .ofNat (ofBe ((payload.drop 17).take 8))
  csrfToken := Vector.ofFn fun i => payload.getD (25 + i) 0

/-! ## The fields -/

theorem asU64_asI64 {n : ℕ} (h : n < 2 ^ 64) : asU64 (asI64 n) = n := by
  rw [asI64, asU64, Int.bmod_def]
  omega

theorem asI64_fits (n : ℤ) : i64Min ≤ asI64 n ∧ asI64 n ≤ i64Max := by
  rw [asI64, i64Min, i64Max, Int.bmod_def]
  omega

theorem AdminSessionClaims.ofPayload_fits (payload : List UInt8) : (ofPayload payload).Fits := by
  simp only [Fits, ofPayload]
  exact ⟨asI64_fits _, asI64_fits _⟩

/-- A number of eight bytes is written back as these bytes. -/
theorem beBytes_field {bs : List UInt8} (h : bs.length = 8) : ofBe bs < 2 ^ 64 ∧ beBytes 8 (ofBe bs) = bs := by
  have hlt := ofBe_lt bs
  have hbytes := beBytes_ofBe bs
  rw [h] at hlt hbytes
  exact ⟨hlt, hbytes⟩

/-- **Nothing of a payload is lost** in the claims that are read off it. -/
theorem payload_decode {payload : List UInt8} (h : payload.length = 57) :
    (AdminSessionClaims.ofPayload payload).payload = payload := by
  have hfield : ∀ k, k + 8 ≤ 57 → ((payload.drop k).take 8).length = 8 := fun k hk => by
    rw [List.length_take, List.length_drop]
    omega
  obtain ⟨hlt1, hbytes1⟩ := beBytes_field (hfield 1 (by omega))
  obtain ⟨hlt9, hbytes9⟩ := beBytes_field (hfield 9 (by omega))
  obtain ⟨hlt17, hbytes17⟩ := beBytes_field (hfield 17 (by omega))
  have hepoch : (UInt64.ofNat (ofBe ((payload.drop 17).take 8))).toNat = ofBe ((payload.drop 17).take 8) :=
    UInt64.toNat_ofNat_of_lt' hlt17
  have hcsrf : (Vector.ofFn fun i : Fin 32 => payload.getD (25 + i) 0).toList = payload.drop 25 := by
    refine List.ext_getElem (by simp [h]) fun i hi hi' => ?_
    have hi57 : 25 + i < payload.length := by
      rw [List.length_drop] at hi'
      omega
    simp [hi57]
  -- the five fields lie next to each other
  have hsplit : ∀ k, payload.drop k = (payload.drop k).take 8 ++ payload.drop (k + 8) := fun k => by
    rw [← List.drop_drop, List.take_append_drop]
  have hhead : payload = payload.getD 0 0 :: payload.drop 1 := by
    cases payload with
    | nil => simp at h
    | cons b bs => rfl
  calc (AdminSessionClaims.ofPayload payload).payload
      = payload.getD 0 0 :: ((payload.drop 1).take 8 ++ (payload.drop 9).take 8 ++ (payload.drop 17).take 8 ++
          payload.drop 25) := by
        rw [AdminSessionClaims.payload]
        simp only [AdminSessionClaims.ofPayload]
        rw [asU64_asI64 hlt1, asU64_asI64 hlt9, hbytes1, hbytes9, hepoch, hbytes17, hcsrf]
    _ = payload.getD 0 0 :: payload.drop 1 := by
        have h1 := hsplit 1
        have h9 := hsplit 9
        rw [hsplit 17] at h9
        rw [h9] at h1
        refine congrArg (_ :: ·) (Eq.trans ?_ h1.symm)
        simp only [List.append_assoc]
    _ = payload := hhead.symm

/-! ## The cookie -/

theorem cookieBytes_ok {cookieVal : String} {full : List UInt8} (h : cookieBytes cookieVal = .ok full) :
    cookieVal = String.ofList (base64UrlEncode full) := by
  rw [cookieBytes] at h
  cases hdec : base64UrlDecode cookieVal.toList with
  | none => simp [hdec] at h
  | some bs =>
    rw [hdec] at h
    cases h
    rw [base64UrlEncode_decode hdec, String.ofList_toList]

/-- What an accepted cookie has passed. -/
theorem decode_ok {A : AuthCrates} {now : ℤ} {cookieVal : String} {key : List UInt8}
    {claims : AdminSessionClaims} (h : decodeAndVerifySession A now cookieVal key = .ok claims) :
    ∃ payload, payload.length = 57 ∧ cookieBytes cookieVal = .ok (payload ++ A.hmacSha256 key payload) ∧
      claims = .ofPayload payload ∧ claims.version = 1 ∧ now ≤ claims.expiresAt := by
  obtain ⟨full, hfull, h⟩ := bind_ok.mp h
  obtain ⟨_, hlen, h⟩ := bind_ok.mp h
  obtain ⟨_, htag, h⟩ := bind_ok.mp h
  obtain ⟨_, hversion, h⟩ := bind_ok.mp h
  obtain ⟨_, hexpired, h⟩ := bind_ok.mp h
  have hlen := not_not.mp (refuseIf_ok.mp hlen)
  have htag := not_not.mp (refuseIf_ok.mp htag)
  have hclaims : AdminSessionClaims.ofPayload (full.take 57) = claims := Except.ok.inj h
  subst hclaims
  refine ⟨full.take 57, by rw [List.length_take, hlen]; rfl, ?_, rfl, ?_, ?_⟩
  · rw [htag, List.take_append_drop]
    exact hfull
  · exact not_not.mp (refuseIf_ok.mp hversion)
  · simp only [AdminSessionClaims.ofPayload]
    exact not_lt.mp (refuseIf_ok.mp hexpired)

/-- **The cookies of a session.** A cookie is accepted with some claims exactly if it is the encoding of
these claims, which are of version 1 and have not expired. So no two cookies carry the same claims. -/
theorem session_cookie_iff {A : AuthCrates} (htag : ∀ key message, (A.hmacSha256 key message).length = 32)
    (now : ℤ) (key : List UInt8) (claims : AdminSessionClaims) :
    (∀ cookieVal, decodeAndVerifySession A now cookieVal key = .ok claims ↔
      claims.Fits ∧ claims.version = 1 ∧ now ≤ claims.expiresAt ∧
        cookieVal = encodeSessionCookie A claims key) ∧
    ∀ cookie₁ cookie₂, decodeAndVerifySession A now cookie₁ key = .ok claims →
      decodeAndVerifySession A now cookie₂ key = .ok claims → cookie₁ = cookie₂ := by
  have hiff : ∀ cookieVal, decodeAndVerifySession A now cookieVal key = .ok claims ↔
      claims.Fits ∧ claims.version = 1 ∧ now ≤ claims.expiresAt ∧
        cookieVal = encodeSessionCookie A claims key := by
    intro cookieVal
    constructor
    · intro h
      obtain ⟨payload, hlen, hbytes, rfl, hversion, hnow⟩ := decode_ok h
      refine ⟨AdminSessionClaims.ofPayload_fits payload, hversion, hnow, ?_⟩
      rw [encodeSessionCookie, payload_decode hlen]
      exact cookieBytes_ok hbytes
    · rintro ⟨⟨hissued, hexpires⟩, hversion, hnow, rfl⟩
      exact decode_encode (htag key _) hversion hissued hexpires hnow
  refine ⟨hiff, fun cookie₁ cookie₂ h₁ h₂ => ?_⟩
  exact ((hiff cookie₁).mp h₁).2.2.2.trans ((hiff cookie₂).mp h₂).2.2.2.symm

/-- A session that begins at the time 1000. -/
theorem session_cookie_sample :
    decodeAndVerifySession Sample.authCrates 1000
      (encodeSessionCookie Sample.authCrates (Sample.claims 1) Sample.sessionKey.toList)
        Sample.sessionKey.toList = .ok (Sample.claims 1) := by
  have htag : ∀ key message, (Sample.authCrates.hmacSha256 key message).length = 32 := fun key message => by
    simp only [Sample.authCrates, Sample.hmacSha256]
    split_ifs <;> rfl
  exact ((session_cookie_iff htag 1000 Sample.sessionKey.toList (Sample.claims 1)).1 _).mpr
    ⟨by decide, by decide, by decide, rfl⟩

end RXCore
