import RXCore.Transport.Reality
import RXCore.Lib.Alphabets

/-!
# The text of a private key

Settings, profiles, runtimes and the public key read a private key as base64, and as hexadecimal if that fails;
the length is looked at afterwards. 64 hexadecimal digits are base64 as well, of 48 bytes.

* `KeyTextAccepted`, `KeyTexts`: both texts of a key are to be accepted, with one public key;
* `decodePrivateKey_base64`, `decodePrivateKey_hex`: what is read of each text;
* `deriveRealityPublicKey_base64`: the public key of a base64 text;
* `hex_key_refused`: a hexadecimal text is refused in all four places;
* **`key_texts_never`**: so no key has two texts;
* **`hex_key_rejected`**: the key of the sample server.
-/

set_option autoImplicit false

namespace RXCore

open Encoding

/-- A text of a private key is accepted in settings, in a profile and in the runtime of the profile. -/
structure KeyTextAccepted (X : Crates) (s : RealitySettings) (p : RealityProfile) (text : String) : Prop where
  settings : ∃ s', { s with privateKey := text }.validateAndNormalize X = .ok s'
  profile : ∃ p', { p with privateKey := text }.validateAndNormalize X = .ok p'
  runtime : ∃ r, RealityRuntime.new X { p with privateKey := text } = .ok r

/-- The base64 text and the hexadecimal text of a key are accepted, and have one public key. -/
structure KeyTexts (X : Crates) (s : RealitySettings) (p : RealityProfile) (key : Key) : Prop where
  base64 : KeyTextAccepted X s p (base64Encode key.toList)
  hex : KeyTextAccepted X s p (hexEncode key.toList)
  publicKey : ∃ pbk, deriveRealityPublicKey X (base64Encode key.toList) = some pbk ∧
    deriveRealityPublicKey X (hexEncode key.toList) = some pbk

section

variable {X : Crates} {s : RealitySettings} {p : RealityProfile} {key : Key} {text : String}

/-- The base64 text of a key is read as the key. -/
theorem decodePrivateKey_base64 (key : Key) : decodePrivateKey (base64Encode key.toList) = .ok key.toList := by
  rw [decodePrivateKey, base64Decode_base64Encode]

/-- A hexadecimal text of a key is read as 48 bytes. -/
theorem decodePrivateKey_hex (h : hexDecode (utf8 text) = .ok key.toList) :
    ∃ bs, decodePrivateKey text = .ok bs ∧ bs.length = 48 := by
  obtain ⟨bs, hbs, hlen⟩ := base64Decode_of_hexDecode 16 h (by simp)
  exact ⟨bs, by rw [decodePrivateKey, hbs], hlen⟩

/-- The check of a private key passes its base64 text, and the public key is that of the key. -/
theorem deriveRealityPublicKey_base64 (key : Key) : validatePrivateKey (base64Encode key.toList) = .ok () ∧
    deriveRealityPublicKey X (base64Encode key.toList) =
      some (String.ofList (base64UrlEncode (X.x25519Public key).toList)) := by
  have hlen : key.toList.length = 32 := by simp
  constructor
  · rw [validatePrivateKey, decodePrivateKey_base64]
    exact if_pos hlen
  · rw [deriveRealityPublicKey, decodePrivateKey_base64]
    simp [Except.toOption, toKey_toList]

theorem toKey_none {bs : List UInt8} (h : bs.length ≠ 32) : toKey bs = none := dif_neg (by simpa using h)

/-- **A hexadecimal text of a key is refused**: by the check that settings and profiles share, by the runtime,
and it has no public key. -/
theorem hex_key_refused (h : hexDecode (utf8 text) = .ok key.toList) :
    validatePrivateKey text = .error "Reality private key must be 32 bytes, got 48 bytes" ∧
      (∀ p : RealityProfile, ∃ e, RealityRuntime.new X { p with privateKey := text } = .error e) ∧
      deriveRealityPublicKey X text = none := by
  obtain ⟨bs, hbs, hlen⟩ := decodePrivateKey_hex h
  have hne : bs.length ≠ 32 := by omega
  refine ⟨?_, fun p => ?_, ?_⟩
  · rw [validatePrivateKey, hbs]
    dsimp only
    rw [if_neg hne, hlen]
    rfl
  · cases hr : RealityRuntime.new X { p with privateKey := text } with
    | error e => exact ⟨e, rfl⟩
    | ok r =>
      simp only [RealityRuntime.new, bind_ok] at hr
      obtain ⟨pk, hpk, server, hs, -⟩ := hr
      rw [hbs] at hpk
      obtain rfl := Except.ok.inj hpk
      simp only [RealityServerRustls.new, bind_ok, toKey_none hne] at hs
      obtain ⟨_, -, hs⟩ := hs
      cases hs
  · rw [deriveRealityPublicKey, hbs]
    simp [Except.toOption, toKey_none hne]

/-- Settings that are accepted have a key that passes. -/
theorem validateSettings_key {s' : RealitySettings} (h : s.validateAndNormalize X = .ok s') :
    validatePrivateKey s.privateKey = .ok () := by
  simp only [RealitySettings.validateAndNormalize, bind_ok] at h
  obtain ⟨-, -, -, -, -, -, -, -, _, hkey, -⟩ := h
  exact hkey

/-- **No key has two texts that are accepted**, whatever the settings and the profile. -/
theorem key_texts_never (X : Crates) (s : RealitySettings) (p : RealityProfile) (key : Key) :
    ¬ KeyTexts X s p key := by
  rintro ⟨-, ⟨⟨s', hs⟩, -, -⟩, -⟩
  obtain ⟨hrefused, -⟩ := hex_key_refused (X := X) (hexDecode_hexEncode key.toList)
  cases hrefused.symm.trans (validateSettings_key hs)

end

/-! ## The key of the sample server -/

def settingsWith (sid : String) : RealitySettings :=
  ⟨"aka.ms:443", ["aka.ms"], "hZHP8YPZFBGa3Cno3nepKfop/+KWy3YmpXq5WQdfryI=", [sid]⟩

/-- **The key of the sample server** is accepted in base64, and refused in hexadecimal. -/
theorem hex_key_rejected :
    KeyTextAccepted Sample.crates (settingsWith "da09ebd28dc215c8") (profileWith "da09ebd28dc215c8")
        (base64Encode Sample.serverSecret.toList) ∧
      hexEncode Sample.serverSecret.toList = "8591cff183d914119adc29e8de77a929fa29ffe296cb7626a57ab959075faf22" ∧
      ¬ KeyTexts Sample.crates (settingsWith "da09ebd28dc215c8") (profileWith "da09ebd28dc215c8")
        Sample.serverSecret := by
  have htext : base64Encode Sample.serverSecret.toList = "hZHP8YPZFBGa3Cno3nepKfop/+KWy3YmpXq5WQdfryI=" := by
    decide
  refine ⟨?_, by decide, fun h => ?_⟩
  · rw [htext]
    exact ⟨⟨_, rfl⟩, ⟨_, rfl⟩, ⟨_, rfl⟩⟩
  · obtain ⟨pbk, -, hpbk⟩ := h.publicKey
    obtain ⟨-, -, hnone⟩ := hex_key_refused (X := Sample.crates) (hexDecode_hexEncode Sample.serverSecret.toList)
    cases hnone.symm.trans hpbk

end RXCore
