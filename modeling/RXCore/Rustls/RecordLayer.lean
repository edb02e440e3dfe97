import RXCore.Lib.Cursor
import RXCore.Lib.Encoding
import RXCore.Rustls.Message

/-!
# The record layer

Protection of records under a key, with a sequence number for each direction.

* `Aead`, `Aead.Lawful`: the cipher, and what the library relies on;
* `Iv`, `nonce`; **`nonce_injective`**: under one IV different sequence numbers give different nonces;
* `MessageEncrypter`, `MessageDecrypter`, and **`decrypt_encrypt`**;
* `RecordLayer` with its operations; `sealed` is the history of keys and nonces.
-/

set_option autoImplicit false

namespace RXCore.Rustls

open Cursor Cursor.Walk Encoding

/-- An AEAD algorithm of the cryptographic library, with keys in `κ`. -/
structure Aead (κ : Type) where
  tagLen : ℕ
  sealInPlaceAppendTag : κ → List UInt8 → List UInt8 → List UInt8 → Option (List UInt8)
  openInPlace : κ → List UInt8 → List UInt8 → List UInt8 → Option (List UInt8)

/-- What the algorithm promises: plaintexts of records are sealed, with a short tag, and come out again. -/
structure Aead.Lawful {κ : Type} (A : Aead κ) : Prop where
  seals : ∀ k nonce aad p, p.length ≤ maxFragmentLen + 1 → (A.sealInPlaceAppendTag k nonce aad p).isSome
  sealed_length : ∀ k nonce aad p c, A.sealInPlaceAppendTag k nonce aad p = some c → c.length = p.length + A.tagLen
  opened : ∀ k nonce aad p c, A.sealInPlaceAppendTag k nonce aad p = some c → A.openInPlace k nonce aad c = some p
  opened_length : ∀ k nonce aad c p, A.openInPlace k nonce aad c = some p → p.length ≤ c.length
  tagLen_le : A.tagLen ≤ 255

/-- An algorithm that masks with its key, a byte, and has a tag of sixteen of them. -/
def Aead.masking : Aead UInt8 where
  tagLen := 16
  sealInPlaceAppendTag k _ _ p := some (p.map (· ^^^ k) ++ List.replicate 16 k)
  openInPlace k _ _ c :=
    if 16 ≤ c.length ∧ c.drop (c.length - 16) = List.replicate 16 k then
      some ((c.take (c.length - 16)).map (· ^^^ k))
    else none

theorem Aead.masking_lawful : Aead.masking.Lawful where
  seals k nonce aad p _ := rfl
  sealed_length k nonce aad p c h := by
    obtain rfl := Option.some.inj h
    rw [List.length_append, List.length_map, List.length_replicate, Aead.masking]
  opened k nonce aad p c h := by
    obtain rfl := Option.some.inj h
    have hlen : (p.map (· ^^^ k) ++ List.replicate 16 k).length - 16 = (p.map (· ^^^ k)).length := by simp
    have hmask : (p.map (· ^^^ k)).map (· ^^^ k) = p := by
      rw [List.map_map]
      refine (List.map_congr_left fun b _ => ?_).trans (List.map_id p)
      simp
    show (if _ then _ else _) = _
    rw [hlen, List.drop_left, List.take_left, hmask, if_pos ⟨by simp, rfl⟩]
  opened_length k nonce aad c p h := by
    simp only [Aead.masking] at h
    split_ifs at h
    obtain rfl := Option.some.inj h
    rw [List.length_map, List.length_take]
    exact min_le_right _ _
  tagLen_le := by decide

/-! ## Nonces -/

/-- `Iv`, of `NONCE_LEN` bytes. -/
structure Iv where
  bytes : List UInt8
  length : bytes.length = 12
deriving DecidableEq

/-- `Nonce::new`: the sequence number in big-endian order at the end of twelve bytes, and the IV. -/
def nonce (iv : Iv) (seq : UInt64) : List UInt8 :=
  (List.replicate 4 0 ++ beBytes 8 seq.toNat).zipWith (· ^^^ ·) iv.bytes

/-- A list is determined by what it is combined to, as long as each of its elements is. -/
theorem zipWith_left_injective {α β γ : Type} {f : α → β → γ} (hf : ∀ b, Function.Injective (f · b))
    {l l' : List α} {m : List β} (hl : l.length = m.length) (hl' : l'.length = m.length)
    (h : l.zipWith f m = l'.zipWith f m) : l = l' := by
  induction m generalizing l l' with
  | nil =>
    rw [List.length_nil] at hl hl'
    rw [List.eq_nil_of_length_eq_zero hl, List.eq_nil_of_length_eq_zero hl']
  | cons b m ih =>
    cases l with
    | nil => cases hl
    | cons a l =>
      cases l' with
      | nil => cases hl'
      | cons a' l' =>
        rw [List.zipWith_cons_cons, List.zipWith_cons_cons] at h
        obtain ⟨ha, h⟩ := List.cons.inj h
        rw [hf b ha, ih (Nat.succ.inj hl) (Nat.succ.inj hl') h]

/-- **Under one IV different sequence numbers give different nonces.** -/
theorem nonce_injective (iv : Iv) : Function.Injective (nonce iv) := by
  intro m n h
  have hlen : ∀ k : ℕ, (List.replicate 4 (0 : UInt8) ++ beBytes 8 k).length = iv.bytes.length := fun k => by
    rw [List.length_append, List.length_replicate, beBytes_length, iv.length]
  have hxor : ∀ b : UInt8, Function.Injective (· ^^^ b) := by
    intro b a a' ha
    have hcancel := congrArg (· ^^^ b) ha
    simpa [UInt8.xor_assoc] using hcancel
  have hbytes := List.append_cancel_left (zipWith_left_injective hxor (hlen _) (hlen _) h)
  have hnat := congrArg ofBe hbytes
  have hpow : 256 ^ 8 = 2 ^ 64 := by norm_num
  rw [ofBe_beBytes, ofBe_beBytes, hpow, Nat.mod_eq_of_lt m.toNat_lt, Nat.mod_eq_of_lt n.toNat_lt] at hnat
  exact UInt64.toNat_inj.mp hnat

/-- `make_tls13_aad`. -/
def makeTls13Aad (payloadLen : ℕ) : List UInt8 :=
  [ContentType.applicationData.getU8, 0x03, 0x03, .ofNat (payloadLen / 256), .ofNat payloadLen]

/-! ## Encrypters -/

/-- `MessageEncrypter`: the one that does not work, and the one of TLS 1.3. -/
inductive MessageEncrypter (κ : Type) where
  | invalid
  | tls13 (encKey : κ) (iv : Iv)

/-- `MessageDecrypter`. -/
inductive MessageDecrypter (κ : Type) where
  | invalid
  | tls13 (decKey : κ) (iv : Iv)

variable {κ : Type} (A : Aead κ)

/-- `encrypt`. -/
def MessageEncrypter.encrypt : MessageEncrypter κ → PlainMessage → UInt64 → Except Error OpaqueMessage
  | invalid, _, _ => .error .encryptError
  | tls13 encKey iv, msg, seq =>
    let totalLen := msg.payload.length + 1 + A.tagLen
    match A.sealInPlaceAppendTag encKey (nonce iv seq) (makeTls13Aad totalLen) (msg.payload ++ [msg.typ.getU8]) with
    | some payload => .ok ⟨.applicationData, .tlsV1_2, payload⟩
    | none => .error .encryptError

/-- `decrypt`. -/
def MessageDecrypter.decrypt : MessageDecrypter κ → OpaqueMessage → UInt64 → Except Error PlainMessage
  | invalid, _, _ => .error .decryptError
  | tls13 decKey iv, msg, seq =>
    if msg.payload.length < A.tagLen then .error .decryptError
    else match A.openInPlace decKey (nonce iv seq) (makeTls13Aad msg.payload.length) msg.payload with
      | some payload => OpaqueMessage.intoTls13UnpaddedMessage { msg with payload := payload }
      | none => .error .decryptError

variable {A}

/-- A record of TLS 1.3 is sealed. -/
theorem encrypt_tls13 (hA : A.Lawful) (k : κ) (iv : Iv) {m : PlainMessage} (hle : m.payload.length ≤ maxFragmentLen)
    (seq : UInt64) : ∃ c, (MessageEncrypter.tls13 k iv).encrypt A m seq = .ok ⟨.applicationData, .tlsV1_2, c⟩ ∧
      c.length = m.payload.length + 1 + A.tagLen ∧
      A.openInPlace k (nonce iv seq) (makeTls13Aad c.length) c = some (m.payload ++ [m.typ.getU8]) := by
  have hlen : (m.payload ++ [m.typ.getU8]).length = m.payload.length + 1 := by simp
  obtain ⟨c, hc⟩ := Option.isSome_iff_exists.mp (hA.seals k (nonce iv seq)
    (makeTls13Aad (m.payload.length + 1 + A.tagLen)) (m.payload ++ [m.typ.getU8]) (by rw [hlen]; omega))
  have hclen := hA.sealed_length _ _ _ _ _ hc
  rw [hlen] at hclen
  refine ⟨c, ?_, hclen, ?_⟩
  · simp only [MessageEncrypter.encrypt, hc]
  · rw [hclen]
    exact hA.opened _ _ _ _ _ hc

/-- **What is encrypted is decrypted** under the same key and number. -/
theorem decrypt_encrypt (hA : A.Lawful) {k : κ} {iv : Iv} {m : PlainMessage} {seq : UInt64} {o : OpaqueMessage}
    (hle : m.payload.length ≤ maxFragmentLen) (htyp : m.typ.isUnknown = false)
    (h : (MessageEncrypter.tls13 k iv).encrypt A m seq = .ok o) :
    (MessageDecrypter.tls13 k iv).decrypt A o seq = .ok { m with version := .tlsV1_3 } := by
  obtain ⟨c, hc, hclen, hopen⟩ := encrypt_tls13 hA k iv hle seq
  obtain rfl := Except.ok.inj (h.symm.trans hc)
  have hnot : ¬ c.length < A.tagLen := by omega
  simp only [MessageDecrypter.decrypt, hnot, if_false, hopen]
  exact intoTls13UnpaddedMessage_append htyp hle

/-- An encrypted record can be read off the wire. -/
theorem framed_encrypt (hA : A.Lawful) {k : κ} {iv : Iv} {m : PlainMessage} {seq : UInt64} {o : OpaqueMessage}
    (hle : m.payload.length ≤ maxFragmentLen) (h : (MessageEncrypter.tls13 k iv).encrypt A m seq = .ok o) :
    o.Framed := by
  obtain ⟨c, hc, hclen, -⟩ := encrypt_tls13 hA k iv hle seq
  obtain rfl := Except.ok.inj (h.symm.trans hc)
  refine ⟨rfl, rfl, rfl, fun hne => absurd rfl hne, ?_⟩
  have htag := hA.tagLen_le
  simp only [maxFragmentLen] at hle
  show c.length < OpaqueMessage.maxPayload
  rw [hclen, OpaqueMessage.maxPayload]
  omega

/-- Decryption does not make records longer. -/
theorem length_of_decrypt (hA : A.Lawful) {d : MessageDecrypter κ} {o : OpaqueMessage} {seq : UInt64}
    {m : PlainMessage} (h : d.decrypt A o seq = .ok m) : m.payload.length ≤ o.payload.length := by
  cases d with
  | invalid => cases h
  | tls13 k iv =>
    rw [MessageDecrypter.decrypt] at h
    split_ifs at h
    cases hopen : A.openInPlace k (nonce iv seq) (makeTls13Aad o.payload.length) o.payload with
    | none => simp [hopen] at h
    | some payload =>
      simp only [hopen] at h
      exact (OpaqueMessage.length_of_unpadded h).trans (hA.opened_length _ _ _ _ _ hopen)

/-! ## The layer -/

/-- `SEQ_SOFT_LIMIT`. -/
def seqSoftLimit : UInt64 := 0xffff_ffff_ffff_0000

/-- `SEQ_HARD_LIMIT`. -/
def seqHardLimit : UInt64 := 0xffff_ffff_ffff_fffe

inductive DirectionState where
  | invalid
  | prepared
  | active
deriving DecidableEq

/-- `RecordLayer`; `sealed` is not in the source: the keys and nonces that records were sealed with so far. -/
structure RecordLayer (κ : Type) where
  messageEncrypter : MessageEncrypter κ
  messageDecrypter : MessageDecrypter κ
  writeSeq : UInt64
  readSeq : UInt64
  hasDecrypted : Bool
  encryptState : DirectionState
  decryptState : DirectionState
  trialDecryptionLen : Option ℕ
  sealed : List (κ × List UInt8)

/-- `Decrypted`. -/
structure Decrypted where
  wantCloseBeforeDecrypt : Bool
  plaintext : PlainMessage

namespace RecordLayer

/-- `RecordLayer::new`. -/
def new : RecordLayer κ := ⟨.invalid, .invalid, 0, 0, false, .invalid, .invalid, none, []⟩

variable (r : RecordLayer κ)

/-- `doing_trial_decryption`. -/
def doingTrialDecryption (requested : ℕ) : Bool × RecordLayer κ :=
  match r.trialDecryptionLen with
  | some value =>
    if requested ≤ value then (true, { r with trialDecryptionLen := some (value - requested) }) else (false, r)
  | none => (false, r)

variable (A) in
/-- `decrypt_incoming`; the number wraps, as it does in a release build. -/
def decryptIncoming (encr : OpaqueMessage) : Except Error (Option Decrypted) × RecordLayer κ :=
  if r.decryptState ≠ .active then (.ok (some ⟨false, encr.intoPlainMessage⟩), r)
  else
    let wantCloseBeforeDecrypt := r.readSeq == seqSoftLimit
    match r.messageDecrypter.decrypt A encr r.readSeq with
    | .ok plaintext =>
      (.ok (some ⟨wantCloseBeforeDecrypt, plaintext⟩), { r with readSeq := r.readSeq + 1, hasDecrypted := true })
    | .error .decryptError =>
      let (trial, r') := r.doingTrialDecryption encr.payload.length
      if trial then (.ok none, r') else (.error .decryptError, r')
    | .error e => (.error e, r)

def wantsCloseBeforeEncrypt : Bool := r.writeSeq == seqSoftLimit

def encryptExhausted : Bool := decide (seqHardLimit ≤ r.writeSeq)

def isEncrypting : Bool := r.encryptState == .active

/-- What the encrypter uses for a record: its key and the nonce. -/
def sealing : MessageEncrypter κ → UInt64 → List (κ × List UInt8)
  | .invalid, _ => []
  | .tls13 encKey iv, seq => [(encKey, nonce iv seq)]

variable (A) in
/-- `encrypt_outgoing`, with its assertion and its `unwrap`. -/
def encryptOutgoing (plain : PlainMessage) : Walk (OpaqueMessage × RecordLayer κ) :=
  if r.encryptExhausted then panic
  else
    let seq := r.writeSeq
    match r.messageEncrypter.encrypt A plain seq with
    | .ok em => ok (em, { r with writeSeq := seq + 1, sealed := r.sealed ++ sealing r.messageEncrypter seq })
    | .error _ => panic

def prepareMessageEncrypter (cipher : MessageEncrypter κ) : RecordLayer κ :=
  { r with messageEncrypter := cipher, writeSeq := 0, encryptState := .prepared }

def prepareMessageDecrypter (cipher : MessageDecrypter κ) : RecordLayer κ :=
  { r with messageDecrypter := cipher, readSeq := 0, decryptState := .prepared }

def startEncrypting : RecordLayer κ := { r with encryptState := .active }

def startDecrypting : RecordLayer κ := { r with decryptState := .active }

def setMessageEncrypter (cipher : MessageEncrypter κ) : RecordLayer κ :=
  (r.prepareMessageEncrypter cipher).startEncrypting

def setMessageDecrypter (cipher : MessageDecrypter κ) : RecordLayer κ :=
  { (r.prepareMessageDecrypter cipher).startDecrypting with trialDecryptionLen := none }

def setMessageDecrypterWithTrialDecryption (cipher : MessageDecrypter κ) (maxLength : ℕ) : RecordLayer κ :=
  { (r.prepareMessageDecrypter cipher).startDecrypting with trialDecryptionLen := some maxLength }

def finishTrialDecryption : RecordLayer κ := { r with trialDecryptionLen := none }

/-- What comes out of the layer is no longer than what went in. -/
theorem length_of_decryptIncoming (hA : A.Lawful) {r r' : RecordLayer κ} {encr : OpaqueMessage} {d : Decrypted}
    (h : r.decryptIncoming A encr = (.ok (some d), r')) : d.plaintext.payload.length ≤ encr.payload.length := by
  rw [decryptIncoming] at h
  split_ifs at h with hstate
  · obtain ⟨h, -⟩ := Prod.mk.inj h
    obtain rfl := Option.some.inj (Except.ok.inj h)
    exact le_rfl
  · cases hd : r.messageDecrypter.decrypt A encr r.readSeq with
    | ok plaintext =>
      simp only [hd, Prod.mk.injEq, Except.ok.injEq, Option.some.injEq] at h
      obtain ⟨rfl, -⟩ := h
      exact length_of_decrypt hA hd
    | error e =>
      cases e with
      | decryptError =>
        simp only [hd] at h
        split_ifs at h <;> simp at h
      | _ => simp [hd] at h

end RecordLayer

end RXCore.Rustls
