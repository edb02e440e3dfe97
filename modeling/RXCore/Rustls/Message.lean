import RXCore.Std

/-!
# Records of the TLS library

The records of the vendored TLS library as they are on the wire, and how a message is cut into them.

* `ContentType`, `ProtocolVersion`, with their codes;
* `OpaqueMessage`, `OpaqueMessage.read`, `OpaqueMessage.encode`; `Framed`, and **`read_eq_ok_iff`**: what is read
  is exactly what was written;
* `read_append_of_ok`, **`read_append_of_error`**: no error but a missing end depends on what comes later;
* `unpadTls13`, `intoTls13UnpaddedMessage`: the content type inside a protected record;
* `MessageFragmenter`, `fragmentSlice`; **`fragmentSlice_flatten`**: the fragments make up the payload.
-/

set_option autoImplicit false

namespace RXCore.Rustls

inductive ContentType where
  | changeCipherSpec
  | alert
  | handshake
  | applicationData
  | heartbeat
  | unknown (x : UInt8)
deriving DecidableEq

namespace ContentType

def getU8 : ContentType → UInt8
  | changeCipherSpec => 0x14
  | alert => 0x15
  | handshake => 0x16
  | applicationData => 0x17
  | heartbeat => 0x18
  | unknown x => x

def ofU8 (x : UInt8) : ContentType :=
  if x = 0x14 then changeCipherSpec
  else if x = 0x15 then alert
  else if x = 0x16 then handshake
  else if x = 0x17 then applicationData
  else if x = 0x18 then heartbeat
  else unknown x

def isUnknown : ContentType → Bool
  | unknown _ => true
  | _ => false

@[simp] theorem getU8_ofU8 (x : UInt8) : (ofU8 x).getU8 = x := by
  unfold ofU8
  split_ifs with h1 h2 h3 h4 h5 <;> simp_all [getU8]

theorem ofU8_getU8 {t : ContentType} (h : t.isUnknown = false) : ofU8 t.getU8 = t := by
  cases t with
  | unknown x => cases h
  | _ => rfl

end ContentType

inductive ProtocolVersion where
  | sslV2
  | sslV3
  | tlsV1_0
  | tlsV1_1
  | tlsV1_2
  | tlsV1_3
  | dtlsV1_0
  | dtlsV1_2
  | dtlsV1_3
  | unknown (x : UInt16)
deriving DecidableEq

namespace ProtocolVersion

def getU16 : ProtocolVersion → UInt16
  | sslV2 => 0x0200
  | sslV3 => 0x0300
  | tlsV1_0 => 0x0301
  | tlsV1_1 => 0x0302
  | tlsV1_2 => 0x0303
  | tlsV1_3 => 0x0304
  | dtlsV1_0 => 0xFEFF
  | dtlsV1_2 => 0xFEFD
  | dtlsV1_3 => 0xFEFC
  | unknown x => x

def ofU16 (x : UInt16) : ProtocolVersion :=
  if x = 0x0200 then sslV2
  else if x = 0x0300 then sslV3
  else if x = 0x0301 then tlsV1_0
  else if x = 0x0302 then tlsV1_1
  else if x = 0x0303 then tlsV1_2
  else if x = 0x0304 then tlsV1_3
  else if x = 0xFEFF then dtlsV1_0
  else if x = 0xFEFD then dtlsV1_2
  else if x = 0xFEFC then dtlsV1_3
  else unknown x

@[simp] theorem getU16_ofU16 (x : UInt16) : (ofU16 x).getU16 = x := by
  unfold ofU16
  split_ifs <;> simp_all [getU16]

/-- An unknown version that is not `0x03XX`; the known ones that are not are let through. -/
def isForeign : ProtocolVersion → Bool
  | unknown x => x &&& 0xff00 != 0x0300
  | _ => false

end ProtocolVersion

/-! ## Errors -/

/-- `InvalidMessage`, of which a record or a handshake message may give these. -/
inductive InvalidMessage where
  | handshakePayloadTooLarge
  | invalidCcs
  | invalidContentType
  | invalidEmptyPayload
  | invalidKeyUpdate
  | messageTooLarge
  | messageTooShort
  | missingData (what : String)
  | trailingData (what : String)
  | unexpectedMessage (what : String)
  | unknownProtocolVersion
deriving DecidableEq

inductive PeerMisbehaved where
  | duplicateNewSessionTicketExtensions
  | illegalMiddleboxChangeCipherSpec
  | illegalTlsInnerPlaintext
  | keyEpochWithPendingFragment
  | messageInterleavedWithHandshakeMessage
  | rejectedEarlyDataInterleavedWithHandshakeMessage
deriving DecidableEq

/-- `AlertDescription`, as its code. -/
abbrev AlertDescription := UInt8

/-- `Error`, of which the transport may give these. -/
inductive Error where
  | invalidMessage (e : InvalidMessage)
  | peerMisbehaved (e : PeerMisbehaved)
  | alertReceived (description : AlertDescription)
  | decryptError
  | encryptError
  | peerSentOversizedRecord
  | handshakeNotComplete
  | inappropriateMessage (expectTypes : List ContentType) (gotType : ContentType)
  | inappropriateHandshakeMessage (expectTypes : List UInt8) (gotType : UInt8)
  | badMaxFragmentSize
  | general (e : String)
deriving DecidableEq

/-- `MessageError`. -/
inductive MessageError where
  | tooShortForHeader
  | tooShortForLength
  | invalidEmptyPayload
  | messageTooLarge
  | invalidContentType
  | unknownProtocolVersion
deriving DecidableEq

/-- More of the stream may make up for the error. -/
def MessageError.tooShort : MessageError → Bool
  | .tooShortForHeader | .tooShortForLength => true
  | _ => false

/-! ## Records -/

/-- A record as it is on the wire. -/
structure OpaqueMessage where
  typ : ContentType
  version : ProtocolVersion
  payload : List UInt8
deriving DecidableEq

/-- A record without protection. -/
structure PlainMessage where
  typ : ContentType
  version : ProtocolVersion
  payload : List UInt8
deriving DecidableEq

def OpaqueMessage.intoPlainMessage (m : OpaqueMessage) : PlainMessage := ⟨m.typ, m.version, m.payload⟩

def PlainMessage.intoUnencryptedOpaque (m : PlainMessage) : OpaqueMessage := ⟨m.typ, m.version, m.payload⟩

/-- `u8::read`. -/
def readU8 : List UInt8 → Option (UInt8 × List UInt8)
  | b :: r => some (b, r)
  | [] => none

/-- `u16::read`. -/
def readU16 : List UInt8 → Option (ℕ × List UInt8)
  | a :: b :: r => some (u16 a b, r)
  | _ => none

/-- `map_err` of an error that does not matter. -/
def orError {ε α : Type} (e : ε) : Option α → Except ε α
  | some a => .ok a
  | none => .error e

/-- A check in a sequence of steps is passed if its condition fails. -/
theorem refuseIf_bind_ok {ε α : Type} {c : Prop} [Decidable c] {e : ε} {f : Unit → Except ε α} {a : α} :
    (refuseIf c e >>= f) = .ok a ↔ ¬ c ∧ f () = .ok a := by
  rw [bind_ok]
  constructor
  · rintro ⟨⟨⟩, hc, hf⟩
    exact ⟨refuseIf_ok.mp hc, hf⟩
  · rintro ⟨hc, hf⟩
    exact ⟨(), refuseIf_ok.mpr hc, hf⟩

/-- A sequence that begins with a check fails with the error of the check or after it. -/
theorem refuseIf_bind_error {ε α : Type} {c : Prop} [Decidable c] {e e' : ε} {f : Unit → Except ε α} :
    (refuseIf c e >>= f) = .error e' ↔ c ∧ e = e' ∨ ¬ c ∧ f () = .error e' := by
  rw [refuseIf]
  split_ifs with h
  · simp [h, bind, Except.bind]
  · simp [h, bind, Except.bind]

/-- The bytes of a 16-bit number. -/
theorem u16Bytes_u16 (a b : UInt8) : u16Bytes (u16 a b) = [a, b] := by
  have ha := a.toNat_lt
  have hb := b.toNat_lt
  have h1 : (a.toNat * 256 + b.toNat) / 256 = a.toNat := by omega
  have h2 : UInt8.ofNat (a.toNat * 256 + b.toNat) = b := by
    apply UInt8.toNat_inj.mp
    rw [UInt8.toNat_ofNat']
    omega
  rw [u16Bytes, u16, h1, h2, UInt8.ofNat_toNat]

namespace OpaqueMessage

/-- `MAX_PAYLOAD`. -/
def maxPayload : ℕ := 16384 + 2048

/-- `HEADER_SIZE`. -/
def headerSize : ℕ := 1 + 2 + 2

/-- `MAX_WIRE_SIZE`. -/
def maxWireSize : ℕ := maxPayload + headerSize

/-- The last part of `read`. -/
def readPayload (typ : ContentType) (version : ProtocolVersion) (r : List UInt8) :
    Except MessageError (OpaqueMessage × List UInt8) := do
  let (len, r) ← orError .tooShortForHeader (readU16 r)
  refuseIf (typ ≠ .applicationData ∧ len = 0) .invalidEmptyPayload
  refuseIf (maxPayload ≤ len) .messageTooLarge
  refuseIf (r.length < len) .tooShortForLength
  return (⟨typ, version, r.take len⟩, r.drop len)

/-- `read` after the content type. -/
def readVersion (typ : ContentType) (r : List UInt8) : Except MessageError (OpaqueMessage × List UInt8) := do
  let (v, r) ← orError .tooShortForHeader (readU16 r)
  let version := ProtocolVersion.ofU16 (.ofNat v)
  refuseIf version.isForeign .unknownProtocolVersion
  readPayload typ version r

/-- A record off the front of `r`, and what comes after it. -/
def read (r : List UInt8) : Except MessageError (OpaqueMessage × List UInt8) := do
  let (t, r) ← orError .tooShortForHeader (readU8 r)
  let typ := ContentType.ofU8 t
  refuseIf typ.isUnknown .invalidContentType
  readVersion typ r

/-- The header and the payload; the length is cut to 16 bits. -/
def encode (m : OpaqueMessage) : List UInt8 :=
  m.typ.getU8 :: u16Bytes m.version.getU16.toNat ++ u16Bytes m.payload.length ++ m.payload

@[simp] theorem encode_length (m : OpaqueMessage) : m.encode.length = headerSize + m.payload.length := by
  simp [encode, headerSize]
  omega

/-- A record that is written in a way that it can be read. -/
structure Framed (m : OpaqueMessage) : Prop where
  typ : m.typ.isUnknown = false
  version : ProtocolVersion.ofU16 m.version.getU16 = m.version
  native : m.version.isForeign = false
  nonempty : m.typ ≠ .applicationData → m.payload ≠ []
  length : m.payload.length < maxPayload

theorem read_cons (t : UInt8) (r : List UInt8) :
    read (t :: r) = (do
      refuseIf (ContentType.ofU8 t).isUnknown .invalidContentType
      readVersion (.ofU8 t) r) := rfl

theorem readPayload_cons (typ : ContentType) (version : ProtocolVersion) (c d : UInt8) (r : List UInt8) :
    readPayload typ version (c :: d :: r) = (do
      refuseIf (typ ≠ .applicationData ∧ u16 c d = 0) .invalidEmptyPayload
      refuseIf (maxPayload ≤ u16 c d) .messageTooLarge
      refuseIf (r.length < u16 c d) .tooShortForLength
      return (⟨typ, version, r.take (u16 c d)⟩, r.drop (u16 c d))) := rfl

theorem readVersion_cons (typ : ContentType) (a b : UInt8) (r : List UInt8) :
    readVersion typ (a :: b :: r) = (do
      refuseIf (ProtocolVersion.ofU16 (.ofNat (u16 a b))).isForeign .unknownProtocolVersion
      readPayload typ (.ofU16 (.ofNat (u16 a b))) r) := rfl

/-- A record is read off a stream in which its header is complete. -/
theorem read_header (t a b c d : UInt8) (body : List UInt8) :
    read (t :: a :: b :: c :: d :: body) = (do
      refuseIf (ContentType.ofU8 t).isUnknown .invalidContentType
      refuseIf (ProtocolVersion.ofU16 (.ofNat (u16 a b))).isForeign .unknownProtocolVersion
      refuseIf (ContentType.ofU8 t ≠ .applicationData ∧ u16 c d = 0) .invalidEmptyPayload
      refuseIf (maxPayload ≤ u16 c d) .messageTooLarge
      refuseIf (body.length < u16 c d) .tooShortForLength
      return (⟨.ofU8 t, .ofU16 (.ofNat (u16 a b)), body.take (u16 c d)⟩, body.drop (u16 c d))) := rfl

/-- A stream off which a record is read has a complete header. -/
theorem header_of_read_ok {u r : List UInt8} {m : OpaqueMessage} (h : read u = .ok (m, r)) :
    ∃ t a b c d body, u = t :: a :: b :: c :: d :: body := by
  simp only [read, readVersion, readPayload, bind_ok] at h
  obtain ⟨⟨t, r1⟩, h1, -, -, ⟨v, r2⟩, h2, -, -, ⟨len, r3⟩, h3, -⟩ := h
  cases u with
  | nil => cases h1
  | cons t u =>
    obtain ⟨-, rfl⟩ := Prod.mk.inj (Except.ok.inj h1)
    rcases u with _ | ⟨a, _ | ⟨b, u⟩⟩
    · cases h2
    · cases h2
    · obtain ⟨-, rfl⟩ := Prod.mk.inj (Except.ok.inj h2)
      rcases u with _ | ⟨c, _ | ⟨d, body⟩⟩
      · cases h3
      · cases h3
      · exact ⟨t, a, b, c, d, body, rfl⟩

/-- **What is read is exactly what was written**, with whatever comes after it. -/
theorem read_eq_ok_iff {u r : List UInt8} {m : OpaqueMessage} :
    read u = .ok (m, r) ↔ m.Framed ∧ u = m.encode ++ r := by
  constructor
  · intro h
    obtain ⟨t, a, b, c, d, body, rfl⟩ := header_of_read_ok h
    rw [read_header] at h
    simp only [refuseIf_bind_ok, Bool.not_eq_true, not_le, not_lt, not_and] at h
    obtain ⟨htyp, hversion, hempty, hlarge, hlen, h⟩ := h
    obtain ⟨rfl, rfl⟩ := Prod.mk.inj (Except.ok.inj h)
    have hbody : (body.take (u16 c d)).length = u16 c d := by rw [List.length_take, min_eq_left hlen]
    refine ⟨⟨htyp, by simp, hversion, fun hne hnil => hempty hne ?_, by simpa [hbody] using hlarge⟩, ?_⟩
    · rw [← hbody, show body.take (u16 c d) = [] from hnil]
      rfl
    · rw [encode, hbody, ContentType.getU8_ofU8, ProtocolVersion.getU16_ofU16,
        UInt16.toNat_ofNat_of_lt' (u16_lt a b), u16Bytes_u16, u16Bytes_u16]
      simp
  · rintro ⟨hm, rfl⟩
    have hlt : m.payload.length < 65536 := hm.length.trans (by decide)
    rw [encode, u16Bytes, u16Bytes]
    simp only [List.cons_append, List.nil_append]
    rw [read_header, u16_ofNat, u16_ofNat, Nat.mod_eq_of_lt hlt, Nat.mod_eq_of_lt m.version.getU16.toNat_lt,
      UInt16.ofNat_toNat, ContentType.ofU8_getU8 hm.typ, hm.version, hm.typ, hm.native]
    have hempty : ¬ (m.typ ≠ .applicationData ∧ m.payload.length = 0) := fun h =>
      hm.nonempty h.1 (List.eq_nil_of_length_eq_zero h.2)
    simp only [refuseIf_bind_ok, hempty, not_le.mpr hm.length, List.length_append, List.take_left, List.drop_left]
    simp [pure, Except.pure]

/-- What comes after a record does not matter. -/
theorem read_append_of_ok {u r : List UInt8} {m : OpaqueMessage} (h : read u = .ok (m, r)) (v : List UInt8) :
    read (u ++ v) = .ok (m, r ++ v) := by
  rw [read_eq_ok_iff] at h ⊢
  exact ⟨h.1, by rw [h.2, List.append_assoc]⟩

theorem readPayload_append_of_error {typ : ContentType} {version : ProtocolVersion} {u : List UInt8}
    {e : MessageError} (h : readPayload typ version u = .error e) (he : e.tooShort = false) (v : List UInt8) :
    readPayload typ version (u ++ v) = .error e := by
  rcases u with _ | ⟨c, _ | ⟨d, body⟩⟩
  · obtain rfl := Except.error.inj h
    cases he
  · obtain rfl := Except.error.inj h
    cases he
  · rw [List.cons_append, List.cons_append]
    rw [readPayload_cons] at h ⊢
    simp only [refuseIf_bind_error] at h ⊢
    obtain h | ⟨h1, h | ⟨h2, ⟨-, rfl⟩ | ⟨-, h⟩⟩⟩ := h
    · exact .inl h
    · exact .inr ⟨h1, .inl h⟩
    · cases he
    · cases h

theorem readVersion_append_of_error {typ : ContentType} {u : List UInt8} {e : MessageError}
    (h : readVersion typ u = .error e) (he : e.tooShort = false) (v : List UInt8) :
    readVersion typ (u ++ v) = .error e := by
  rcases u with _ | ⟨a, _ | ⟨b, u⟩⟩
  · obtain rfl := Except.error.inj h
    cases he
  · obtain rfl := Except.error.inj h
    cases he
  · rw [List.cons_append, List.cons_append]
    rw [readVersion_cons] at h ⊢
    rw [refuseIf_bind_error] at h ⊢
    exact h.imp_right fun h => ⟨h.1, readPayload_append_of_error h.2 he v⟩

/-- **A record that is refused stays refused**, whatever comes after it. -/
theorem read_append_of_error {u : List UInt8} {e : MessageError} (h : read u = .error e)
    (he : e.tooShort = false) (v : List UInt8) : read (u ++ v) = .error e := by
  cases u with
  | nil =>
    obtain rfl := Except.error.inj h
    cases he
  | cons t u =>
    rw [List.cons_append]
    rw [read_cons, refuseIf_bind_error] at h ⊢
    exact h.imp_right fun h => ⟨h.1, readVersion_append_of_error h.2 he v⟩

/-- A stream off which no record can be read yet is shorter than the longest record. -/
theorem length_of_read_tooShort {u : List UInt8} {e : MessageError} (h : read u = .error e)
    (he : e.tooShort = true) : u.length < maxWireSize := by
  rcases u with _ | ⟨t, _ | ⟨a, _ | ⟨b, _ | ⟨c, _ | ⟨d, body⟩⟩⟩⟩⟩
  iterate 5 simp [maxWireSize, maxPayload, headerSize]
  rw [read_header] at h
  simp only [refuseIf_bind_error] at h
  obtain ⟨-, rfl⟩ | ⟨-, ⟨-, rfl⟩ | ⟨-, ⟨-, rfl⟩ | ⟨-, ⟨-, rfl⟩ | ⟨hle, ⟨hlt, -⟩ | ⟨-, h⟩⟩⟩⟩⟩ := h
  iterate 4 cases he
  · simp only [List.length_cons, maxWireSize, headerSize]
    omega
  · cases h

end OpaqueMessage

/-! ## Protected records -/

/-- `MAX_FRAGMENT_LEN`. -/
def maxFragmentLen : ℕ := 16384

/-- `unpad_tls13`: the zeros at the end, and the content type before them, are taken off. -/
def unpadTls13 (v : List UInt8) : ContentType × List UInt8 :=
  match v.reverse.dropWhile (· == 0) with
  | t :: r => (.ofU8 t, r.reverse)
  | [] => (.unknown 0, [])

/-- `into_tls13_unpadded_message`. -/
def OpaqueMessage.intoTls13UnpaddedMessage (m : OpaqueMessage) : Except Error PlainMessage := do
  refuseIf (maxFragmentLen + 1 < m.payload.length) .peerSentOversizedRecord
  let (typ, payload) := unpadTls13 m.payload
  refuseIf (typ = .unknown 0) (.peerMisbehaved .illegalTlsInnerPlaintext)
  refuseIf (maxFragmentLen < payload.length) .peerSentOversizedRecord
  return ⟨typ, .tlsV1_3, payload⟩

theorem unpadTls13_append {t : UInt8} (ht : t ≠ 0) (p : List UInt8) (n : ℕ) :
    unpadTls13 (p ++ t :: List.replicate n 0) = (.ofU8 t, p) := by
  have hdrop : (p ++ t :: List.replicate n 0).reverse.dropWhile (· == 0) = t :: p.reverse := by
    rw [List.reverse_append, List.reverse_cons, List.append_assoc, List.reverse_replicate,
      List.dropWhile_append_of_pos fun a ha => by simp [List.eq_of_mem_replicate ha]]
    exact List.dropWhile_cons_of_neg (by simpa using ht)
  rw [unpadTls13, hdrop]
  simp

theorem unpadTls13_length_le (v : List UInt8) : (unpadTls13 v).2.length ≤ v.length := by
  have hle : (v.reverse.dropWhile (· == 0)).length ≤ v.reverse.length := (List.dropWhile_sublist _).length_le
  rw [List.length_reverse] at hle
  rw [unpadTls13]
  split
  next t r h =>
    rw [h, List.length_cons] at hle
    rw [List.length_reverse]
    omega
  next => exact Nat.zero_le _

/-- Nothing gets longer by being unprotected. -/
theorem OpaqueMessage.length_of_unpadded {m : OpaqueMessage} {p : PlainMessage}
    (h : m.intoTls13UnpaddedMessage = .ok p) : p.payload.length ≤ m.payload.length := by
  rw [intoTls13UnpaddedMessage] at h
  simp only [refuseIf_bind_ok] at h
  obtain ⟨-, -, -, h⟩ := h
  obtain rfl := Except.ok.inj h
  exact unpadTls13_length_le m.payload

/-- **What is protected is what comes out.** -/
theorem intoTls13UnpaddedMessage_append {typ : ContentType} {version : ProtocolVersion} {p : List UInt8}
    (htyp : typ.isUnknown = false) (hle : p.length ≤ maxFragmentLen) :
    OpaqueMessage.intoTls13UnpaddedMessage ⟨.applicationData, version, p ++ [typ.getU8]⟩ =
      .ok ⟨typ, .tlsV1_3, p⟩ := by
  have hne : typ.getU8 ≠ 0 := by
    cases typ with
    | unknown x => cases htyp
    | _ => decide
  have hunpad : unpadTls13 (p ++ [typ.getU8]) = (typ, p) := by
    have h := unpadTls13_append hne p 0
    rwa [List.replicate_zero, ContentType.ofU8_getU8 htyp] at h
  have hknown : typ ≠ .unknown 0 := by
    rintro rfl
    cases htyp
  rw [OpaqueMessage.intoTls13UnpaddedMessage]
  simp only [hunpad, refuseIf_bind_ok]
  refine ⟨?_, hknown, not_lt.mpr hle, rfl⟩
  rw [List.length_append, List.length_singleton]
  omega

/-! ## Fragments -/

/-- The pieces of a list, if there are at most `k` of them. -/
def chunksUpTo {α : Type} (n : ℕ) : ℕ → List α → List (List α)
  | 0, _ => []
  | _ + 1, [] => []
  | k + 1, a :: l => (a :: l).take n :: chunksUpTo n k ((a :: l).drop n)

/-- `slice::chunks`, for pieces that are not empty. -/
def chunks {α : Type} (n : ℕ) (l : List α) : List (List α) := chunksUpTo n l.length l

theorem chunksUpTo_eq {α : Type} {n : ℕ} (hn : 0 < n) {k k' : ℕ} {l : List α} (hk : l.length ≤ k)
    (hk' : l.length ≤ k') : chunksUpTo n k l = chunksUpTo n k' l := by
  induction k generalizing k' l with
  | zero =>
    obtain rfl := List.eq_nil_of_length_eq_zero (Nat.le_zero.mp hk)
    cases k' <;> rfl
  | succ k ih =>
    cases l with
    | nil => cases k' <;> rfl
    | cons a l =>
      cases k' with
      | zero => cases hk'
      | succ k' =>
        have hlen : ((a :: l).drop n).length ≤ l.length := by
          rw [List.length_drop, List.length_cons]
          omega
        rw [List.length_cons] at hk hk'
        have hrest : chunksUpTo n k ((a :: l).drop n) = chunksUpTo n k' ((a :: l).drop n) :=
          ih (hlen.trans (Nat.le_of_succ_le_succ hk)) (hlen.trans (Nat.le_of_succ_le_succ hk'))
        rw [chunksUpTo, chunksUpTo, hrest]

theorem chunks_of_ne_nil {α : Type} {n : ℕ} (hn : 0 < n) {l : List α} (hl : l ≠ []) :
    chunks n l = l.take n :: chunks n (l.drop n) := by
  obtain ⟨a, l, rfl⟩ := List.exists_cons_of_ne_nil hl
  have hlen : ((a :: l).drop n).length ≤ l.length := by
    rw [List.length_drop, List.length_cons]
    omega
  rw [chunks, List.length_cons, chunksUpTo, chunks, chunksUpTo_eq hn hlen le_rfl]

@[simp] theorem chunks_nil {α : Type} (n : ℕ) : chunks n ([] : List α) = [] := rfl

theorem chunks_flatten {α : Type} {n : ℕ} (hn : 0 < n) (l : List α) : (chunks n l).flatten = l := by
  induction hl : l.length using Nat.strong_induction_on generalizing l with
  | _ k ih =>
    obtain rfl | hne := eq_or_ne l []
    · simp
    · have hpos := List.length_pos_of_ne_nil hne
      rw [chunks_of_ne_nil hn hne, List.flatten_cons, ih (l.drop n).length (by rw [List.length_drop]; omega) _ rfl,
        List.take_append_drop]

/-- The pieces are not empty, and not too long. -/
theorem length_of_mem_chunks {α : Type} {n : ℕ} (hn : 0 < n) {l c : List α} (hc : c ∈ chunks n l) :
    0 < c.length ∧ c.length ≤ n := by
  induction hl : l.length using Nat.strong_induction_on generalizing l with
  | _ k ih =>
    obtain rfl | hne := eq_or_ne l []
    · simp at hc
    · have hpos := List.length_pos_of_ne_nil hne
      rw [chunks_of_ne_nil hn hne, List.mem_cons] at hc
      obtain rfl | hc := hc
      · rw [List.length_take]
        omega
      · exact ih (l.drop n).length (by rw [List.length_drop]; omega) hc rfl

/-- `PACKET_OVERHEAD`. -/
def packetOverhead : ℕ := 1 + 2 + 2

/-- `MAX_FRAGMENT_SIZE`. -/
def maxFragmentSize : ℕ := maxFragmentLen + packetOverhead

/-- `MessageFragmenter`: a fragment has room for a short message, and none is longer than a record may be. -/
structure MessageFragmenter where
  maxFrag : ℕ
  ge : 27 ≤ maxFrag
  le : maxFrag ≤ maxFragmentLen

namespace MessageFragmenter

/-- `MessageFragmenter::default`. -/
def default : MessageFragmenter := ⟨maxFragmentLen, by decide, le_rfl⟩

theorem maxFrag_bounds {sz : ℕ} (h : 32 ≤ sz ∧ sz ≤ maxFragmentSize) :
    27 ≤ sz - packetOverhead ∧ sz - packetOverhead ≤ maxFragmentLen := by
  obtain ⟨hge, hle⟩ := h
  rw [maxFragmentSize] at hle
  rw [packetOverhead] at hle ⊢
  omega

/-- `set_max_fragment_size`. -/
def setMaxFragmentSize (_ : MessageFragmenter) : Option ℕ → Except Error MessageFragmenter
  | some sz =>
    if h : 32 ≤ sz ∧ sz ≤ maxFragmentSize then
      .ok ⟨sz - packetOverhead, (maxFrag_bounds h).1, (maxFrag_bounds h).2⟩
    else .error .badMaxFragmentSize
  | none => .ok default

def fragmentSlice (f : MessageFragmenter) (typ : ContentType) (version : ProtocolVersion) (payload : List UInt8) :
    List PlainMessage :=
  (chunks f.maxFrag payload).map (⟨typ, version, ·⟩)

def fragmentMessage (f : MessageFragmenter) (m : PlainMessage) : List PlainMessage :=
  f.fragmentSlice m.typ m.version m.payload

theorem pos (f : MessageFragmenter) : 0 < f.maxFrag := Nat.lt_of_lt_of_le (by decide) f.ge

/-- A short message is one fragment. -/
theorem fragmentMessage_of_le (f : MessageFragmenter) {m : PlainMessage} (hne : m.payload ≠ [])
    (hle : m.payload.length ≤ 27) : f.fragmentMessage m = [m] := by
  have hall : m.payload.length ≤ f.maxFrag := hle.trans f.ge
  rw [fragmentMessage, fragmentSlice, chunks_of_ne_nil f.pos hne, List.take_of_length_le hall,
    List.drop_of_length_le hall]
  rfl

/-- **The fragments make up the payload.** -/
theorem fragmentSlice_flatten (f : MessageFragmenter) (typ : ContentType) (version : ProtocolVersion)
    (payload : List UInt8) : (f.fragmentSlice typ version payload).flatMap PlainMessage.payload = payload := by
  rw [fragmentSlice, List.flatMap_map]
  exact List.flatMap_id.trans (chunks_flatten f.pos payload)

theorem of_mem_fragmentSlice {f : MessageFragmenter} {typ : ContentType} {version : ProtocolVersion}
    {payload : List UInt8} {m : PlainMessage} (hm : m ∈ f.fragmentSlice typ version payload) :
    m.typ = typ ∧ m.version = version ∧ 0 < m.payload.length ∧ m.payload.length ≤ maxFragmentLen := by
  obtain ⟨c, hc, rfl⟩ := List.mem_map.mp hm
  obtain ⟨hpos, hle⟩ := length_of_mem_chunks f.pos hc
  exact ⟨rfl, rfl, hpos, hle.trans f.le⟩

end MessageFragmenter

end RXCore.Rustls
