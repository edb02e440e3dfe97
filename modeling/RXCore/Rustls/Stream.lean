import RXCore.Rustls.Segments
import RXCore.Rustls.Traffic

/-!
# The stream of one direction

What a side sends after the handshake: data, the end of it, and changes of the key, each in a record under the key and
with the number that are next.

* `Sent`, `Stream`: the records, and the bytes that carry them;
* `Reading`: the other side is in step with what comes next;
* **`next_sent`**: what a record does to it;
* **`drain_stream`**: what it makes of any part of the stream.
-/

set_option autoImplicit false

namespace RXCore.Rustls

open Cursor Cursor.Walk Framing

variable {κ τ ρ : Type}

/-! ## Records -/

/-- What is sent. -/
inductive Sent where
  | data (payload : List UInt8)
  | close
  | update
deriving DecidableEq

namespace Sent

def message : Sent → PlainMessage
  | data payload => ⟨.applicationData, .tlsV1_2, payload⟩
  | close => buildAlert .warning .closeNotify
  | update => buildKeyUpdateNotify

def payload : Sent → List UInt8
  | data payload => payload
  | _ => []

/-- The secret after it. -/
def secret (K : KeySchedule κ τ) (t : τ) : Sent → τ
  | update => K.deriveNext t
  | _ => t

/-- The number after it. -/
def seq (n : UInt64) : Sent → UInt64
  | update => 0
  | _ => n + 1

end Sent

/-- The payloads of what is sent. -/
def payloads (xs : List Sent) : List UInt8 := xs.flatMap Sent.payload

/-- The record of what is sent. -/
def Sealed (A : Aead κ) (K : KeySchedule κ τ) (t : τ) (n : UInt64) (x : Sent) (o : OpaqueMessage) : Prop :=
  x.message.payload.length ≤ maxFragmentLen ∧
    (MessageEncrypter.tls13 (K.trafficKey t) (K.trafficIv t)).encrypt A x.message n = .ok o

/-- Bytes that carry records, from a secret and a number on up to others. -/
inductive Stream (A : Aead κ) (K : KeySchedule κ τ) : τ → UInt64 → List Sent → List UInt8 → τ → UInt64 → Prop
  | nil (t : τ) (n : UInt64) : Stream A K t n [] [] t n
  | cons {t t' : τ} {n n' : UInt64} {x : Sent} {xs : List Sent} {o : OpaqueMessage} {bs : List UInt8}
      (sealed : Sealed A K t n x o) (rest : Stream A K (x.secret K t) (x.seq n) xs bs t' n') :
      Stream A K t n (x :: xs) (o.encode ++ bs) t' n'

variable {A : Aead κ} {K : KeySchedule κ τ}

namespace Stream

variable {t t₁ t₂ : τ} {n n₁ n₂ : UInt64} {xs ys : List Sent} {bs cs : List UInt8}

theorem append (h : Stream A K t n xs bs t₁ n₁) (h' : Stream A K t₁ n₁ ys cs t₂ n₂) :
    Stream A K t n (xs ++ ys) (bs ++ cs) t₂ n₂ := by
  induction h with
  | nil => exact h'
  | cons hsealed _ ih =>
    rw [List.append_assoc]
    exact .cons hsealed (ih h')

theorem single {x : Sent} {o : OpaqueMessage} (h : Sealed A K t n x o) :
    Stream A K t n [x] o.encode (x.secret K t) (x.seq n) := by
  have hone := Stream.cons h (.nil _ _)
  rwa [List.append_nil] at hone

end Stream

/-! ## Reading a record -/

theorem read_encode {o : OpaqueMessage} (h : o.Framed) (v : List UInt8) :
    OpaqueMessage.read (o.encode ++ v) = .ok (o, v) :=
  OpaqueMessage.read_eq_ok_iff.mpr ⟨h, rfl⟩

/-- A part of a record is too short to be read. -/
theorem read_of_part {o : OpaqueMessage} (h : o.Framed) {u w v : List UInt8} (hu : u ++ w = o.encode ++ v)
    (hlt : u.length < o.encode.length) :
    ∃ e, OpaqueMessage.read u = .error e ∧ MessageDeframer.readErr e = none := by
  have hread := read_encode h v
  cases hr : OpaqueMessage.read u with
  | ok mr =>
    obtain ⟨m, r⟩ := mr
    have happend := OpaqueMessage.read_append_of_ok hr w
    rw [hu, hread] at happend
    cases happend
    obtain ⟨-, rfl⟩ := OpaqueMessage.read_eq_ok_iff.mp hr
    rw [List.length_append] at hlt
    omega
  | error e =>
    refine ⟨e, rfl, Framer.readErr_eq_none.mpr ?_⟩
    by_contra hshort
    have happend := OpaqueMessage.read_append_of_error hr (Bool.eq_false_iff.mpr hshort) w
    rw [hu, hread] at happend
    cases happend

/-- The layer opens the record with this number next. -/
structure Decrypting (r : RecordLayer κ) (k : κ) (iv : Iv) (n : UInt64) : Prop where
  active : r.decryptState = .active
  decrypter : r.messageDecrypter = .tls13 k iv
  seq : r.readSeq = n

/-- A record was opened. -/
def RecordLayer.opened (r : RecordLayer κ) : RecordLayer κ := { r with readSeq := r.readSeq + 1, hasDecrypted := true }

section Record

variable {layer : RecordLayer κ} {k : κ} {iv : Iv} {n : UInt64} {m : PlainMessage} {o : OpaqueMessage}
  {v : Option ProtocolVersion}

theorem Decrypting.opened (h : Decrypting layer k iv n) : Decrypting layer.opened k iv (n + 1) :=
  ⟨h.active, h.decrypter, congrArg (· + 1) h.seq⟩

/-- A record is decrypted. -/
theorem decryptIncoming_sealed (hA : A.Lawful) (h : Decrypting layer k iv n) (hle : m.payload.length ≤ maxFragmentLen)
    (htyp : m.typ.isUnknown = false) (he : (MessageEncrypter.tls13 k iv).encrypt A m n = .ok o) :
    ∃ wants, layer.decryptIncoming A o = (.ok (some ⟨wants, { m with version := .tlsV1_3 }⟩), layer.opened) := by
  refine ⟨layer.readSeq == seqSoftLimit, ?_⟩
  have hd := decrypt_encrypt hA hle htyp he
  rw [RecordLayer.decryptIncoming, if_neg (not_not.mpr h.active), RecordLayer.opened]
  simp only [h.decrypter, h.seq, hd]

/-- What becomes of a record between handshake messages. -/
theorem take_sealed (hA : A.Lawful) (h : Decrypting layer k iv n) (hle : m.payload.length ≤ maxFragmentLen)
    (htyp : m.typ.isUnknown = false) (he : (MessageEncrypter.tls13 k iv).encrypt A m n = .ok o) :
    ∃ wants, Framer.take A v ⟨none, layer⟩ o =
      (Framer.takeDecrypted none (some ⟨wants, { m with version := .tlsV1_3 }⟩), layer.opened) := by
  obtain ⟨wants, hd⟩ := decryptIncoming_sealed hA h hle htyp he
  obtain ⟨c, hc, -⟩ := encrypt_tls13 hA k iv hle n
  obtain rfl := Except.ok.inj (he.symm.trans hc)
  exact ⟨wants, Framer.take_of_ok (by simp [MessageDeframer.allowedPlaintext]) hd⟩

theorem next_of_record (hA : A.Lawful) (h : Decrypting layer k iv n) (hle : m.payload.length ≤ maxFragmentLen)
    (htyp : m.typ.isUnknown = false) (hhs : m.typ ≠ .handshake)
    (he : (MessageEncrypter.tls13 k iv).encrypt A m n = .ok o) (w : List UInt8) :
    Framer.next A v ⟨none, layer⟩ (o.encode ++ w) =
      .item (MessageDeframer.plain { m with version := .tlsV1_3 }) ⟨none, layer.opened⟩ w := by
  obtain ⟨wants, ht⟩ := take_sealed (v := v) hA h hle htyp he
  refine Framer.next_of_emit rfl (read_encode (framed_encrypt hA hle he) w) (ht.trans ?_)
  simp [Framer.takeDecrypted, hhs]

/-- A key update is joined, and complete at once. -/
theorem next_of_update (hA : A.Lawful) (h : Decrypting layer k iv n)
    (he : (MessageEncrypter.tls13 k iv).encrypt A buildKeyUpdateNotify n = .ok o) (w : List UInt8) :
    Framer.next A v ⟨none, layer⟩ (o.encode ++ w) =
      .item ⟨false, true, true, buildKeyUpdateNotify⟩ ⟨none, layer.opened⟩ w := by
  have hle : buildKeyUpdateNotify.payload.length ≤ maxFragmentLen := by decide
  obtain ⟨wants, ht⟩ := take_sealed (v := v) hA h hle rfl he
  have hjoin := Framer.next_of_join (s := ⟨none, layer⟩) rfl (read_encode (framed_encrypt hA hle he) w)
    (j := ⟨.tlsV1_3, buildKeyUpdateNotify.payload⟩) ht
  rw [hjoin, Framer.next_of_complete (j := ⟨.tlsV1_3, buildKeyUpdateNotify.payload⟩) (by decide : _ = some 5)]
  rfl

end Record

/-! ## Processing a record -/

section Receiving

variable {bodies : BodyParser ρ} {stack : ℕ} {other : Handler κ ρ (ExpectTraffic τ)} {s : CommonState κ}
  {st : ExpectTraffic τ}

variable (bodies A K stack other st) in
theorem processMsg_data (h : s.isTls13 = true) (payload : List UInt8) :
    s.processMsg bodies A stack (ExpectTraffic.handle K A stack other) ⟨.applicationData, .tlsV1_3, payload⟩ st =
      ok (.ok st, s.takeReceivedPlaintext payload) := by
  have hmsg : Message.tryFrom bodies ⟨.applicationData, .tlsV1_3, payload⟩ = .ok ⟨.tlsV1_3, .applicationData payload⟩ :=
    rfl
  simp only [CommonState.processMsg, hmsg, CommonState.processMainProtocol, h]
  simp [ExpectTraffic.handle]
  rfl

theorem processMsg_close :
    s.processMsg bodies A stack (ExpectTraffic.handle K A stack other) ⟨.alert, .tlsV1_3, [1, 0]⟩ st =
      ok (.ok st, { s with hasReceivedCloseNotify := true }) := by
  have hmsg : Message.tryFrom bodies ⟨.alert, .tlsV1_3, [1, 0]⟩ = .ok ⟨.tlsV1_3, .alert .warning .closeNotify⟩ := rfl
  simp only [CommonState.processMsg, hmsg]
  rfl

variable (bodies A K stack other st) in
theorem processMsg_update (h : s.isTls13 = true) (haligned : s.alignedHandshake = true) :
    s.processMsg bodies A stack (ExpectTraffic.handle K A stack other) buildKeyUpdateNotify st =
      ok (.ok (st.updateDecrypter K s).1, (st.updateDecrypter K s).2) := by
  have hmsg : Message.tryFrom bodies buildKeyUpdateNotify =
      .ok ⟨.tlsV1_3, .handshake ⟨HandshakeType.keyUpdate, .keyUpdate .updateNotRequested⟩ [0x18, 0, 0, 1, 0]⟩ := rfl
  simp only [CommonState.processMsg, hmsg, CommonState.processMainProtocol, h]
  simp [ExpectTraffic.handle, ExpectTraffic.handleKeyUpdate, CommonState.checkAlignedHandshake, haligned,
    CommonState.shouldUpdateKey]
  rfl

variable (K) in
/-- A side is in step: the next record that it opens is the one with this secret and this number. -/
structure Reading (s : CommonState κ) (st : ExpectTraffic τ) (t : τ) (n : UInt64) : Prop where
  version : s.negotiatedVersion = some .tlsV1_3
  layer : Decrypting s.recordLayer (K.trafficKey t) (K.trafficIv t) n
  secret : st.secret s.side.peer = t

/-- What has come in since: data, and perhaps the end of it. -/
structure Arrived (s s' : CommonState κ) (xs : List Sent) : Prop where
  content : s'.receivedPlaintext.content = s.receivedPlaintext.content ++ payloads xs
  closed : s'.hasReceivedCloseNotify = true ↔ s.hasReceivedCloseNotify = true ∨ Sent.close ∈ xs

theorem Arrived.refl (s : CommonState κ) : Arrived s s [] where
  content := (List.append_nil _).symm
  closed := by simp

theorem Arrived.trans {s s' s'' : CommonState κ} {xs ys : List Sent} (h : Arrived s s' xs) (h' : Arrived s' s'' ys) :
    Arrived s s'' (xs ++ ys) where
  content := by rw [h'.content, h.content, List.append_assoc, payloads, payloads, payloads, List.flatMap_append]
  closed := by rw [h'.closed, h.closed, List.mem_append, or_assoc]

/-- After a key update, a side is in step with the next secret. -/
theorem Reading.updateDecrypter {t : τ} {n : UInt64} (h : Reading K s st t n) :
    Reading K (st.updateDecrypter K s).2 (st.updateDecrypter K s).1 (K.deriveNext t) 0 where
  version := h.version
  layer := by
    refine ⟨rfl, ?_, rfl⟩
    show MessageDecrypter.tls13 (K.trafficKey (st.nextApplicationTrafficSecret K s.side.peer).1)
      (K.trafficIv (st.nextApplicationTrafficSecret K s.side.peer).1) = _
    rw [ExpectTraffic.nextApplicationTrafficSecret_fst, h.secret]
  secret := (ExpectTraffic.secret_nextApplicationTrafficSecret s.side.peer).trans (congrArg K.deriveNext h.secret)

/-- A message that was taken off is processed. -/
theorem next_of_handled {f : Framer κ} {u v : List UInt8} {d : Deframed} {msg : PlainMessage} {s₁ s' : CommonState κ}
    {st' : ExpectTraffic τ} {handle : Handler κ ρ (ExpectTraffic τ)} {joined : Option Joined}
    (hnext : Framer.next A s.negotiatedVersion ⟨joined, s.recordLayer⟩ u = .item d f v)
    (hd : CommonState.deframed A stack { s with recordLayer := f.layer } d = ok (msg, s₁))
    (hm : s₁.processMsg bodies A stack handle msg st = ok (.ok st', s')) :
    Receiver.next bodies A stack handle ⟨joined, s, st⟩ u = .item d ⟨f.joined, s', st'⟩ v := by
  have hhandled : Receiver.handled bodies A stack handle ((⟨joined, s, st⟩ : Receiver κ _).withFramer f) d =
      ok (.ok st', s') := by
    rw [Receiver.handled, Receiver.withFramer, hd]
    exact hm
  rw [Receiver.next, Receiver.framer, hnext]
  dsimp only
  rw [hhandled]
  rfl

/-- A side that has opened a record. -/
def CommonState.afterRecord (s : CommonState κ) (layer : RecordLayer κ) : CommonState κ :=
  { s with recordLayer := layer, alignedHandshake := true }

theorem deframed_plain (layer : RecordLayer κ) (m : PlainMessage) :
    CommonState.deframed A stack { s with recordLayer := layer } (MessageDeframer.plain m) =
      ok (m, s.afterRecord layer) := rfl

theorem deframed_joined (layer : RecordLayer κ) (m : PlainMessage) :
    CommonState.deframed A stack { s with recordLayer := layer } ⟨false, true, true, m⟩ =
      ok (m, s.afterRecord layer.finishTrialDecryption) := rfl

variable (bodies stack other) in
/-- **A record that is next is processed.** -/
theorem next_sent (hA : A.Lawful) {t : τ} {n : UInt64} (h : Reading K s st t n) {x : Sent} {o : OpaqueMessage}
    (hx : Sealed A K t n x o) (v : List UInt8) :
    ∃ d s' st', Receiver.next bodies A stack (ExpectTraffic.handle K A stack other) ⟨none, s, st⟩ (o.encode ++ v) =
        .item d ⟨none, s', st'⟩ v ∧ Reading K s' st' (x.secret K t) (x.seq n) ∧ Arrived s s' [x] := by
  have h13 : ∀ layer, (s.afterRecord layer).isTls13 = true := by
    intro layer
    rw [CommonState.isTls13, CommonState.afterRecord, h.version]
    rfl
  have hopened : Reading K (s.afterRecord s.recordLayer.opened) st t (n + 1) := ⟨h.version, h.layer.opened, h.secret⟩
  obtain ⟨hle, henc⟩ := hx
  cases x with
  | data payload =>
    have hnext := next_of_record (v := s.negotiatedVersion) hA h.layer hle rfl (fun htyp => by cases htyp) henc v
    have hproc := processMsg_data A K bodies stack other st (h13 s.recordLayer.opened) payload
    refine ⟨_, _, _, next_of_handled hnext (deframed_plain _ _) hproc,
      ⟨hopened.version, hopened.layer, hopened.secret⟩, ?_⟩
    refine ⟨(ChunkVecBuffer.content_append _).trans (by simp [payloads, Sent.payload, CommonState.afterRecord]), ?_⟩
    simp [CommonState.takeReceivedPlaintext, CommonState.afterRecord]
  | close =>
    have hnext := next_of_record (v := s.negotiatedVersion) hA h.layer hle rfl (fun htyp => by cases htyp) henc v
    refine ⟨_, _, _, next_of_handled hnext (deframed_plain _ _) processMsg_close,
      ⟨hopened.version, hopened.layer, hopened.secret⟩, ?_⟩
    exact ⟨by simp [payloads, Sent.payload, CommonState.afterRecord], by simp⟩
  | update =>
    have hnext := next_of_update (v := s.negotiatedVersion) hA h.layer henc v
    have hfinished : Reading K (s.afterRecord s.recordLayer.opened.finishTrialDecryption) st t (n + 1) :=
      ⟨h.version, ⟨h.layer.active, h.layer.decrypter, congrArg (· + 1) h.layer.seq⟩, h.secret⟩
    have hproc := processMsg_update A K bodies stack other st (h13 s.recordLayer.opened.finishTrialDecryption) rfl
    refine ⟨_, _, _, next_of_handled hnext (deframed_joined _ _) hproc, hfinished.updateDecrypter, ?_⟩
    exact ⟨by simp [payloads, Sent.payload, ExpectTraffic.updateDecrypter, CommonState.afterRecord],
      by simp [ExpectTraffic.updateDecrypter, CommonState.afterRecord]⟩

/-- Nothing happens before a record is complete. -/
theorem next_of_part {u : List UInt8} {e : MessageError} {handle : Handler κ ρ (ExpectTraffic τ)}
    (hr : OpaqueMessage.read u = .error e) (he : MessageDeframer.readErr e = none) :
    Receiver.next bodies A stack handle ⟨none, s, st⟩ u = .more ⟨none, s, st⟩ u := by
  have hnext : Framer.next A s.negotiatedVersion ⟨none, s.recordLayer⟩ u = .more ⟨none, s.recordLayer⟩ u :=
    Framer.next_of_tooShort rfl hr he
  rw [Receiver.next, Receiver.framer, hnext]
  rfl

variable (bodies stack other) in
/-- **What a side makes of a part of the stream**: it takes the records that are complete, and is in step with the
rest. -/
theorem drain_stream (hA : A.Lawful) {t t' : τ} {n n' : UInt64} {xs : List Sent} {bs u w : List UInt8}
    (hstream : Stream A K t n xs bs t' n') (h : Reading K s st t n) (hu : bs = u ++ w) :
    ∃ s' st' r xs₁ xs₂ t₁ n₁,
      ((receiver bodies A stack (ExpectTraffic.handle K A stack other) hA).drain ⟨none, s, st⟩ u).2 =
        .idle ⟨none, s', st'⟩ r ∧
      xs = xs₁ ++ xs₂ ∧ Stream A K t₁ n₁ xs₂ (r ++ w) t' n' ∧ Reading K s' st' t₁ n₁ ∧ Arrived s s' xs₁ ∧
      (w = [] → xs₂ = []) := by
  induction hstream generalizing s st u with
  | nil t n =>
    obtain ⟨rfl, rfl⟩ := List.append_eq_nil_iff.mp hu.symm
    have hmore : (receiver bodies A stack (ExpectTraffic.handle K A stack other) hA).next ⟨none, s, st⟩ [] =
        .more ⟨none, s, st⟩ [] := next_of_part (e := MessageError.tooShortForHeader) rfl rfl
    exact ⟨s, st, [], [], [], t, n, by rw [Decoder.drain_of_more hmore], rfl, .nil t n, h, .refl s, fun _ => rfl⟩
  | @cons t t' n n' x xs o bs hsealed hrest ih =>
    have hframed : o.Framed := framed_encrypt hA hsealed.1 hsealed.2
    by_cases hlt : u.length < o.encode.length
    · -- the first record is not complete
      obtain ⟨e, hr, he⟩ := read_of_part hframed hu.symm hlt
      have hmore : (receiver bodies A stack (ExpectTraffic.handle K A stack other) hA).next ⟨none, s, st⟩ u =
          .more ⟨none, s, st⟩ u := next_of_part hr he
      refine ⟨s, st, u, [], x :: xs, t, n, by rw [Decoder.drain_of_more hmore], rfl, ?_, h, .refl s, ?_⟩
      · rw [← hu]
        exact .cons hsealed hrest
      · rintro rfl
        rw [List.append_nil] at hu
        rw [← hu, List.length_append] at hlt
        omega
    · obtain ⟨u', rfl⟩ : o.encode <+: u :=
        List.prefix_of_prefix_length_le (List.prefix_append o.encode bs) (hu ▸ List.prefix_append u w)
          (Nat.not_lt.mp hlt)
      rw [List.append_assoc] at hu
      obtain ⟨d, s₁, st₁, hnext, hreading, harrived⟩ := next_sent bodies stack other hA h hsealed u'
      obtain ⟨s', st', r, xs₁, xs₂, t₁, n₁, hdrain, rfl, hstream, hreading', harrived', hlast⟩ :=
        ih hreading (List.append_cancel_left hu)
      have hitem : (receiver bodies A stack (ExpectTraffic.handle K A stack other) hA).next ⟨none, s, st⟩
          (o.encode ++ u') = .item d ⟨none, s₁, st₁⟩ u' := hnext
      refine ⟨s', st', r, x :: xs₁, xs₂, t₁, n₁, ?_, rfl, hstream, hreading', harrived.trans harrived', hlast⟩
      rw [Decoder.drain_of_item hitem]
      exact hdrain

end Receiving

end RXCore.Rustls
