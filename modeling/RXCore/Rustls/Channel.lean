import RXCore.Lib.Run
import RXCore.Rustls.Nonces
import RXCore.Rustls.Stream

/-!
# One direction of a connection

Two ends after the handshake, and the bytes on the way from one to the other. Both do what they do in any order: the
one accepts data, updates its key, closes, and writes to its socket as much as that takes; the other reads what its
socket has, processes it, and gives data to the application.

* `Writing`, `Wrote`, `wrote_foldlM`: what sending appends to the stream;
* `Channel`, `Channel.step`; `Orderly`: the end is not sent while a key update waits;
* `Channel.Inv`, **`inv_run`**: what has been accepted is somewhere, in order;
* **`delivered_in_order`**: in orderly runs processing does not fail, and data is delivered in order, nothing lost or
  made up (`end_overtakes_update`: not in others); **`delivered_of_closed`**: the end is told after the data before it;
  **`delivered_all`**: all of it can arrive.
-/

set_option autoImplicit false

namespace RXCore.Rustls

open Cursor Cursor.Walk Framing Run

variable {κ τ ρ : Type} {A : Aead κ} {K : KeySchedule κ τ}

/-! ## Writing -/

variable (K) in
/-- A side that can send, with this secret. -/
structure Writing (s : CommonState κ) (t : τ) : Prop where
  ready : Ready s.recordLayer
  key : s.recordLayer.messageEncrypter = .tls13 (K.trafficKey t) (K.trafficIv t)

variable (A K) in
/-- Records are appended to what is to be sent, and nothing else changes. -/
structure Wrote (t : τ) (s s' : CommonState κ) (xs : List Sent) : Prop where
  stream : ∃ bs, Stream A K t s.recordLayer.writeSeq xs bs t s'.recordLayer.writeSeq ∧
    s'.sendableTls.content = s.sendableTls.content ++ bs
  writing : Writing K s' t
  may : s'.maySendApplicationData = s.maySendApplicationData
  queued : s'.queuedKeyUpdateMessage = s.queuedKeyUpdateMessage
  plaintext : s'.sendablePlaintext = s.sendablePlaintext
  side : s'.side = s.side

namespace Wrote

variable {t : τ} {s s' s'' : CommonState κ} {xs ys : List Sent}

theorem refl (h : Writing K s t) : Wrote A K t s s [] :=
  ⟨⟨[], .nil _ _, (List.append_nil _).symm⟩, h, rfl, rfl, rfl, rfl⟩

theorem trans (h : Wrote A K t s s' xs) (h' : Wrote A K t s' s'' ys) : Wrote A K t s s'' (xs ++ ys) := by
  obtain ⟨bs, hstream, hcontent⟩ := h.stream
  obtain ⟨cs, hstream', hcontent'⟩ := h'.stream
  refine ⟨⟨bs ++ cs, hstream.append hstream', ?_⟩, h'.writing, h'.may.trans h.may, h'.queued.trans h.queued,
    h'.plaintext.trans h.plaintext, h'.side.trans h.side⟩
  rw [hcontent', hcontent, List.append_assoc]

end Wrote

variable {t : τ} {s s' : CommonState κ}

/-- A fragment that is sent. -/
theorem wrote_single (h : Writing K s t) {x : Sent} (hle : x.message.payload.length ≤ maxFragmentLen)
    (hx : x ≠ .update) {stack : ℕ} (he : CommonState.sendSingleFragment A stack s x.message = ok s') :
    Wrote A K t s s' [x] := by
  obtain heq | hlt := UInt64.le_iff_lt_or_eq.mp h.ready.le |>.symm
  · rw [sendSingleFragment_of_soft heq h.ready.active] at he
    cases he
  · cases stack with
    | zero => cases he
    | succ stack =>
      rw [sendSingleFragment_of_lt hlt, bind_eq_ok] at he
      obtain ⟨⟨em, r⟩, hem, he⟩ := he
      cases he
      have hready := h.ready.encryptOutgoing hlt hem
      obtain ⟨-, henc, rfl⟩ := encryptOutgoing_eq_ok hem
      rw [h.key] at henc
      have hsingle := Stream.single (K := K) (A := A) (t := t) (x := x) ⟨hle, henc⟩
      have hnext : x.secret K t = t ∧ x.seq s.recordLayer.writeSeq = s.recordLayer.writeSeq + 1 := by
        cases x with
        | update => exact absurd rfl hx
        | _ => exact ⟨rfl, rfl⟩
      rw [hnext.1, hnext.2] at hsingle
      exact ⟨⟨_, hsingle, ChunkVecBuffer.content_append _⟩, ⟨hready.1, h.key⟩, rfl, rfl, rfl, rfl⟩

/-- Fragments that are sent. -/
theorem wrote_foldlM {stack : ℕ} {xs : List Sent}
    (hxs : ∀ x ∈ xs, x.message.payload.length ≤ maxFragmentLen ∧ x ≠ .update) (h : Writing K s t)
    (he : (xs.map Sent.message).foldlM (CommonState.sendSingleFragment A stack) s = ok s') : Wrote A K t s s' xs := by
  induction xs generalizing s with
  | nil =>
    cases he
    exact .refl h
  | cons x xs ih =>
    rw [List.map_cons, List.foldlM_cons, bind_eq_ok] at he
    obtain ⟨s₁, hs₁, he⟩ := he
    obtain ⟨hle, hx⟩ := hxs x List.mem_cons_self
    have hfirst := wrote_single h hle hx hs₁
    exact hfirst.trans (ih (fun x hx => hxs x (List.mem_cons_of_mem _ hx)) hfirst.writing he)

/-- The fragments of data. -/
theorem fragments_data (f : MessageFragmenter) (data : List UInt8) :
    ∃ xs, f.fragmentSlice .applicationData .tlsV1_2 data = xs.map Sent.message ∧ payloads xs = data ∧
      Sent.close ∉ xs ∧ ∀ x ∈ xs, x.message.payload.length ≤ maxFragmentLen ∧ x ≠ .update := by
  refine ⟨(chunks f.maxFrag data).map .data, ?_, ?_, ?_, ?_⟩
  · rw [List.map_map]
    rfl
  · rw [payloads, List.flatMap_map]
    exact List.flatMap_id.trans (chunks_flatten f.pos data)
  · simp
  · intro x hx
    obtain ⟨c, hc, rfl⟩ := List.mem_map.mp hx
    exact ⟨(length_of_mem_chunks f.pos hc).2.trans f.le, by simp⟩

theorem wrote_sendAppdataEncrypt (h : Writing K s t) {stack n : ℕ} {payload : List UInt8} {limit : Limit}
    (he : s.sendAppdataEncrypt A stack payload limit = ok (n, s')) :
    ∃ xs, Wrote A K t s s' xs ∧ payloads xs = payload.take n ∧ Sent.close ∉ xs ∧
      (limit = .no → n = payload.length) := by
  simp only [CommonState.sendAppdataEncrypt, bind_eq_ok] at he
  obtain ⟨s₁, hs₁, he⟩ := he
  cases he
  obtain ⟨xs, hfragments, hpayloads, hclose, hxs⟩ := fragments_data s.messageFragmenter (payload.take _)
  rw [hfragments] at hs₁
  refine ⟨xs, wrote_foldlM hxs h hs₁, hpayloads, hclose, ?_⟩
  rintro rfl
  rfl

/-- `send_plain` once data may be sent. -/
theorem wrote_sendPlain (h : Writing K s t) (hmay : s.maySendApplicationData = true) {stack n : ℕ} {data : List UInt8}
    {limit : Limit} (he : s.sendPlain A stack data limit = ok (n, s')) :
    ∃ xs, Wrote A K t s s' xs ∧ payloads xs = data.take n ∧ Sent.close ∉ xs ∧ (limit = .no → n = data.length) := by
  unfold CommonState.sendPlain at he
  simp only [hmay, Bool.not_true, Bool.false_eq_true, if_false] at he
  split_ifs at he with hdata
  · cases he
    exact ⟨[], .refl h, by rw [hdata]; rfl, by simp, fun _ => by rw [hdata]; rfl⟩
  · exact wrote_sendAppdataEncrypt h he

/-- Data that was buffered is sent. -/
theorem wrote_flushLoop (h : Writing K s t) (hmay : s.maySendApplicationData = true) {stack fuel : ℕ}
    (he : CommonState.flushLoop A stack fuel s = ok s') :
    ∃ xs, Wrote A K t { s with sendablePlaintext := s'.sendablePlaintext } s' xs ∧
      payloads xs = s.sendablePlaintext.content ∧ Sent.close ∉ xs ∧ s'.sendablePlaintext.content = [] := by
  induction fuel generalizing s with
  | zero => cases he
  | succ fuel ih =>
    rw [CommonState.flushLoop] at he
    split at he
    next hpop =>
      cases he
      have hnil := ChunkVecBuffer.pop_eq_none_iff.mp hpop
      exact ⟨[], .refl h, hnil.symm, by simp, hnil⟩
    next buf rest hpop =>
      obtain ⟨⟨n, s₁⟩, hs₁, he⟩ := bind_eq_ok.mp he
      obtain ⟨xs, hwrote, hxs, hclose, hn⟩ :=
        wrote_sendPlain (s := { s with sendablePlaintext := rest }) ⟨h.ready, h.key⟩ hmay hs₁
      obtain ⟨ys, hwrote', hys, hclose', hnil⟩ := ih hwrote.writing (hwrote.may.trans hmay) he
      refine ⟨xs ++ ys, ?_, ?_, ?_, hnil⟩
      · have hfirst : Wrote A K t { s with sendablePlaintext := s'.sendablePlaintext }
            { s₁ with sendablePlaintext := s'.sendablePlaintext } xs :=
          ⟨hwrote.stream, ⟨hwrote.writing.ready, hwrote.writing.key⟩, hwrote.may, hwrote.queued, rfl, hwrote.side⟩
        exact hfirst.trans hwrote'
      · rw [payloads, List.flatMap_append, ← payloads, ← payloads, hxs, hys, hwrote.plaintext, hn rfl, List.take_length,
          ChunkVecBuffer.content_pop hpop]
      · rw [List.mem_append, not_or]
        exact ⟨hclose, hclose'⟩

/-! ## Calls of the side that sends -/

/-- What is to be written to the socket. -/
def CommonState.outgoing (s : CommonState κ) : List UInt8 :=
  s.sendableTls.content ++ s.queuedKeyUpdateMessage.getD []

/-- Nothing waits that could be sent, and a key update only waits where data may be sent. -/
structure Settled (s : CommonState κ) : Prop where
  flushed : s.maySendApplicationData = true → s.sendablePlaintext.content = []
  queued : s.queuedKeyUpdateMessage ≠ none → s.maySendApplicationData = true

variable (A K) in
/-- A call that accepts `data` and sends `xs`. -/
structure Appended (t t' : τ) (s s' : CommonState κ) (xs : List Sent) (data : List UInt8) : Prop where
  stream : ∃ bs, Stream A K t s.recordLayer.writeSeq xs bs t' s'.recordLayer.writeSeq ∧
    s'.outgoing = s.outgoing ++ bs
  writing : Writing K s' t'
  settled : Settled s'
  payload : payloads xs ++ s'.sendablePlaintext.content = s.sendablePlaintext.content ++ data
  side : s'.side = s.side

theorem perhapsWriteKeyUpdate_spec (s : CommonState κ) :
    s.perhapsWriteKeyUpdate.sendableTls.content = s.outgoing ∧ s.perhapsWriteKeyUpdate.queuedKeyUpdateMessage = none ∧
      s.perhapsWriteKeyUpdate.recordLayer = s.recordLayer ∧
      s.perhapsWriteKeyUpdate.maySendApplicationData = s.maySendApplicationData ∧
      s.perhapsWriteKeyUpdate.sendablePlaintext = s.sendablePlaintext ∧ s.perhapsWriteKeyUpdate.side = s.side := by
  rw [CommonState.perhapsWriteKeyUpdate, CommonState.outgoing]
  cases hq : s.queuedKeyUpdateMessage with
  | some message => exact ⟨ChunkVecBuffer.content_append _, rfl, rfl, rfl, rfl, rfl⟩
  | none => exact ⟨(List.append_nil _).symm, hq, rfl, rfl, rfl, rfl⟩

/-- **Data is accepted.** -/
theorem appended_write (h : Writing K s t) (hs : Settled s) {stack n : ℕ} {data : List UInt8}
    (he : s.sendSomePlaintext A stack data = ok (n, s')) :
    ∃ xs, Appended A K t t s s' xs (data.take n) ∧ Sent.close ∉ xs := by
  obtain ⟨hcontent, hqueued, hlayer, hmay, hplain, hside⟩ := perhapsWriteKeyUpdate_spec s
  rw [CommonState.sendSomePlaintext] at he
  cases hm : s.maySendApplicationData with
  | false =>
    unfold CommonState.sendPlain at he
    simp only [hmay, hm, Bool.not_false, if_true] at he
    cases he
    refine ⟨[], ⟨⟨[], ?_, ?_⟩, ⟨hlayer ▸ h.ready, hlayer ▸ h.key⟩, ⟨?_, ?_⟩, ?_, hside⟩, by simp⟩
    · rw [hlayer]
      exact .nil _ _
    · rw [CommonState.outgoing, hqueued, hcontent]
      rfl
    · intro hmay'
      cases hmay'
    · exact fun hne => absurd hqueued hne
    · rw [hplain]
      exact ChunkVecBuffer.content_append _
  | true =>
    obtain ⟨xs, hwrote, hxs, hclose, -⟩ := wrote_sendPlain ⟨hlayer ▸ h.ready, hlayer ▸ h.key⟩ (hmay.trans hm) he
    obtain ⟨bs, hstream, htls⟩ := hwrote.stream
    have hnil : s'.sendablePlaintext.content = [] := by
      rw [hwrote.plaintext, hplain]
      exact hs.flushed hm
    refine ⟨xs, ⟨⟨bs, hlayer ▸ hstream, ?_⟩, hwrote.writing, ⟨fun _ => hnil, ?_⟩, ?_, hwrote.side.trans hside⟩, hclose⟩
    · rw [CommonState.outgoing, hwrote.queued, hqueued, htls, hcontent]
      simp
    · exact fun hne => absurd (hwrote.queued.trans hqueued) hne
    · rw [hxs, hnil, hs.flushed hm]
      simp

/-- **Data that was accepted before the end of the handshake is sent.** -/
theorem appended_start (h : Writing K s t) (hs : Settled s) {stack : ℕ}
    (he : s.startOutgoingTraffic A stack = ok s') : ∃ xs, Appended A K t t s s' xs [] ∧ Sent.close ∉ xs := by
  rw [CommonState.startOutgoingTraffic, CommonState.flushPlaintext] at he
  simp only [Bool.not_true, Bool.false_eq_true, if_false] at he
  cases hq : s.queuedKeyUpdateMessage with
  | some message =>
    -- then there is nothing to flush
    have hnil := hs.flushed (hs.queued (by simp [hq]))
    rw [CommonState.flushLoop] at he
    simp only [ChunkVecBuffer.pop_eq_none_iff.mpr hnil] at he
    cases he
    refine ⟨[], ⟨⟨[], .nil _ _, (List.append_nil _).symm⟩, ⟨h.ready, h.key⟩, ⟨fun _ => hnil, fun _ => rfl⟩, ?_, rfl⟩,
      ?_⟩
    · exact (List.append_nil _).symm
    · exact List.not_mem_nil
  | none =>
    obtain ⟨xs, hwrote, hxs, hclose, hnil⟩ :=
      wrote_flushLoop (s := { s with maySendApplicationData := true }) ⟨h.ready, h.key⟩ rfl he
    obtain ⟨bs, hstream, htls⟩ := hwrote.stream
    refine ⟨xs, ⟨⟨bs, hstream, ?_⟩, hwrote.writing, ⟨fun _ => hnil, fun _ => hwrote.may⟩, ?_, hwrote.side⟩, hclose⟩
    · rw [CommonState.outgoing, CommonState.outgoing, hwrote.queued, hq, htls]
      simp
    · rw [hxs, hnil]

/-- **The end is sent**, unless a key update waits. -/
theorem appended_close (h : Writing K s t) (hs : Settled s) (hq : s.queuedKeyUpdateMessage = none) {stack : ℕ}
    (he : s.sendCloseNotify A stack = ok s') : Appended A K t t s s' [.close] [] := by
  have hencrypting : s.recordLayer.isEncrypting = true := by
    rw [RecordLayer.isEncrypting, h.ready.active]
    rfl
  have hone : s.messageFragmenter.fragmentMessage (buildAlert .warning .closeNotify) = [Sent.close].map Sent.message :=
    s.messageFragmenter.fragmentMessage_of_le (by simp [buildAlert]) (by simp [buildAlert])
  rw [CommonState.sendCloseNotify, CommonState.sendWarning, CommonState.sendMsg, if_pos hencrypting,
    CommonState.sendMsgEncrypt, hone] at he
  have hwrote := wrote_foldlM (by simp [Sent.message, buildAlert, maxFragmentLen]) h he
  obtain ⟨bs, hstream, htls⟩ := hwrote.stream
  refine ⟨⟨bs, hstream, ?_⟩, hwrote.writing, ⟨?_, ?_⟩, ?_, hwrote.side⟩
  · rw [CommonState.outgoing, CommonState.outgoing, hwrote.queued, hq, htls]
    simp
  · rw [hwrote.may, hwrote.plaintext]
    exact hs.flushed
  · exact fun hne => absurd (hwrote.queued.trans hq) hne
  · rw [hwrote.plaintext]
    simp [payloads, Sent.payload]

/-- **The key is updated**, where data may be sent and no other update waits. -/
theorem appended_update {st st' : ExpectTraffic τ} (h : Writing K s (st.secret s.side)) (hs : Settled s)
    (hmay : s.maySendApplicationData = true) (hq : s.queuedKeyUpdateMessage = none)
    (he : st.updateEncrypterAndNotify K A s = ok (st', s')) :
    Appended A K (st.secret s.side) (st'.secret s'.side) s s' [.update] [] := by
  obtain ⟨s₁, hs₁, he⟩ := bind_eq_ok.mp he
  obtain ⟨⟨em, r⟩, hem, hs₁⟩ := bind_eq_ok.mp hs₁
  cases hs₁
  cases he
  obtain ⟨-, henc, rfl⟩ := encryptOutgoing_eq_ok hem
  rw [h.key] at henc
  have hsingle := Stream.single (K := K) (A := A) (t := st.secret s.side) (x := .update) ⟨by decide, henc⟩
  have hsecret : (st.nextApplicationTrafficSecret K s.side).2.secret s.side = K.deriveNext (st.secret s.side) :=
    ExpectTraffic.secret_nextApplicationTrafficSecret s.side
  refine ⟨⟨em.encode, ?_, ?_⟩, ⟨⟨rfl, ⟨_, _, rfl⟩, UInt64.zero_le⟩, ?_⟩, ⟨fun _ => hs.flushed hmay, fun _ => hmay⟩, ?_,
    rfl⟩
  · show Stream A K (st.secret s.side) s.recordLayer.writeSeq [.update] em.encode
      ((st.nextApplicationTrafficSecret K s.side).2.secret s.side) 0
    rw [hsecret]
    exact hsingle
  · rw [CommonState.outgoing, CommonState.outgoing, hq]
    simp
  · show MessageEncrypter.tls13 (K.trafficKey (st.nextApplicationTrafficSecret K s.side).1)
      (K.trafficIv (st.nextApplicationTrafficSecret K s.side).1) = _
    rw [ExpectTraffic.nextApplicationTrafficSecret_fst, ← hsecret]
    rfl
  · simp [payloads, Sent.payload]

/-! ## The channel -/

/-- Two ends and what is on the way. The last three fields are not in the source: what the sending side has accepted,
what the application of the other has read, and how much had been accepted and sent when the end was sent first. -/
structure Channel (κ τ : Type) where
  sender : CommonState κ
  secrets : ExpectTraffic τ
  flight : List UInt8
  receiver : ConnectionCore κ (ExpectTraffic τ)
  accepted : List UInt8
  delivered : List UInt8
  closed : Option ℕ

/-- What happens at the ends. -/
inductive Act where
  | write (data : List UInt8)
  | start
  | close
  | update
  | writeTls (n : ℕ)
  | readTls (n : ℕ)
  | process
  | read (n : ℕ)

/-- What accepts nothing; a key update that waits is sent with an empty write. -/
def Act.drains : Act → Bool
  | .write data => data.isEmpty
  | .start | .close | .update => false
  | .writeTls _ | .readTls _ | .process | .read _ => true

namespace Channel

variable (A K) (bodies : BodyParser ρ) (stack : ℕ) (other : Handler κ ρ (ExpectTraffic τ))

/-- A step, where the call returns. A key update is not asked for while one waits. -/
def step (c : Channel κ τ) : Act → Option (Channel κ τ)
  | .write data =>
    match c.sender.sendSomePlaintext A stack data with
    | ok (n, s) => some { c with sender := s, accepted := c.accepted ++ data.take n }
    | _ => none
  | .start =>
    match c.sender.startOutgoingTraffic A stack with
    | ok s => some { c with sender := s }
    | _ => none
  | .close =>
    match c.sender.sendCloseNotify A stack with
    | ok s => some { c with
        sender := s
        closed := some (c.closed.getD (c.accepted.length - c.sender.sendablePlaintext.content.length)) }
    | _ => none
  | .update =>
    if ¬ c.sender.maySendApplicationData ∨ c.sender.queuedKeyUpdateMessage.isSome then none
    else match c.secrets.updateEncrypterAndNotify K A c.sender with
      | ok (st, s) => some { c with sender := s, secrets := st }
      | _ => none
  | .writeTls n =>
    let (written, sendableTls) := c.sender.sendableTls.writeTo n
    some { c with sender := { c.sender with sendableTls := sendableTls }, flight := c.flight ++ written }
  | .readTls n =>
    match c.receiver.readTls (c.flight.take n) with
    | ok (.ok k, r) => some { c with receiver := r, flight := c.flight.drop k }
    | ok (.error _, r) => some { c with receiver := r }
    | _ => none
  | .process =>
    match c.receiver.processNewPackets bodies A stack (ExpectTraffic.handle K A stack other) with
    | ok (_, r) => some { c with receiver := r }
    | _ => none
  | .read n =>
    match c.receiver.read n with
    | (.ok bytes, r) => some { c with receiver := r, delivered := c.delivered ++ bytes }
    | (.error _, r) => some { c with receiver := r }

/-- **The end overtakes a key update that waits**, so it is not asked for then. -/
def Orderly (c : Channel κ τ) : Act → Prop
  | .close => c.sender.queuedKeyUpdateMessage = none
  | _ => True

instance (c : Channel κ τ) : DecidablePred c.Orderly
  | .close => inferInstanceAs (Decidable (c.sender.queuedKeyUpdateMessage = none))
  | .write _ | .start | .update | .writeTls _ | .readTls _ | .process | .read _ => .isTrue trivial

/-- What has arrived, for the application to read. -/
def received (c : Channel κ τ) : List UInt8 := c.receiver.commonState.receivedPlaintext.content

variable {bodies stack other}

/-- Where the data is: `xs` is on the way, in records of which the other side has the bytes `u`. -/
structure Way (c : Channel κ τ) (u : List UInt8) (xs : List Sent) (t : τ) (n : UInt64) (st : ExpectTraffic τ) :
    Prop where
  stands : Stands c.receiver ⟨none, c.receiver.commonState, st⟩ u
  stream : Stream A K t n xs (u ++ (c.flight ++ c.sender.outgoing)) (c.secrets.secret c.sender.side)
    c.sender.recordLayer.writeSeq
  reading : Reading K c.receiver.commonState st t n
  accepted : c.accepted = c.delivered ++ c.received ++ payloads xs ++ c.sender.sendablePlaintext.content
  closes : ∀ ys zs, xs = ys ++ Sent.close :: zs →
    ∃ k, c.closed = some k ∧ k ≤ (c.delivered ++ c.received ++ payloads ys).length
  closed : c.receiver.commonState.hasReceivedCloseNotify = true →
    ∃ k, c.closed = some k ∧ k ≤ (c.delivered ++ c.received).length

/-- **What has been accepted is somewhere, in order.** -/
structure Inv (c : Channel κ τ) : Prop where
  writing : Writing K c.sender (c.secrets.secret c.sender.side)
  settled : Settled c.sender
  told : ∀ k, c.closed = some k → k + c.sender.sendablePlaintext.content.length ≤ c.accepted.length
  way : ∃ u xs t n st, Way A K c u xs t n st

variable {A K} {c c' : Channel κ τ}

/-- What is accepted and not delivered is in one of three places. -/
theorem Way.length {u : List UInt8} {xs : List Sent} {t : τ} {n : UInt64} {st : ExpectTraffic τ}
    (h : Way A K c u xs t n st) : c.accepted.length =
      (c.delivered ++ c.received ++ payloads xs).length + c.sender.sendablePlaintext.content.length := by
  rw [h.accepted, List.length_append]

/-- **A call of the side that sends.** -/
theorem Inv.appended (h : Inv A K c) (st : ExpectTraffic τ) (closed : Option ℕ) {s : CommonState κ} {xs : List Sent}
    {data : List UInt8}
    (ha : Appended A K (c.secrets.secret c.sender.side) (st.secret c.sender.side) c.sender s xs data)
    (hkeep : ∀ k, c.closed = some k → closed = some k)
    (htold : ∀ k, closed = some k → k + c.sender.sendablePlaintext.content.length ≤ c.accepted.length)
    (hclose : Sent.close ∈ xs → closed ≠ none) :
    Inv A K { c with sender := s, secrets := st, accepted := c.accepted ++ data, closed := closed } := by
  obtain ⟨u, ys, t, n, rst, hway⟩ := h.way
  obtain ⟨bs, hstream, houtgoing⟩ := ha.stream
  have hlength := congrArg List.length ha.payload
  rw [List.length_append, List.length_append] at hlength
  refine ⟨ha.side ▸ ha.writing, ha.settled, fun k hk => ?_, u, ys ++ xs, t, n, rst, hway.stands, ?_, hway.reading,
    ?_, ?_, ?_⟩
  · have hle := htold k hk
    show k + s.sendablePlaintext.content.length ≤ (c.accepted ++ data).length
    rw [List.length_append]
    omega
  · have happend := hway.stream.append hstream
    rw [List.append_assoc, List.append_assoc, ← houtgoing] at happend
    show Stream A K t n (ys ++ xs) (u ++ (c.flight ++ s.outgoing)) (st.secret s.side) s.recordLayer.writeSeq
    rw [ha.side]
    exact happend
  · show c.accepted ++ data = c.delivered ++ c.received ++ payloads (ys ++ xs) ++ s.sendablePlaintext.content
    rw [hway.accepted, List.append_assoc _ _ data, ← ha.payload]
    simp only [payloads, List.flatMap_append, List.append_assoc]
  · intro as zs heq
    have hnew : Sent.close ∈ xs → ∀ ws, ∃ k, closed = some k ∧
        k ≤ (c.delivered ++ c.received ++ payloads (ys ++ ws)).length := by
      intro hmem ws
      obtain ⟨k, hk⟩ := Option.ne_none_iff_exists'.mp (hclose hmem)
      refine ⟨k, hk, ?_⟩
      have hle := htold k hk
      have hall := hway.length
      simp only [payloads, List.flatMap_append, List.length_append] at hall ⊢
      omega
    obtain ⟨ws, rfl, rfl⟩ | ⟨ws, rfl, hws⟩ := List.append_eq_append_iff.mp heq
    · exact hnew (by simp) ws
    · cases ws with
      | nil =>
        have hlast := hnew (by rw [← List.nil_append xs, ← hws]; exact List.mem_cons_self) []
        rwa [List.append_nil, List.append_nil] at hlast
      | cons w ws =>
        obtain ⟨rfl, rfl⟩ := List.cons.inj hws
        obtain ⟨k, hk, hle⟩ := hway.closes as ws rfl
        exact ⟨k, hkeep k hk, hle⟩
  · intro hreceived
    obtain ⟨k, hk, hle⟩ := hway.closed hreceived
    exact ⟨k, hkeep k hk, hle⟩

/-- A read from the socket. -/
theorem Way.readTls {u : List UInt8} {xs : List Sent} {t : τ} {n : UInt64} {st : ExpectTraffic τ}
    (h : Way A K c u xs t n st) {m k : ℕ} {r : ConnectionCore κ (ExpectTraffic τ)}
    (hr : c.receiver.readTls (c.flight.take m) = ok (.ok k, r)) :
    ∃ u', Way A K { c with receiver := r, flight := c.flight.drop k } u' xs t n st := by
  obtain ⟨⟨hstate, hcommon, hholds⟩, hle⟩ := h.stands.readTls hr
  have htake : (c.flight.take m).take k ++ c.flight.drop k = c.flight := by
    rw [List.length_take] at hle
    rw [List.take_take, min_eq_left (hle.trans (min_le_left _ _)), List.take_append_drop]
  have hreceived : ({ c with receiver := r, flight := c.flight.drop k } : Channel κ τ).received = c.received := by
    rw [Channel.received, hcommon]
    rfl
  refine ⟨u ++ (c.flight.take m).take k, ⟨⟨hstate, rfl, hholds⟩, ?_, ?_, ?_, ?_, ?_⟩⟩
  · show Stream A K t n xs (u ++ (c.flight.take m).take k ++ (c.flight.drop k ++ c.sender.outgoing)) _ _
    rw [List.append_assoc, ← List.append_assoc _ (c.flight.drop k), htake]
    exact h.stream
  · show Reading K r.commonState st t n
    rw [hcommon]
    exact ⟨h.reading.version, h.reading.layer, h.reading.secret⟩
  · rw [hreceived]
    exact h.accepted
  · rw [hreceived]
    exact h.closes
  · rw [hreceived]
    show r.commonState.hasReceivedCloseNotify = true → _
    rw [hcommon]
    exact h.closed

/-- A side that waits for more has room for it. -/
theorem used_lt_of_idle {handle : Handler κ ρ (ExpectTraffic τ)} {s : CommonState κ} {st : ExpectTraffic τ}
    {v : List UInt8} {d : MessageDeframer}
    (h : Receiver.next bodies A stack handle ⟨none, s, st⟩ v = .more ⟨none, s, st⟩ v) (hd : Holds d none v) :
    d.used < d.allowMax := by
  rw [Receiver.next] at h
  cases hf : Framer.next A s.negotiatedVersion (Receiver.framer ⟨none, s, st⟩) v with
  | more f r =>
    rw [hf] at h
    obtain ⟨hs, rfl⟩ := Next.more.inj h
    have hjoined : f.joined = none := congrArg Receiver.joined hs
    exact used_lt_of_more hf hjoined (hjoined ▸ hd)
  | fail e f =>
    rw [hf] at h
    cases h
  | item o f r =>
    rw [hf] at h
    dsimp only at h
    split at h <;> cases h

variable (bodies stack other) in
/-- **Processing does not fail**, and takes all records that are complete. -/
theorem Way.process (hA : A.Lawful) {u : List UInt8} {xs : List Sent} {t : τ} {n : UInt64} {st : ExpectTraffic τ}
    (h : Way A K c u xs t n st) :
    ∃ r u' xs' t' n' st', c.receiver.processNewPackets bodies A stack (ExpectTraffic.handle K A stack other) =
        ok (.ok (), r) ∧ Way A K { c with receiver := r } u' xs' t' n' st' ∧
      r.messageDeframer.used < r.messageDeframer.allowMax ∧
      (c.flight = [] → c.sender.outgoing = [] → xs' = []) := by
  have hproc := processNewPackets_refines bodies stack (ExpectTraffic.handle K A stack other) hA h.stands
  obtain ⟨s', st', v, xs₁, xs₂, t₁, n₁, hdrain, rfl, hstream, hreading, harrived, hlast⟩ :=
    drain_stream bodies stack other hA h.stream h.reading rfl
  rw [hdrain] at hproc
  obtain ⟨d, hproc, hholds⟩ := hproc
  refine ⟨_, v, xs₂, t₁, n₁, st', hproc, ⟨⟨rfl, rfl, hholds⟩, hstream, hreading, ?_, ?_, ?_⟩, ?_, ?_⟩
  · show c.accepted = c.delivered ++ s'.receivedPlaintext.content ++ payloads xs₂ ++ c.sender.sendablePlaintext.content
    rw [h.accepted, harrived.content, Channel.received]
    simp only [payloads, List.flatMap_append, List.append_assoc]
  · intro ys zs hxs
    obtain ⟨k, hk, hle⟩ := h.closes (xs₁ ++ ys) zs (by rw [hxs, List.append_assoc])
    refine ⟨k, hk, ?_⟩
    show k ≤ (c.delivered ++ s'.receivedPlaintext.content ++ payloads ys).length
    rw [harrived.content]
    simpa only [Channel.received, payloads, List.flatMap_append, List.append_assoc] using hle
  · intro hreceived
    show ∃ k, c.closed = some k ∧ k ≤ (c.delivered ++ s'.receivedPlaintext.content).length
    rw [harrived.content]
    obtain hbefore | hnow := harrived.closed.mp hreceived
    · obtain ⟨k, hk, hle⟩ := h.closed hbefore
      refine ⟨k, hk, hle.trans ?_⟩
      simp [Channel.received]
    · obtain ⟨ys, zs, rfl⟩ := List.append_of_mem hnow
      obtain ⟨k, hk, hle⟩ := h.closes ys (zs ++ xs₂) (by simp)
      refine ⟨k, hk, hle.trans ?_⟩
      simp [Channel.received, payloads]
  · exact used_lt_of_idle (Decoder.next_of_drain hdrain) hholds
  · intro hflight houtgoing
    exact hlast (by rw [hflight, houtgoing]; rfl)

/-- What the application reads is taken off what has arrived. -/
theorem read_receiver (r : ConnectionCore κ (ExpectTraffic τ)) (m : ℕ) :
    (r.read m).2 = { r with commonState := { r.commonState with
        receivedPlaintext := (r.commonState.receivedPlaintext.read m).2 } } ∧
      (r.read m).1.toOption.getD [] = (r.commonState.receivedPlaintext.read m).1 := by
  rw [ConnectionCore.read]
  cases r.commonState.receivedPlaintext.read m with
  | mk bytes rest =>
    dsimp only
    split_ifs with hnone hclosed heof
    · exact ⟨rfl, hnone.1.symm⟩
    · exact ⟨rfl, hnone.1.symm⟩
    · exact ⟨rfl, hnone.1.symm⟩
    · exact ⟨rfl, rfl⟩

/-- The end is told when nothing is left and the other side has told it. -/
theorem read_end {r : ConnectionCore κ (ExpectTraffic τ)} {m : ℕ} (hm : m ≠ 0) (h : (r.read m).1 = .ok []) :
    r.commonState.receivedPlaintext.content = [] ∧ r.commonState.hasReceivedCloseNotify = true := by
  have hread := (ChunkVecBuffer.content_read (b := r.commonState.receivedPlaintext) m).1
  rw [ConnectionCore.read] at h
  cases hr : r.commonState.receivedPlaintext.read m with
  | mk bytes rest =>
    rw [hr] at h hread
    dsimp only at h
    split_ifs at h with hnone hclosed heof
    · have hnil : r.commonState.receivedPlaintext.content.take m = [] := hread.symm.trans hnone.1
      exact ⟨(List.take_eq_nil_iff.mp hnil).resolve_left hm, (Bool.and_eq_true_iff.mp hclosed).1⟩
    · exact absurd ⟨Except.ok.inj h, hm⟩ hnone

/-- The application reads. -/
theorem Way.read {u : List UInt8} {xs : List Sent} {t : τ} {n : UInt64} {st : ExpectTraffic τ}
    (h : Way A K c u xs t n st) (m : ℕ) :
    Way A K { c with
      receiver := (c.receiver.read m).2
      delivered := c.delivered ++ ((c.receiver.read m).1.toOption.getD []) } u xs t n st := by
  obtain ⟨hreceiver, hbytes⟩ := read_receiver c.receiver m
  obtain ⟨hread, hrest⟩ := ChunkVecBuffer.content_read (b := c.receiver.commonState.receivedPlaintext) m
  have hall : c.delivered ++ (c.receiver.read m).1.toOption.getD [] ++
      (c.receiver.read m).2.commonState.receivedPlaintext.content = c.delivered ++ c.received := by
    rw [hbytes, hreceiver, hread, hrest, List.append_assoc, List.take_append_drop, Channel.received]
  refine ⟨⟨?_, rfl, ?_⟩, h.stream, ?_, ?_, ?_, ?_⟩
  · rw [hreceiver]
    exact h.stands.state
  · rw [hreceiver]
    exact h.stands.holds
  · rw [hreceiver]
    exact ⟨h.reading.version, h.reading.layer, h.reading.secret⟩
  · show c.accepted = c.delivered ++ (c.receiver.read m).1.toOption.getD [] ++
      (c.receiver.read m).2.commonState.receivedPlaintext.content ++ payloads xs ++ c.sender.sendablePlaintext.content
    rw [hall, h.accepted]
  · intro ys zs hxs
    show ∃ k, c.closed = some k ∧ k ≤ (c.delivered ++ (c.receiver.read m).1.toOption.getD [] ++
      (c.receiver.read m).2.commonState.receivedPlaintext.content ++ payloads ys).length
    rw [hall]
    exact h.closes ys zs hxs
  · show (c.receiver.read m).2.commonState.hasReceivedCloseNotify = true → ∃ k, c.closed = some k ∧
      k ≤ (c.delivered ++ (c.receiver.read m).1.toOption.getD [] ++
        (c.receiver.read m).2.commonState.receivedPlaintext.content).length
    rw [hall, hreceiver]
    exact h.closed

/-- **Every step keeps it**, if it is orderly. -/
theorem inv_step (hA : A.Lawful) (h : Inv A K c) {a : Act} (hs : c.step A K bodies stack other a = some c')
    (horderly : c.Orderly a) : Inv A K c' := by
  cases a with
  | write data =>
    simp only [step] at hs
    split at hs
    next n s he =>
      obtain rfl := Option.some.inj hs
      obtain ⟨xs, ha, hclose⟩ := appended_write h.writing h.settled he
      exact h.appended c.secrets c.closed ha (fun _ => id) h.told fun hmem => absurd hmem hclose
    · cases hs
  | start =>
    simp only [step] at hs
    split at hs
    next s he =>
      obtain rfl := Option.some.inj hs
      obtain ⟨xs, ha, hclose⟩ := appended_start h.writing h.settled he
      have hinv := h.appended c.secrets c.closed ha (fun _ => id) h.told fun hmem => absurd hmem hclose
      rwa [List.append_nil] at hinv
    · cases hs
  | close =>
    simp only [step] at hs
    split at hs
    next s he =>
      obtain rfl := Option.some.inj hs
      have ha := appended_close h.writing h.settled horderly he
      obtain ⟨u, xs, t, n, st, hway⟩ := h.way
      have hlength := hway.length
      have hinv := h.appended c.secrets (some (c.closed.getD
        (c.accepted.length - c.sender.sendablePlaintext.content.length))) ha ?_ ?_ (by simp)
      · rwa [List.append_nil] at hinv
      · intro k hk
        rw [hk]
        rfl
      · intro k hk
        cases hc : c.closed with
        | some k' =>
          rw [hc] at hk
          obtain rfl := Option.some.inj hk
          exact h.told _ hc
        | none =>
          rw [hc] at hk
          obtain rfl := Option.some.inj hk
          rw [Option.getD_none]
          omega
    · cases hs
  | update =>
    simp only [step] at hs
    split_ifs at hs with hguard
    rw [not_or, not_not] at hguard
    split at hs
    next st s he =>
      obtain rfl := Option.some.inj hs
      have ha := appended_update h.writing h.settled hguard.1 (by simpa using hguard.2) he
      have hside := ha.side
      rw [hside] at ha
      have hinv := h.appended st c.closed ha (fun _ => id) h.told (by simp)
      rwa [List.append_nil] at hinv
    · cases hs
  | writeTls n =>
    simp only [step] at hs
    obtain rfl := Option.some.inj hs
    have hcontent := ChunkVecBuffer.content_writeTo (b := c.sender.sendableTls) n
    obtain ⟨u, xs, t, k, st, hway⟩ := h.way
    refine ⟨⟨h.writing.ready, h.writing.key⟩, ⟨h.settled.flushed, h.settled.queued⟩, h.told, u, xs, t, k, st,
      hway.stands, ?_, hway.reading, hway.accepted, hway.closes, hway.closed⟩
    show Stream A K t k xs (u ++ (c.flight ++ (c.sender.sendableTls.writeTo n).1 ++
      ((c.sender.sendableTls.writeTo n).2.content ++ c.sender.queuedKeyUpdateMessage.getD []))) _ _
    rw [List.append_assoc c.flight, ← List.append_assoc (c.sender.sendableTls.writeTo n).1, hcontent]
    exact hway.stream
  | readTls m =>
    simp only [step] at hs
    split at hs
    next k r he =>
      obtain rfl := Option.some.inj hs
      obtain ⟨u, xs, t, n, st, hway⟩ := h.way
      obtain ⟨u', hway'⟩ := hway.readTls he
      exact ⟨h.writing, h.settled, h.told, u', xs, t, n, st, hway'⟩
    next e r he =>
      obtain rfl := Option.some.inj hs
      obtain ⟨u, xs, t, n, st, hway⟩ := h.way
      rwa [hway.stands.readTls_error he]
    · cases hs
  | process =>
    obtain ⟨u, xs, t, n, st, hway⟩ := h.way
    obtain ⟨r, u', xs', t', n', st', hr, hway', -, -⟩ := hway.process bodies stack other hA
    simp only [step, hr] at hs
    obtain rfl := Option.some.inj hs
    exact ⟨h.writing, h.settled, h.told, u', xs', t', n', st', hway'⟩
  | read m =>
    obtain ⟨u, xs, t, n, st, hway⟩ := h.way
    have hread := hway.read m
    have hinv : Inv A K { c with
        receiver := (c.receiver.read m).2
        delivered := c.delivered ++ ((c.receiver.read m).1.toOption.getD []) } :=
      ⟨h.writing, h.settled, h.told, u, xs, t, n, st, hread⟩
    simp only [step] at hs
    cases hr : c.receiver.read m with
    | mk res r =>
      rw [hr] at hs hinv
      cases res with
      | ok bytes =>
        obtain rfl := Option.some.inj hs
        exact hinv
      | error e =>
        obtain rfl := Option.some.inj hs
        rwa [show (Except.error e : Except ConnectionCore.ReadError (List UInt8)).toOption.getD [] = [] from rfl,
          List.append_nil] at hinv

variable (K) in
/-- Both ends have come out of the handshake: they have the same secret, and nothing is on the way. -/
structure Fresh (c : Channel κ τ) : Prop where
  writing : Writing K c.sender (c.secrets.secret c.sender.side)
  settled : Settled c.sender
  outgoing : c.sender.outgoing = []
  flight : c.flight = []
  state : ∃ st, c.receiver.state = .ok st ∧
    Reading K c.receiver.commonState st (c.secrets.secret c.sender.side) c.sender.recordLayer.writeSeq
  deframer : c.receiver.messageDeframer = .default
  notClosed : c.receiver.commonState.hasReceivedCloseNotify = false
  accepted : c.accepted = c.delivered ++ c.received ++ c.sender.sendablePlaintext.content
  closed : c.closed = none

theorem Fresh.inv (h : Fresh K c) : Inv A K c := by
  obtain ⟨st, hstate, hreading⟩ := h.state
  refine ⟨h.writing, h.settled, fun k hk => ?_, [], [], _, _, st, ⟨hstate, rfl, ?_⟩, ?_, hreading, ?_, ?_, ?_⟩
  · rw [h.closed] at hk
    cases hk
  · rw [h.deframer]
    exact Holds.idle [] []
  · rw [h.flight, h.outgoing]
    exact .nil _ _
  · rw [h.accepted]
    simp [payloads]
  · intro ys zs hnil
    simp at hnil
  · intro hclosed
    rw [h.notClosed] at hclosed
    cases hclosed

/-- Secrets that are keys, each followed by the next. -/
def countingSchedule : KeySchedule UInt8 UInt8 where
  deriveNext t := t + 1
  trafficKey t := t
  trafficIv _ := ⟨List.replicate 12 0, rfl⟩

/-- A client and a server out of the handshake. -/
def established : Channel UInt8 UInt8 where
  sender := { CommonState.new (κ := UInt8) .client with
    recordLayer := RecordLayer.new.setMessageEncrypter (.tls13 7 ⟨List.replicate 12 0, rfl⟩) }
  secrets := ⟨7, 40⟩
  flight := []
  receiver := .new ⟨7, 40⟩ { CommonState.new (κ := UInt8) .server with
    negotiatedVersion := some .tlsV1_3
    mayReceiveApplicationData := true
    recordLayer := RecordLayer.new.setMessageDecrypter (.tls13 7 ⟨List.replicate 12 0, rfl⟩) }
  accepted := []
  delivered := []
  closed := none

theorem fresh_established : Fresh countingSchedule established where
  writing := ⟨⟨rfl, ⟨7, _, rfl⟩, by decide⟩, rfl⟩
  settled := ⟨fun _ => rfl, fun h => absurd rfl h⟩
  outgoing := rfl
  flight := rfl
  state := ⟨⟨7, 40⟩, rfl, rfl, ⟨rfl, rfl, rfl⟩, rfl⟩
  deframer := rfl
  notClosed := rfl
  accepted := rfl
  closed := rfl

/-- Data before and after the handshake, a key update and the end. -/
def conversation : List Act :=
  [.write [1, 2], .start, .write [3], .update, .write [4], .close, .writeTls 60, .readTls 60, .process, .writeTls 500,
    .readTls 500, .process, .read 9]

/-- The other messages are refused. -/
def refusing : Handler UInt8 Unit (ExpectTraffic UInt8) := fun s _ _ => ok (.error .handshakeNotComplete, s)

set_option maxRecDepth 20000 in
theorem conversation_orderly :
    Meets (step Aead.masking countingSchedule noBodies 2 refusing) Orderly established conversation := by
  decide +kernel

/-- **In every orderly run, what has been accepted is somewhere, in order.** -/
theorem inv_run (hA : A.Lawful) (h : Fresh K c) {acts : List Act}
    (horderly : Meets (step A K bodies stack other) Orderly c acts)
    (hrun : exec (step A K bodies stack other) c acts = some c') : Inv A K c' :=
  exec_invariant_of_meets (fun _ _ _ hinv ha hstep => inv_step hA hinv hstep ha) h.inv horderly hrun

/-- **Data is delivered in order, and nothing else**; processing does not fail in an orderly run. -/
theorem delivered_in_order (hA : A.Lawful) (h : Fresh K c) {acts : List Act}
    (horderly : Meets (step A K bodies stack other) Orderly c acts)
    (hrun : exec (step A K bodies stack other) c acts = some c') :
    c'.delivered ++ c'.received <+: c'.accepted ∧
      ∃ r, c'.receiver.processNewPackets bodies A stack (ExpectTraffic.handle K A stack other) = ok (.ok (), r) := by
  obtain ⟨u, xs, t, n, st, hway⟩ := (inv_run hA h horderly hrun).way
  obtain ⟨r, _, _, _, _, _, hr, -⟩ := hway.process bodies stack other hA
  refine ⟨?_, r, hr⟩
  rw [hway.accepted, List.append_assoc]
  exact List.prefix_append _ _

set_option maxRecDepth 20000 in
theorem delivered_in_order_conversation :
    ∃ c, exec (step Aead.masking countingSchedule noBodies 2 refusing) established conversation = some c ∧
      c.delivered ++ c.received <+: c.accepted := by
  have hrun : ∃ c, exec (step Aead.masking countingSchedule noBodies 2 refusing) established conversation = some c :=
    ⟨_, rfl⟩
  obtain ⟨c, hrun⟩ := hrun
  exact ⟨c, hrun, (delivered_in_order Aead.masking_lawful fresh_established conversation_orderly hrun).1⟩

set_option maxRecDepth 20000 in
/-- In a run that is not orderly the other side cannot read the end, which is sealed with the next key. -/
theorem end_overtakes_update :
    ∃ c e r, exec (step Aead.masking countingSchedule noBodies 2 refusing) established
        [.start, .update, .close, .writeTls 60, .readTls 60] = some c ∧
      c.receiver.processNewPackets noBodies Aead.masking 2
        (ExpectTraffic.handle countingSchedule Aead.masking 2 refusing) = ok (.error e, r) :=
  ⟨_, .decryptError, _, rfl, rfl⟩

/-- **The end is not told before the data in front of it.** -/
theorem delivered_of_closed (hA : A.Lawful) (h : Fresh K c) {acts : List Act}
    (horderly : Meets (step A K bodies stack other) Orderly c acts)
    (hrun : exec (step A K bodies stack other) c acts = some c') {n : ℕ} (hn : n ≠ 0)
    (hend : (c'.receiver.read n).1 = .ok []) :
    ∃ k, c'.closed = some k ∧ c'.delivered.take k = c'.accepted.take k ∧ k ≤ c'.delivered.length := by
  obtain ⟨u, xs, t, m, st, hway⟩ := (inv_run hA h horderly hrun).way
  obtain ⟨hnil, hclosed⟩ := read_end hn hend
  obtain ⟨k, hk, hle⟩ := hway.closed hclosed
  have haccepted := hway.accepted
  rw [Channel.received, hnil, List.append_nil] at hle haccepted
  refine ⟨k, hk, ?_, hle⟩
  rw [haccepted, List.append_assoc, List.take_append_of_le_length hle]

set_option maxRecDepth 20000 in
theorem delivered_of_closed_conversation :
    ∃ c k, exec (step Aead.masking countingSchedule noBodies 2 refusing) established conversation = some c ∧
      c.closed = some k ∧ c.delivered.take k = c.accepted.take k ∧ k ≤ c.delivered.length := by
  have hrun : ∃ c, exec (step Aead.masking countingSchedule noBodies 2 refusing) established conversation = some c ∧
      (c.receiver.read 9).1 = .ok [] := ⟨_, rfl, rfl⟩
  obtain ⟨c, hrun, hend⟩ := hrun
  obtain ⟨k, hk⟩ := delivered_of_closed Aead.masking_lawful fresh_established conversation_orderly hrun (n := 9) (by decide) hend
  exact ⟨c, k, hrun, hk⟩

/-! ## All of it arrives -/

/-- A state after which the sending side only writes what it has. -/
structure Flushing (A : Aead κ) (K : KeySchedule κ τ) (accepted : List UInt8) (c : Channel κ τ) : Prop where
  inv : Inv A K c
  accepted : c.accepted = accepted
  may : c.sender.maySendApplicationData = true
  queued : c.sender.queuedKeyUpdateMessage = none

variable (bodies stack other) in
/-- A key update that waits is sent with the next data, even if there is none. -/
theorem exists_flushing (hA : A.Lawful) (h : Inv A K c) (hmay : c.sender.maySendApplicationData = true) :
    ∃ c', Reachable (only (step A K bodies stack other) Act.drains) c c' ∧ Flushing A K c.accepted c' := by
  obtain ⟨-, hqueued, -, hmay', -⟩ := perhapsWriteKeyUpdate_spec c.sender
  have hsend : c.sender.sendSomePlaintext A stack [] = ok (0, c.sender.perhapsWriteKeyUpdate) := by
    rw [CommonState.sendSomePlaintext, CommonState.sendPlain.eq_def, hmay', hmay]
    rfl
  have hstep : c.step A K bodies stack other (.write []) =
      some { c with sender := c.sender.perhapsWriteKeyUpdate, accepted := c.accepted ++ [] } := by
    simp only [step, hsend, List.take_nil]
  exact ⟨_, .single_only rfl hstep, inv_step hA h hstep trivial, List.append_nil _, hmay'.trans hmay, hqueued⟩

variable (bodies stack other) in
/-- What is to be written is written. -/
theorem exists_written (hA : A.Lawful) {accepted : List UInt8} (h : Flushing A K accepted c) :
    ∃ c', Reachable (only (step A K bodies stack other) Act.drains) c c' ∧ Flushing A K accepted c' ∧ c'.sender.outgoing = [] := by
  refine reachable_of_measure (μ := fun c => c.sender.outgoing.length) (fun c h hne => ?_) h
  have hout : c.sender.outgoing = c.sender.sendableTls.content := by
    rw [CommonState.outgoing, h.queued]
    exact List.append_nil _
  have hpos := ChunkVecBuffer.writeTo_pos (n := 1) Nat.one_pos (hout ▸ hne)
  have hcontent := congrArg List.length (ChunkVecBuffer.content_writeTo (b := c.sender.sendableTls) 1)
  have hstep : c.step A K bodies stack other (.writeTls 1) = some { c with
      sender := { c.sender with sendableTls := (c.sender.sendableTls.writeTo 1).2 }
      flight := c.flight ++ (c.sender.sendableTls.writeTo 1).1 } := rfl
  refine ⟨_, .single_only rfl hstep, ⟨inv_step hA h.inv hstep trivial, h.accepted, h.may, h.queued⟩, ?_⟩
  show ((c.sender.sendableTls.writeTo 1).2.content ++ c.sender.queuedKeyUpdateMessage.getD []).length < _
  have hwritten := List.length_pos_of_ne_nil hpos
  rw [List.length_append] at hcontent
  rw [hout, h.queued, Option.getD_none, List.append_nil]
  omega

variable (bodies stack other) in
/-- The application reads all that has arrived. -/
theorem exists_read (hA : A.Lawful) {accepted : List UInt8} (h : Flushing A K accepted c) :
    ∃ c', Reachable (only (step A K bodies stack other) Act.drains) c c' ∧ Flushing A K accepted c' ∧ c'.sender = c.sender ∧
      c'.flight = c.flight ∧ c'.received = [] ∧ c'.receiver.messageDeframer = c.receiver.messageDeframer ∧
      c'.delivered ++ c'.received = c.delivered ++ c.received := by
  obtain ⟨hreceiver, hbytes⟩ := read_receiver c.receiver c.received.length
  obtain ⟨hread, hrest⟩ :=
    ChunkVecBuffer.content_read (b := c.receiver.commonState.receivedPlaintext) c.received.length
  have hstep : c.step A K bodies stack other (.read c.received.length) = some { c with
      receiver := (c.receiver.read c.received.length).2
      delivered := c.delivered ++ (c.receiver.read c.received.length).1.toOption.getD [] } := by
    simp only [step]
    cases c.receiver.read c.received.length with
    | mk res r =>
      cases res with
      | ok bytes => rfl
      | error e =>
        show _ = some { c with receiver := r, delivered := c.delivered ++ [] }
        rw [List.append_nil]
  have hnil : (c.receiver.read c.received.length).2.commonState.receivedPlaintext.content = [] := by
    rw [hreceiver]
    show (c.receiver.commonState.receivedPlaintext.read c.received.length).2.content = []
    rw [hrest]
    exact List.drop_length
  refine ⟨_, .single_only rfl hstep, ⟨inv_step hA h.inv hstep trivial, h.accepted, h.may, h.queued⟩, rfl, rfl, hnil, ?_, ?_⟩
  · rw [hreceiver]
  · show c.delivered ++ (c.receiver.read c.received.length).1.toOption.getD [] ++
      (c.receiver.read c.received.length).2.commonState.receivedPlaintext.content = _
    rw [hnil, hbytes, hread, List.append_nil]
    exact congrArg _ List.take_length

variable (bodies stack other) in
/-- What is on the way is read from the socket. -/
theorem exists_landed (hA : A.Lawful) {accepted : List UInt8} (h : Flushing A K accepted c)
    (hout : c.sender.outgoing = []) :
    ∃ c', Reachable (only (step A K bodies stack other) Act.drains) c c' ∧
      (Flushing A K accepted c' ∧ c'.sender.outgoing = []) ∧ c'.flight = [] := by
  refine reachable_of_measure (μ := fun c => c.flight.length) (fun c h hne => ?_) ⟨h, hout⟩
  obtain ⟨h, hout⟩ := h
  obtain ⟨u, xs, t, n, st, hway⟩ := h.inv.way
  obtain ⟨r, u', xs', t', n', st', hr, hway', hroom, -⟩ := hway.process bodies stack other hA
  have hprocess : c.step A K bodies stack other .process = some { c with receiver := r } := by
    simp only [step, hr]
  have hflushing : Flushing A K accepted { c with receiver := r } :=
    ⟨inv_step hA h.inv hprocess trivial, h.accepted, h.may, h.queued⟩
  obtain ⟨c₂, hread, hflushing₂, hsender, hflight, hreceived, hdeframer, -⟩ :=
    exists_read bodies stack other hA hflushing
  obtain ⟨v, ys, t₂, n₂, st₂, hway₂⟩ := hflushing₂.inv.way
  have hspec := read_spec hway₂.stands.holds c₂.flight
  rw [hdeframer, if_neg (Nat.not_le.mpr hroom)] at hspec
  obtain ⟨k, d', hk, hle, hmin, -⟩ := hspec
  have hfull : c₂.receiver.commonState.receivedPlaintext.isFull = false := by
    have hlen : c₂.receiver.commonState.receivedPlaintext.len = 0 := by
      rw [ChunkVecBuffer.len_eq]
      exact congrArg List.length hreceived
    rw [ChunkVecBuffer.isFull, hlen]
    cases c₂.receiver.commonState.receivedPlaintext.limit <;> simp
  have hlen : c₂.flight.length = c.flight.length := congrArg List.length hflight
  have hpos : 0 < c.flight.length := List.length_pos_of_ne_nil hne
  have hreads : ∃ r', c₂.receiver.readTls (c₂.flight.take c₂.flight.length) = ok (.ok k, r') := by
    rw [List.take_length, ConnectionCore.readTls, hfull]
    simp only [Bool.false_eq_true, if_false, hdeframer, hk]
    exact ⟨_, rfl⟩
  obtain ⟨r', hr'⟩ := hreads
  have hstep : c₂.step A K bodies stack other (.readTls c₂.flight.length) =
      some { c₂ with receiver := r', flight := c₂.flight.drop k } := by
    simp only [step, hr']
  refine ⟨_, ((Reachable.single_only rfl hprocess).trans hread).trans (.single_only rfl hstep),
    ⟨⟨inv_step hA hflushing₂.inv hstep trivial, hflushing₂.accepted, hflushing₂.may, hflushing₂.queued⟩, ?_⟩, ?_⟩
  · show c₂.sender.outgoing = []
    rw [hsender]
    exact hout
  · show (c₂.flight.drop k).length < c.flight.length
    rw [List.length_drop, hlen]
    have hroom' : 0 < r.messageDeframer.allowMax - r.messageDeframer.used := Nat.sub_pos_of_lt hroom
    have hread : 0 < min c₂.flight.length (min (r.messageDeframer.allowMax - r.messageDeframer.used) readSize) :=
      lt_min (hlen ▸ hpos) (lt_min hroom' (by decide))
    exact Nat.sub_lt hpos (hread.trans_le hmin)

/-- **All that has been accepted can be delivered**, and nothing more needs to be accepted for it. -/
theorem delivered_all (hA : A.Lawful) (h : Fresh K c) {acts : List Act}
    (horderly : Meets (step A K bodies stack other) Orderly c acts)
    (hrun : exec (step A K bodies stack other) c acts = some c') (hmay : c'.sender.maySendApplicationData = true) :
    ∃ acts' c'', (∀ a ∈ acts', a.drains = true) ∧ exec (step A K bodies stack other) c' acts' = some c'' ∧
      c''.accepted = c'.accepted ∧ c''.delivered = c'.accepted := by
  obtain ⟨c₁, h₁, hflushing₁⟩ :=
    exists_flushing bodies stack other hA (inv_run hA h horderly hrun) hmay
  obtain ⟨c₂, h₂, hflushing₂, hout⟩ := exists_written bodies stack other hA hflushing₁
  obtain ⟨c₃, h₃, ⟨hflushing₃, hout₃⟩, hflight₃⟩ :=
    exists_landed bodies stack other hA hflushing₂ hout
  obtain ⟨u, xs, t, n, st, hway⟩ := hflushing₃.inv.way
  obtain ⟨r, u', xs', t', n', st', hr, hway', -, hlast⟩ := hway.process bodies stack other hA
  have hprocess : c₃.step A K bodies stack other .process = some { c₃ with receiver := r } := by
    simp only [step, hr]
  have hflushing : Flushing A K c'.accepted { c₃ with receiver := r } :=
    ⟨inv_step hA hflushing₃.inv hprocess trivial, hflushing₃.accepted, hflushing₃.may, hflushing₃.queued⟩
  obtain ⟨c₄, h₄, hflushing₄, hsender, -, hreceived, -, hall⟩ :=
    exists_read bodies stack other hA hflushing
  obtain ⟨acts', hacts⟩ := (((h₁.trans h₂).trans h₃).trans (.single_only rfl hprocess)).trans h₄
  obtain ⟨hdrains, hexec⟩ := exec_only.mp hacts
  refine ⟨acts', c₄, hdrains, hexec, hflushing₄.accepted, ?_⟩
  have haccepted := hway'.accepted
  rw [hlast hflight₃ hout₃] at haccepted
  rw [hreceived, List.append_nil] at hall
  rw [hall, ← hflushing₃.accepted]
  refine Eq.trans ?_ haccepted.symm
  show _ = _ ++ payloads [] ++ c₃.sender.sendablePlaintext.content
  rw [hflushing₃.inv.settled.flushed hflushing₃.may]
  simp [payloads]

set_option maxRecDepth 20000 in
/-- Data that is on the way when a run stops. -/
theorem delivered_all_conversation :
    ∃ c acts' c', exec (step Aead.masking countingSchedule noBodies 2 refusing) established (conversation.take 7) =
        some c ∧ exec (step Aead.masking countingSchedule noBodies 2 refusing) c acts' = some c' ∧
      c'.delivered = [1, 2, 3, 4] := by
  have hrun : ∃ c, exec (step Aead.masking countingSchedule noBodies 2 refusing) established (conversation.take 7) =
      some c ∧ c.sender.maySendApplicationData = true ∧ c.accepted = [1, 2, 3, 4] := ⟨_, rfl, rfl, rfl⟩
  obtain ⟨c, hrun, hmay, haccepted⟩ := hrun
  have horderly : Meets (step Aead.masking countingSchedule noBodies 2 refusing) Orderly established
      (conversation.take 7) := by decide +kernel
  obtain ⟨acts', c', -, hacts, -, hdelivered⟩ :=
    delivered_all Aead.masking_lawful fresh_established horderly hrun hmay
  exact ⟨c, acts', c', hrun, hacts, hdelivered.trans haccepted⟩

end Channel

end RXCore.Rustls
