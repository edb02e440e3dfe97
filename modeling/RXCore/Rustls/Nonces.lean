import RXCore.Lib.Run
import RXCore.Rustls.Common

/-!
# Nonces of a connection

All that a connection sends goes through `encrypt_outgoing`, so what holds of one call holds of every run.

* `SendOp`, `sendStep`: what makes a connection send, in any order;
* `Sending`: what a record that is sealed does, and one that is plain, every function that sends does;
* **`sends_invariant`**: the rule for runs of them;
* `Distinct`, **`sealed_nodup`**: under keys that are new when they are installed no nonce is used twice;
* **`writeSeq_le`**: no sequence number passes the soft limit;
* **`sendSomePlaintext_returns_iff`**: data is sent if and only if its fragments stay below it.
-/

set_option autoImplicit false

namespace RXCore.Rustls

open Cursor Cursor.Walk Run

variable {κ : Type} {A : Aead κ}

/-! ## The soft limit -/

/-- A message that is not empty has a first fragment. -/
theorem fragmentMessage_ne_nil (f : MessageFragmenter) {m : PlainMessage} (h : m.payload ≠ []) :
    f.fragmentMessage m ≠ [] := by
  rw [MessageFragmenter.fragmentMessage, MessageFragmenter.fragmentSlice, chunks_of_ne_nil f.pos h]
  exact List.cons_ne_nil _ _

/-- **At the soft limit a fragment is never sent**: the warning before it is a fragment at the soft limit. -/
theorem sendSingleFragment_of_soft {s : CommonState κ} (hsoft : s.recordLayer.writeSeq = seqSoftLimit)
    (hactive : s.recordLayer.encryptState = .active) (stack : ℕ) (m : PlainMessage) :
    CommonState.sendSingleFragment A stack s m = outOfFuel := by
  induction stack generalizing m with
  | zero => rfl
  | succ stack ih =>
    obtain ⟨first, rest, hfragments⟩ := List.exists_cons_of_ne_nil
      (fragmentMessage_ne_nil s.messageFragmenter (m := buildAlert .warning .closeNotify) (by simp [buildAlert]))
    have hwants : s.recordLayer.wantsCloseBeforeEncrypt = true := by
      rw [RecordLayer.wantsCloseBeforeEncrypt, hsoft]
      rfl
    have hencrypting : s.recordLayer.isEncrypting = true := by
      rw [RecordLayer.isEncrypting, hactive]
      rfl
    have hbefore : s.sendWarningBefore (CommonState.sendSingleFragment A stack) = outOfFuel := by
      rw [CommonState.sendWarningBefore, if_pos hwants, CommonState.sendWarning, CommonState.sendMsg,
        if_pos hencrypting, CommonState.sendMsgEncrypt, hfragments, List.foldlM_cons, ih]
      rfl
    rw [CommonState.sendSingleFragment, hbefore]
    rfl

/-! ## What sends -/

/-- A record may be sealed: its number is not the one at which the sending side stops. -/
def Open (r : RecordLayer κ) : Prop := r.writeSeq ≠ seqSoftLimit ∨ r.encryptState ≠ .active

/-- A relation between the states before and after that one record satisfies, and records one after the other. -/
structure Sending (A : Aead κ) (R : CommonState κ → CommonState κ → Prop) : Prop where
  refl : ∀ s, R s s
  trans : ∀ s t u, R s t → R t u → R s u
  protect : ∀ s m em r, Open s.recordLayer → s.recordLayer.encryptOutgoing A m = ok (em, r) →
    R s ({ s with recordLayer := r }.queueTlsMessage em)
  plain : ∀ s (m : PlainMessage), R s (s.queueTlsMessage m.intoUnencryptedOpaque)

namespace Sending

variable {R : CommonState κ → CommonState κ → Prop}

theorem foldlM (h : Sending A R) {single : CommonState κ → PlainMessage → Walk (CommonState κ)}
    (hs : ∀ s m s', single s m = ok s' → R s s') {ms : List PlainMessage} {s s' : CommonState κ}
    (he : ms.foldlM single s = ok s') : R s s' := by
  induction ms generalizing s with
  | nil =>
    rw [List.foldlM_nil] at he
    cases he
    exact h.refl _
  | cons m ms ih =>
    rw [List.foldlM_cons, bind_eq_ok] at he
    obtain ⟨t, ht, he⟩ := he
    exact h.trans _ _ _ (hs s m t ht) (ih he)

theorem foldl (h : Sending A R) (ms : List PlainMessage) (s : CommonState κ) :
    R s (ms.foldl (fun s m => s.queueTlsMessage m.intoUnencryptedOpaque) s) := by
  induction ms generalizing s with
  | nil => exact h.refl s
  | cons m ms ih => exact h.trans _ _ _ (h.plain s m) (ih _)

theorem recordLayer_foldl (ms : List PlainMessage) (s : CommonState κ) :
    (ms.foldl (fun s m => s.queueTlsMessage m.intoUnencryptedOpaque) s).recordLayer = s.recordLayer := by
  induction ms generalizing s with
  | nil => rfl
  | cons m ms ih => exact ih _

theorem sendMsg (h : Sending A R) {single : CommonState κ → PlainMessage → Walk (CommonState κ)}
    (hs : ∀ s m s', single s m = ok s' → R s s') {s s' : CommonState κ} {m : PlainMessage} {mustEncrypt : Bool}
    (he : s.sendMsg single m mustEncrypt = ok s') : R s s' := by
  rw [CommonState.sendMsg] at he
  split_ifs at he
  · exact h.foldlM hs he
  · cases he
    exact h.foldl _ s

/-- The warning leaves the layer as it is where a record may be sealed. -/
theorem sendWarningBefore (h : Sending A R) {single : CommonState κ → PlainMessage → Walk (CommonState κ)}
    {s t : CommonState κ} (hopen : Open s.recordLayer) (ht : s.sendWarningBefore single = ok t) :
    R s t ∧ t.recordLayer = s.recordLayer := by
  rw [CommonState.sendWarningBefore] at ht
  split_ifs at ht with hwants
  · have hsoft : s.recordLayer.writeSeq = seqSoftLimit := beq_iff_eq.mp hwants
    have hactive : s.recordLayer.isEncrypting = false := by
      rw [RecordLayer.isEncrypting, beq_eq_false_iff_ne]
      exact hopen.resolve_left fun hne => hne hsoft
    rw [CommonState.sendWarning, CommonState.sendMsg, hactive] at ht
    cases ht
    exact ⟨h.foldl _ s, recordLayer_foldl _ s⟩
  · cases ht
    exact ⟨h.refl _, rfl⟩

/-- **A record, with the warning before it.** -/
theorem sendSingleFragment (h : Sending A R) {stack : ℕ} {s s' : CommonState κ} {m : PlainMessage}
    (he : CommonState.sendSingleFragment A stack s m = ok s') : R s s' := by
  by_cases hopen : Open s.recordLayer
  · cases stack with
    | zero => cases he
    | succ stack =>
      rw [CommonState.sendSingleFragment, bind_eq_ok] at he
      obtain ⟨t, ht, he⟩ := he
      obtain ⟨hst, hlayer⟩ := h.sendWarningBefore hopen ht
      refine h.trans _ _ _ hst ?_
      split_ifs at he
      · cases he
        exact h.refl _
      · rw [bind_eq_ok] at he
        obtain ⟨⟨em, r⟩, hem, he⟩ := he
        cases he
        exact h.protect t m em r (hlayer ▸ hopen) hem
  · rw [Open, not_or, not_not, not_not] at hopen
    rw [sendSingleFragment_of_soft hopen.1 hopen.2] at he
    cases he

theorem sendAppdataEncrypt (h : Sending A R) {stack n : ℕ} {s s' : CommonState κ} {payload : List UInt8}
    {limit : Limit} (he : s.sendAppdataEncrypt A stack payload limit = ok (n, s')) : R s s' := by
  simp only [CommonState.sendAppdataEncrypt, bind_eq_ok] at he
  obtain ⟨t, ht, he⟩ := he
  cases he
  exact h.foldlM (fun _ _ _ => h.sendSingleFragment) ht

end Sending

/-! ## Any order of sends -/

/-- What makes a connection send, or change what it sends with. -/
inductive SendOp (κ : Type) where
  | write (data : List UInt8)
  | startOutgoingTraffic
  | startTraffic
  | message (m : PlainMessage) (mustEncrypt : Bool)
  | closeNotify
  | warningAlert (desc : AlertDescription)
  | fatalAlert (desc : AlertDescription)
  | setEncrypter (encKey : κ) (iv : Iv)
  | keyUpdate (encKey : κ) (iv : Iv)
  | writeTls (n : ℕ)
  | setBufferLimit (limit : Option ℕ)

/-- A call, with a stack of a depth of its own. -/
def SendOp.call (A : Aead κ) (stack : ℕ) (s : CommonState κ) : SendOp κ → Walk (CommonState κ)
  | write data => (s.sendSomePlaintext A stack data) >>= fun p => ok p.2
  | startOutgoingTraffic => s.startOutgoingTraffic A stack
  | startTraffic => s.startTraffic A stack
  | message m mustEncrypt => s.sendMsg (CommonState.sendSingleFragment A stack) m mustEncrypt
  | closeNotify => s.sendCloseNotify A stack
  | warningAlert desc => s.sendWarningAlert A stack desc
  | fatalAlert desc => s.sendFatalAlert A stack desc
  | setEncrypter encKey iv => ok { s with recordLayer := s.recordLayer.setMessageEncrypter (.tls13 encKey iv) }
  | keyUpdate encKey iv => s.enqueueKeyUpdateNotification A >>= fun s =>
      ok { s with recordLayer := s.recordLayer.setMessageEncrypter (.tls13 encKey iv) }
  | writeTls n => ok { s with sendableTls := (s.sendableTls.writeTo n).2 }
  | setBufferLimit limit => ok { s with
      sendablePlaintext := s.sendablePlaintext.setLimit limit, sendableTls := s.sendableTls.setLimit limit }

/-- A call that returns. -/
def sendStep (A : Aead κ) (s : CommonState κ) (a : SendOp κ × ℕ) : Option (CommonState κ) :=
  match a.1.call A a.2 s with
  | ok s => some s
  | _ => none

/-- A record is sealed. -/
def Seals (A : Aead κ) (r r' : RecordLayer κ) : Prop := ∃ m em, r.encryptOutgoing A m = ok (em, r')

/-- What sending does to the record layer: records are sealed, where they may be. -/
def Advances (A : Aead κ) : RecordLayer κ → RecordLayer κ → Prop :=
  Relation.ReflTransGen fun r r' => Open r ∧ Seals A r r'

theorem sending_advances : Sending A fun s s' => Advances A s.recordLayer s'.recordLayer where
  refl _ := .refl
  trans _ _ _ := .trans
  protect _ m em _ hopen h := .single ⟨hopen, m, em, h⟩
  plain _ _ := .refl

theorem advances_sendPlain {stack n : ℕ} {s s' : CommonState κ} {data : List UInt8} {limit : Limit}
    (h : s.sendPlain A stack data limit = ok (n, s')) : Advances A s.recordLayer s'.recordLayer := by
  unfold CommonState.sendPlain at h
  split_ifs at h
  · cases limit <;> (cases h; exact .refl)
  · cases h
    exact .refl
  · exact sending_advances.sendAppdataEncrypt h

theorem advances_flushLoop {stack fuel : ℕ} {s s' : CommonState κ}
    (h : CommonState.flushLoop A stack fuel s = ok s') : Advances A s.recordLayer s'.recordLayer := by
  induction fuel generalizing s with
  | zero => cases h
  | succ fuel ih =>
    rw [CommonState.flushLoop] at h
    split at h
    · cases h
      exact .refl
    · obtain ⟨⟨n, t⟩, ht, h⟩ := bind_eq_ok.mp h
      have hfirst := advances_sendPlain ht
      exact .trans hfirst (ih h)

theorem advances_startOutgoingTraffic {stack : ℕ} {s s' : CommonState κ}
    (h : s.startOutgoingTraffic A stack = ok s') : Advances A s.recordLayer s'.recordLayer := by
  rw [CommonState.startOutgoingTraffic, CommonState.flushPlaintext] at h
  split_ifs at h
  · cases h
    exact .refl
  · have hflush := advances_flushLoop h
    exact hflush

/-- The key that a call installs. -/
def SendOp.installs : SendOp κ → Option (κ × Iv)
  | setEncrypter encKey iv | keyUpdate encKey iv => some (encKey, iv)
  | _ => none

/-- The keys that are installed, in order. -/
def installed (ops : List (SendOp κ × ℕ)) : List κ := ops.filterMap fun op => op.1.installs.map Prod.fst

/-- **What a call does to the record layer**: it seals records, or it installs a key, perhaps after a last record. -/
theorem advances_of_call {stack : ℕ} {s s' : CommonState κ} {op : SendOp κ} (h : op.call A stack s = ok s') :
    match op.installs with
    | none => Advances A s.recordLayer s'.recordLayer
    | some (encKey, iv) => ∃ r, Relation.ReflGen (Seals A) s.recordLayer r ∧
        s'.recordLayer = r.setMessageEncrypter (.tls13 encKey iv) := by
  cases op with
  | write data =>
    obtain ⟨⟨n, t⟩, ht, h⟩ := bind_eq_ok.mp h
    cases h
    have hperhaps : s.perhapsWriteKeyUpdate.recordLayer = s.recordLayer := by
      rw [CommonState.perhapsWriteKeyUpdate]
      split <;> rfl
    have hsend := advances_sendPlain ht
    rwa [hperhaps] at hsend
  | startOutgoingTraffic => exact advances_startOutgoingTraffic h
  | startTraffic => exact advances_startOutgoingTraffic (s := { s with mayReceiveApplicationData := true }) h
  | message m mustEncrypt => exact sending_advances.sendMsg (fun _ _ _ => sending_advances.sendSingleFragment) h
  | closeNotify => exact sending_advances.sendMsg (fun _ _ _ => sending_advances.sendSingleFragment) h
  | warningAlert desc => exact sending_advances.sendMsg (fun _ _ _ => sending_advances.sendSingleFragment) h
  | fatalAlert desc =>
    obtain ⟨t, ht, h⟩ := bind_eq_ok.mp h
    cases h
    have hsend := sending_advances.sendMsg (fun _ _ _ => sending_advances.sendSingleFragment) ht
    exact hsend
  | setEncrypter encKey iv =>
    cases h
    exact ⟨_, .refl, rfl⟩
  | keyUpdate encKey iv =>
    obtain ⟨t, ht, h⟩ := bind_eq_ok.mp h
    cases h
    obtain ⟨⟨em, r⟩, hr, ht⟩ := bind_eq_ok.mp ht
    cases ht
    exact ⟨r, .single ⟨_, em, hr⟩, rfl⟩
  | writeTls n =>
    cases h
    exact .refl
  | setBufferLimit limit =>
    cases h
    exact .refl

/-- **The rule for runs**: what a sealed record preserves, and a key that is installed, holds after every run. -/
theorem sends_invariant {I : List κ → RecordLayer κ → Prop} (ks : List κ)
    (hseal : ∀ ks r r', I ks r → Open r → Seals A r r' → I ks r')
    (hinstall : ∀ ks r r' k iv, I ks r → Relation.ReflGen (Seals A) r r' →
      I (ks ++ [k]) (r'.setMessageEncrypter (.tls13 k iv)))
    {s s' : CommonState κ} {ops : List (SendOp κ × ℕ)} (h : I ks s.recordLayer)
    (he : exec (sendStep A) s ops = some s') : I (ks ++ installed ops) s'.recordLayer := by
  induction ops generalizing ks s with
  | nil =>
    obtain rfl := Option.some.inj he
    rwa [installed, List.filterMap_nil, List.append_nil]
  | cons op ops ih =>
    obtain ⟨t, ht, he⟩ := exec_cons_some he
    rw [sendStep] at ht
    split at ht
    next t' hcall =>
      obtain rfl := Option.some.inj ht
      have hadv := advances_of_call hcall
      rw [installed, List.filterMap_cons]
      cases hop : op.1.installs with
      | none =>
        rw [hop] at hadv
        have hlast : ∀ r, Advances A s.recordLayer r → I ks r := by
          intro r hr
          induction hr with
          | refl => exact h
          | tail _ hstep ih => exact hseal _ _ _ ih hstep.1 hstep.2
        exact ih ks (hlast _ hadv) he
      | some kiv =>
        obtain ⟨k, iv⟩ := kiv
        rw [hop] at hadv
        obtain ⟨r, hr, hlayer⟩ := hadv
        simp only [Option.map_some]
        rw [List.append_cons]
        exact ih (ks ++ [k]) (hlayer ▸ hinstall _ _ _ k iv h hr) he
    next => cases ht

/-- What sealing a record does. -/
theorem encryptOutgoing_eq_ok {r r' : RecordLayer κ} {m : PlainMessage} {em : OpaqueMessage}
    (h : r.encryptOutgoing A m = ok (em, r')) :
    r.writeSeq < seqHardLimit ∧ r.messageEncrypter.encrypt A m r.writeSeq = .ok em ∧
      r' = { r with
        writeSeq := r.writeSeq + 1
        sealed := r.sealed ++ RecordLayer.sealing r.messageEncrypter r.writeSeq } := by
  rw [RecordLayer.encryptOutgoing] at h
  split_ifs at h with hex
  rw [RecordLayer.encryptExhausted, decide_eq_true_eq, UInt64.not_le] at hex
  cases he : r.messageEncrypter.encrypt A m r.writeSeq with
  | error e => simp [he] at h
  | ok em' =>
    simp only [he, ok.injEq, Prod.mk.injEq] at h
    obtain ⟨rfl, rfl⟩ := h
    exact ⟨hex, rfl, rfl⟩

/-- A number below the limit is followed by the next one. -/
theorem toNat_succ {n : UInt64} (h : n < seqHardLimit) : (n + 1).toNat = n.toNat + 1 := by
  have hlt : n.toNat < seqHardLimit.toNat := UInt64.lt_iff_toNat_lt.mp h
  rw [UInt64.toNat_add, show (1 : UInt64).toNat = 1 from rfl]
  rw [show seqHardLimit.toNat = 2 ^ 64 - 2 from rfl] at hlt
  omega

/-! ## No nonce twice -/

/-- The nonces used so far are distinct, belong to the keys `ks`, and those of the present key to smaller numbers. -/
structure Distinct (ks : List κ) (r : RecordLayer κ) : Prop where
  nodup : r.sealed.Nodup
  known : ∀ x ∈ r.sealed, x.1 ∈ ks
  present : ∀ k iv, r.messageEncrypter = .tls13 k iv → k ∈ ks ∧
    ∀ x ∈ r.sealed, x.1 = k → ∃ seq < r.writeSeq, x.2 = nonce iv seq

theorem distinct_new : Distinct [] (RecordLayer.new : RecordLayer κ) where
  nodup := List.nodup_nil
  known x hx := by cases hx
  present k iv h := by cases h

/-- A record is sealed with a nonce of its own. -/
theorem Distinct.encryptOutgoing {ks : List κ} {r r' : RecordLayer κ} (h : Distinct ks r) {m : PlainMessage}
    {em : OpaqueMessage} (he : r.encryptOutgoing A m = ok (em, r')) : Distinct ks r' := by
  obtain ⟨hlt, hem, rfl⟩ := encryptOutgoing_eq_ok he
  cases hmc : r.messageEncrypter with
  | invalid => simp [hmc, MessageEncrypter.encrypt] at hem
  | tls13 k iv =>
    obtain ⟨hk, hpresent⟩ := h.present k iv hmc
    have hsucc : r.writeSeq < r.writeSeq + 1 := by
      rw [UInt64.lt_iff_toNat_lt, toNat_succ hlt]
      exact Nat.lt_succ_self _
    have hnew : (k, nonce iv r.writeSeq) ∉ r.sealed := by
      intro hmem
      obtain ⟨seq, hseq, heq⟩ := hpresent _ hmem rfl
      rw [nonce_injective iv heq] at hseq
      exact UInt64.lt_irrefl _ hseq
    refine ⟨?_, ?_, ?_⟩
    · exact List.nodup_append.mpr ⟨h.nodup, List.nodup_singleton _, fun a ha b hb hab =>
        hnew (List.mem_singleton.mp hb ▸ hab ▸ ha)⟩
    · intro x hx
      obtain hx | hx := List.mem_append.mp hx
      · exact h.known x hx
      · rw [List.mem_singleton.mp hx]
        exact hk
    · intro k' iv' hmc'
      obtain ⟨rfl, rfl⟩ := MessageEncrypter.tls13.inj hmc'
      refine ⟨hk, fun x hx hxk => ?_⟩
      obtain hx | hx := List.mem_append.mp hx
      · obtain ⟨seq, hseq, heq⟩ := hpresent x hx hxk
        exact ⟨seq, UInt64.lt_trans hseq hsucc, heq⟩
      · exact ⟨r.writeSeq, hsucc, by rw [List.mem_singleton.mp hx]⟩

/-- A new key has not been used. -/
theorem Distinct.setMessageEncrypter {ks : List κ} {r : RecordLayer κ} (h : Distinct ks r) {k : κ} (hk : k ∉ ks)
    (iv : Iv) : Distinct (ks ++ [k]) (r.setMessageEncrypter (.tls13 k iv)) where
  nodup := h.nodup
  known x hx := List.mem_append_left _ (h.known x hx)
  present k' iv' heq := by
    obtain ⟨rfl, rfl⟩ := MessageEncrypter.tls13.inj heq
    exact ⟨List.mem_append_right _ (List.mem_singleton_self k), fun x hx hxk => absurd (h.known x hx) (hxk ▸ hk)⟩

/-- **No nonce is used twice under one key**, in any order of sends, alerts, key updates and writes to the socket. -/
theorem sealed_nodup (A : Aead κ) (side : Side) (ops : List (SendOp κ × ℕ)) (hkeys : (installed ops).Nodup)
    {s : CommonState κ} (h : exec (sendStep A) (.new side) ops = some s) : s.recordLayer.sealed.Nodup := by
  have hrun := sends_invariant (I := fun ks r => ks.Nodup → Distinct ks r) [] ?_ ?_ (fun _ => distinct_new) h
  · exact (hrun hkeys).nodup
  · rintro ks r r' hr - ⟨m, em, he⟩ hks
    exact (hr hks).encryptOutgoing he
  · intro ks r r' k iv hr hseals hks
    obtain ⟨hks, -, hk⟩ := List.nodup_append.mp hks
    have hk : k ∉ ks := fun hmem => hk k hmem k (List.mem_singleton_self k) rfl
    cases hseals with
    | refl => exact (hr hks).setMessageEncrypter hk iv
    | single hseal =>
      obtain ⟨m, em, he⟩ := hseal
      exact ((hr hks).encryptOutgoing he).setMessageEncrypter hk iv

/-- Data, a key update and data under the new key. -/
theorem sealed_nodup_update : ∃ s, exec (sendStep Aead.masking) (.new .client)
    [(.setEncrypter 7 ⟨List.replicate 12 1, rfl⟩, 0), (.startTraffic, 1), (.write [1, 2], 1),
      (.keyUpdate 9 ⟨List.replicate 12 2, rfl⟩, 0), (.write [3], 1), (.closeNotify, 1)] = some s ∧
    s.recordLayer.sealed.Nodup :=
  ⟨_, rfl, sealed_nodup Aead.masking .client
    [(.setEncrypter 7 ⟨List.replicate 12 1, rfl⟩, 0), (.startTraffic, 1), (.write [1, 2], 1),
      (.keyUpdate 9 ⟨List.replicate 12 2, rfl⟩, 0), (.write [3], 1), (.closeNotify, 1)] (by decide) rfl⟩

/-! ## The last numbers -/

/-- Records can be sealed, and the numbers have not gone past the limit. -/
structure Ready (r : RecordLayer κ) : Prop where
  active : r.encryptState = .active
  key : ∃ k iv, r.messageEncrypter = .tls13 k iv
  le : r.writeSeq ≤ seqSoftLimit

/-- Nothing was sealed yet, or records can be. -/
def Started (r : RecordLayer κ) : Prop := r.messageEncrypter = .invalid ∧ r.writeSeq = 0 ∨ Ready r

/-- Below the limit a fragment is sealed and queued. -/
theorem sendSingleFragment_of_lt {s : CommonState κ} (hlt : s.recordLayer.writeSeq < seqSoftLimit) (stack : ℕ)
    (m : PlainMessage) :
    CommonState.sendSingleFragment A (stack + 1) s m = s.recordLayer.encryptOutgoing A m >>= fun p =>
      ok ({ s with recordLayer := p.2 }.queueTlsMessage p.1) := by
  have hwants : s.recordLayer.wantsCloseBeforeEncrypt = false := by
    rw [RecordLayer.wantsCloseBeforeEncrypt, beq_eq_false_iff_ne]
    exact UInt64.ne_of_lt hlt
  have hex : s.recordLayer.encryptExhausted = false := by
    rw [RecordLayer.encryptExhausted, decide_eq_false_iff_not, UInt64.not_le]
    exact UInt64.lt_trans hlt (by decide)
  rw [CommonState.sendSingleFragment, CommonState.sendWarningBefore, hwants]
  simp only [Bool.false_eq_true, if_false, ok_bind, hex]

/-- Sealing a record below the limit keeps the layer ready. -/
theorem Ready.encryptOutgoing {r : RecordLayer κ} (h : Ready r) (hlt : r.writeSeq < seqSoftLimit) {m : PlainMessage}
    {em : OpaqueMessage} {r' : RecordLayer κ} (he : r.encryptOutgoing A m = ok (em, r')) :
    Ready r' ∧ r'.writeSeq.toNat = r.writeSeq.toNat + 1 := by
  obtain ⟨hhard, -, rfl⟩ := encryptOutgoing_eq_ok he
  refine ⟨⟨h.active, h.key, ?_⟩, toNat_succ hhard⟩
  rw [UInt64.le_iff_toNat_le, toNat_succ hhard]
  exact UInt64.lt_iff_toNat_lt.mp hlt

/-- Where a record may be sealed, one that is sealed keeps the numbers within the limit. -/
theorem Started.encryptOutgoing {r r' : RecordLayer κ} (h : Started r) (hopen : Open r) (hseals : Seals A r r') :
    Started r' := by
  obtain ⟨m, em, he⟩ := hseals
  obtain ⟨hinvalid, -⟩ | hready := h
  · obtain ⟨-, hem, -⟩ := encryptOutgoing_eq_ok he
    rw [hinvalid] at hem
    cases hem
  · have hne : r.writeSeq ≠ seqSoftLimit := hopen.resolve_right fun hstate => hstate hready.active
    have hlt : r.writeSeq < seqSoftLimit := UInt64.lt_of_le_of_ne hready.le hne
    exact .inr (hready.encryptOutgoing hlt he).1

/-- **No number passes the soft limit**, in any order of sends, alerts, key updates and writes to the socket. -/
theorem writeSeq_le (A : Aead κ) (side : Side) (ops : List (SendOp κ × ℕ)) {s : CommonState κ}
    (h : exec (sendStep A) (.new side) ops = some s) : s.recordLayer.writeSeq ≤ seqSoftLimit := by
  have hrun := sends_invariant (I := fun _ r => Started r) [] ?_ ?_ (.inl ⟨rfl, rfl⟩) h
  · obtain ⟨-, hzero⟩ | hready := hrun
    · rw [hzero]
      decide
    · exact hready.le
  · exact fun ks r r' => Started.encryptOutgoing
  · exact fun ks r r' k iv _ _ => .inr ⟨rfl, ⟨k, iv, rfl⟩, UInt64.zero_le⟩

/-- The theorem on data and the end of it. -/
theorem writeSeq_le_close : ∃ s, exec (sendStep Aead.masking) (.new .server)
    [(.setEncrypter 7 ⟨List.replicate 12 1, rfl⟩, 0), (.startTraffic, 1), (.write [1, 2], 1), (.closeNotify, 1)] = some s ∧
    s.recordLayer.writeSeq ≤ seqSoftLimit :=
  ⟨_, rfl, writeSeq_le Aead.masking .server
    [(.setEncrypter 7 ⟨List.replicate 12 1, rfl⟩, 0), (.startTraffic, 1), (.write [1, 2], 1), (.closeNotify, 1)] rfl⟩

/-- A ready layer seals a fragment. -/
theorem Ready.exists_encryptOutgoing (hA : A.Lawful) {r : RecordLayer κ} (h : Ready r) {m : PlainMessage}
    (hle : m.payload.length ≤ maxFragmentLen) : ∃ em r', r.encryptOutgoing A m = ok (em, r') := by
  obtain ⟨k, iv, hk⟩ := h.key
  obtain ⟨c, hc, -⟩ := encrypt_tls13 hA k iv hle r.writeSeq
  have hex : r.encryptExhausted = false := by
    rw [RecordLayer.encryptExhausted, decide_eq_false_iff_not, UInt64.not_le]
    exact UInt64.lt_of_le_of_lt h.le (by decide)
  have hem : r.messageEncrypter.encrypt A m r.writeSeq = .ok ⟨.applicationData, .tlsV1_2, c⟩ := by rwa [hk]
  exact ⟨_, _, by simp only [RecordLayer.encryptOutgoing, hex, Bool.false_eq_true, if_false, hem]; rfl⟩

/-- **Fragments are sent if and only if they stay below the soft limit.** -/
theorem foldlM_returns_iff (hA : A.Lawful) (stack : ℕ) {ms : List PlainMessage}
    (hms : ∀ m ∈ ms, m.payload.length ≤ maxFragmentLen) {s : CommonState κ} (h : Ready s.recordLayer) :
    (∃ s', ms.foldlM (CommonState.sendSingleFragment A (stack + 1)) s = ok s') ↔
      s.recordLayer.writeSeq.toNat + ms.length ≤ seqSoftLimit.toNat := by
  induction ms generalizing s with
  | nil => exact ⟨fun _ => UInt64.le_iff_toNat_le.mp h.le, fun _ => ⟨s, rfl⟩⟩
  | cons m ms ih =>
    rw [List.foldlM_cons, List.length_cons]
    obtain heq | hlt := UInt64.le_iff_lt_or_eq.mp h.le |>.symm
    · rw [sendSingleFragment_of_soft heq h.active, heq]
      constructor
      · rintro ⟨s', h⟩
        cases h
      · intro h
        omega
    · obtain ⟨em, r', he⟩ := h.exists_encryptOutgoing hA (hms m List.mem_cons_self)
      obtain ⟨hr', hsucc⟩ := h.encryptOutgoing hlt he
      rw [sendSingleFragment_of_lt hlt, he]
      simp only [ok_bind]
      have hrest := ih (fun m hm => hms m (List.mem_cons_of_mem _ hm))
        (s := { s with recordLayer := r' }.queueTlsMessage em) hr'
      refine hrest.trans ?_
      show r'.writeSeq.toNat + ms.length ≤ _ ↔ _
      rw [hsucc]
      omega

/-- **When data can be sent**: if and only if its fragments stay below the soft limit. -/
theorem sendSomePlaintext_returns_iff (hA : A.Lawful) (stack : ℕ) {s : CommonState κ} (h : Ready s.recordLayer)
    (hmay : s.maySendApplicationData = true) (data : List UInt8) :
    (∃ p, s.sendSomePlaintext A (stack + 1) data = ok p) ↔
      s.recordLayer.writeSeq.toNat + (s.messageFragmenter.fragmentSlice .applicationData .tlsV1_2
        (data.take (s.perhapsWriteKeyUpdate.sendableTls.applyLimit data.length))).length ≤ seqSoftLimit.toNat := by
  obtain ⟨hlayer, hfragmenter, hmay'⟩ : s.perhapsWriteKeyUpdate.recordLayer = s.recordLayer ∧
      s.perhapsWriteKeyUpdate.messageFragmenter = s.messageFragmenter ∧
      s.perhapsWriteKeyUpdate.maySendApplicationData = s.maySendApplicationData := by
    rw [CommonState.perhapsWriteKeyUpdate]
    split <;> exact ⟨rfl, rfl, rfl⟩
  rw [CommonState.sendSomePlaintext, CommonState.sendPlain, hmay', hmay]
  by_cases hdata : data = []
  · subst hdata
    simp only [Bool.not_true, Bool.false_eq_true, if_false, if_true, List.take_nil]
    exact ⟨fun _ => UInt64.le_iff_toNat_le.mp h.le, fun _ => ⟨_, rfl⟩⟩
  · simp only [Bool.not_true, Bool.false_eq_true, if_false, hdata]
    rw [← hlayer, ← hfragmenter]
    refine Iff.trans ?_ (foldlM_returns_iff hA stack
      (fun m hm => (MessageFragmenter.of_mem_fragmentSlice hm).2.2.2) (hlayer ▸ h))
    constructor
    · rintro ⟨p, hp⟩
      obtain ⟨t, ht, -⟩ := bind_eq_ok.mp hp
      exact ⟨t, ht⟩
    · rintro ⟨t, ht⟩
      exact ⟨_, bind_eq_ok.mpr ⟨t, ht, rfl⟩⟩

/-- A client that has its first key. -/
def firstTraffic : CommonState UInt8 :=
  { CommonState.new (κ := UInt8) .client with
    recordLayer := RecordLayer.new.setMessageEncrypter (.tls13 7 ⟨List.replicate 12 1, rfl⟩)
    maySendApplicationData := true }

/-- Under the first key, data is sent. -/
theorem sendSomePlaintext_returns_first :
    ∃ p, firstTraffic.sendSomePlaintext Aead.masking 1 [1, 2] = ok p :=
  (sendSomePlaintext_returns_iff (s := firstTraffic) Aead.masking_lawful 0 ⟨rfl, ⟨7, _, rfl⟩, by decide⟩ rfl
    [1, 2]).mpr (by decide)

end RXCore.Rustls
