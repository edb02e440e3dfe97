import RXCore.Lib.Framing
import RXCore.Rustls.Deframer

/-!
# What the deframer is for

The buffer of the deframer stands for two lists of bytes: those of a handshake message that is being joined, and those
that no record has been taken off yet. On these it is a decoder of a stream.

* `Joined`, `Framer`, `Framer.next`, and **`framer`**: the decoder;
* `Holds`: a buffer that stands for the two lists;
* `holds_discard`, `holds_appendHs`, `holds_popYield`: what the parts of `pop` do to them;
* **`pop_refines`**: `pop` on the buffer is one attempt of the decoder, without an access outside of the buffer.
-/

set_option autoImplicit false

namespace RXCore.Rustls

open Cursor Cursor.Walk Framing

variable {κ : Type} (A : Aead κ)

/-- A handshake message of which a part is there, or several of them. -/
structure Joined where
  version : ProtocolVersion
  payload : List UInt8
deriving DecidableEq

namespace Joined

/-- The length of the first message, if all of it is there. -/
def completeLen (j : Joined) : Option ℕ :=
  match payloadSize j.payload with
  | .ok (some len) => if len ≤ j.payload.length then some len else none
  | _ => none

/-- A message that is there has a header. -/
theorem completeLen_spec {j : Joined} {len : ℕ} (h : j.completeLen = some len) :
    0 < len ∧ len ≤ j.payload.length := by
  rw [completeLen] at h
  split at h
  next len' hp =>
    split_ifs at h with hle
    obtain rfl := Option.some.inj h
    refine ⟨?_, hle⟩
    rw [payloadSize.eq_def] at hp
    split at hp
    · simp only at hp
      split_ifs at hp
      obtain rfl := Option.some.inj (Except.ok.inj hp)
      rw [hsHeaderSize]
      omega
    · cases hp
  next => cases h

/-- The first message, and what is left. -/
def yield (j : Joined) (len : ℕ) : Except Error (Deframed × Option Joined) :=
  let message : PlainMessage := ⟨.handshake, j.version, j.payload.take len⟩
  if len < j.payload.length then do
    let _ ← payloadSize (j.payload.drop len)
    return (⟨false, false, true, message⟩, some ⟨j.version, j.payload.drop len⟩)
  else .ok (⟨false, true, true, message⟩, none)

/-- The payload of a record is appended. -/
def append (j : Option Joined) (msg : PlainMessage) : Joined :=
  match j with
  | some j => { j with payload := j.payload ++ msg.payload }
  | none => ⟨msg.version, msg.payload⟩

end Joined

/-- The state of the decoder. -/
structure Framer (κ : Type) where
  joined : Option Joined
  layer : RecordLayer κ

/-- What becomes of a record. -/
inductive Taken where
  | emit (o : Deframed)
  | refuse (e : Error)
  | skip
  | join (j : Joined)

namespace Framer

def held (s : Framer κ) : ℕ := (s.joined.map fun j => j.payload.length).getD 0

/-- What becomes of a decrypted record. -/
def takeDecrypted (joined : Option Joined) : Option Decrypted → Taken
  | none =>
    if joined.isSome then .refuse (.peerMisbehaved .rejectedEarlyDataInterleavedWithHandshakeMessage) else .skip
  | some decrypted =>
    let msg := decrypted.plaintext
    if joined.isSome ∧ msg.typ ≠ .handshake then
      .refuse (.peerMisbehaved .messageInterleavedWithHandshakeMessage)
    else if msg.typ ≠ .handshake then .emit (MessageDeframer.plain msg)
    else match payloadSize (Joined.append joined msg).payload with
      | .error e => .refuse e
      | .ok _ => .join (Joined.append joined msg)

/-- What becomes of a record, and the record layer after it. -/
def take (v : Option ProtocolVersion) (s : Framer κ) (m : OpaqueMessage) : Taken × RecordLayer κ :=
  if s.joined.isNone ∧ MessageDeframer.allowedPlaintext v s.layer.hasDecrypted m then
    (.emit (MessageDeframer.plain m.intoPlainMessage), s.layer)
  else
    match s.layer.decryptIncoming A m with
    | (.error e, layer) => (.refuse e, layer)
    | (.ok decrypted, layer) => (takeDecrypted s.joined decrypted, layer)

/-- One attempt. -/
def next (v : Option ProtocolVersion) (s : Framer κ) (u : List UInt8) : Next (Framer κ) UInt8 Deframed Error :=
  match s.joined, s.joined.bind Joined.completeLen with
  | some j, some len =>
    match j.yield len with
    | .ok (o, joined) => .item o { s with joined := joined } u
    | .error e => .fail e s
  | _, _ =>
    match _h : OpaqueMessage.read u with
    | .error e =>
      match MessageDeframer.readErr e with
      | none => .more s u
      | some e => .fail e s
    | .ok (m, r) =>
      match take A v s m with
      | (.emit o, layer) => .item o { s with layer := layer } r
      | (.refuse e, layer) => .fail e { s with layer := layer }
      | (.skip, layer) => next v { s with layer := layer } r
      | (.join j, layer) => next v ⟨some j, layer⟩ r
termination_by u.length
decreasing_by
  all_goals
    have hu := (OpaqueMessage.read_eq_ok_iff.mp _h).2
    rw [hu, List.length_append, OpaqueMessage.encode_length, OpaqueMessage.headerSize]
    omega

variable {A} {v : Option ProtocolVersion}

section Attempts

variable {s : Framer κ} {u r : List UInt8} {m : OpaqueMessage} {layer : RecordLayer κ}

/-- An attempt with a whole message. -/
theorem next_of_complete {j : Joined} {len : ℕ} (hlen : j.completeLen = some len) :
    next A v ⟨some j, layer⟩ u = match j.yield len with
      | .ok (o, joined) => .item o ⟨joined, layer⟩ u
      | .error e => .fail e ⟨some j, layer⟩ := by
  rw [next]
  simp only [Option.bind_some, hlen]

theorem next_of_tooShort (h : s.joined.bind Joined.completeLen = none) {e : MessageError}
    (hr : OpaqueMessage.read u = .error e) (he : MessageDeframer.readErr e = none) : next A v s u = .more s u := by
  rw [next]
  split
  · simp_all
  · split <;> simp_all

theorem next_of_unreadable (h : s.joined.bind Joined.completeLen = none) {e : MessageError} {e' : Error}
    (hr : OpaqueMessage.read u = .error e) (he : MessageDeframer.readErr e = some e') :
    next A v s u = .fail e' s := by
  rw [next]
  split
  · simp_all
  · split <;> simp_all

theorem next_of_emit (h : s.joined.bind Joined.completeLen = none) (hr : OpaqueMessage.read u = .ok (m, r))
    {o : Deframed} (ht : take A v s m = (.emit o, layer)) : next A v s u = .item o { s with layer := layer } r := by
  rw [next]
  split
  · simp_all
  · split <;> simp_all

theorem next_of_refuse (h : s.joined.bind Joined.completeLen = none) (hr : OpaqueMessage.read u = .ok (m, r))
    {e : Error} (ht : take A v s m = (.refuse e, layer)) : next A v s u = .fail e { s with layer := layer } := by
  rw [next]
  split
  · simp_all
  · split <;> simp_all

theorem next_of_skip (h : s.joined.bind Joined.completeLen = none) (hr : OpaqueMessage.read u = .ok (m, r))
    (ht : take A v s m = (.skip, layer)) : next A v s u = next A v { s with layer := layer } r := by
  rw [next]
  split
  · simp_all
  · split <;> simp_all

theorem next_of_join (h : s.joined.bind Joined.completeLen = none) (hr : OpaqueMessage.read u = .ok (m, r))
    {j : Joined} (ht : take A v s m = (.join j, layer)) : next A v s u = next A v ⟨some j, layer⟩ r := by
  rw [next]
  split
  · simp_all
  · split <;> simp_all

end Attempts

theorem readErr_eq_none {e : MessageError} : MessageDeframer.readErr e = none ↔ e.tooShort = true := by
  cases e <;> simp [MessageDeframer.readErr, MessageError.tooShort]

theorem length_lt_of_read {u r : List UInt8} {m : OpaqueMessage} (h : OpaqueMessage.read u = .ok (m, r)) :
    r.length + m.payload.length < u.length := by
  rw [(OpaqueMessage.read_eq_ok_iff.mp h).2, List.length_append, OpaqueMessage.encode_length, OpaqueMessage.headerSize]
  omega

/-- **It does not matter when an attempt is made.** -/
theorem next_append (s : Framer κ) (u w : List UInt8) :
    next A v s (u ++ w) = (next A v s u).extend (next A v) w := by
  induction hn : u.length using Nat.strong_induction_on generalizing s u with
  | _ n ih =>
    cases hc : s.joined.bind Joined.completeLen with
    | some len =>
      obtain ⟨j, hj, hlen⟩ := Option.bind_eq_some_iff.mp hc
      obtain ⟨joined, layer⟩ := s
      obtain rfl : joined = some j := hj
      rw [next_of_complete hlen, next_of_complete hlen]
      cases j.yield len <;> rfl
    | none =>
      cases hr : OpaqueMessage.read u with
      | error e =>
        cases he : MessageDeframer.readErr e with
        | none => rw [next_of_tooShort hc hr he, Next.extend]
        | some e' =>
          have hshort : e.tooShort = false := by
            rw [← Bool.not_eq_true, ← readErr_eq_none, he]
            simp
          rw [next_of_unreadable hc hr he, Next.extend]
          exact next_of_unreadable hc (OpaqueMessage.read_append_of_error hr hshort w) he
      | ok mr =>
        obtain ⟨m, r⟩ := mr
        have hr' := OpaqueMessage.read_append_of_ok hr w
        have hlt : r.length < n := by
          have := length_lt_of_read hr
          omega
        cases ht : take A v s m with
        | mk taken layer =>
          cases taken with
          | emit o => rw [next_of_emit hc hr ht, next_of_emit hc hr' ht, Next.extend]
          | refuse e => rw [next_of_refuse hc hr ht, next_of_refuse hc hr' ht, Next.extend]
          | skip => rw [next_of_skip hc hr ht, next_of_skip hc hr' ht, ih _ hlt _ r rfl]
          | join j => rw [next_of_join hc hr ht, next_of_join hc hr' ht, ih _ hlt _ r rfl]

section Records

variable {s : Framer κ} {m : OpaqueMessage} {layer : RecordLayer κ}

theorem take_of_plain (h : s.joined.isNone ∧ MessageDeframer.allowedPlaintext v s.layer.hasDecrypted m) :
    take A v s m = (.emit (MessageDeframer.plain m.intoPlainMessage), s.layer) := by
  rw [take, if_pos h]

theorem take_of_error (h : ¬ (s.joined.isNone ∧ MessageDeframer.allowedPlaintext v s.layer.hasDecrypted m))
    {e : Error} (hd : s.layer.decryptIncoming A m = (.error e, layer)) : take A v s m = (.refuse e, layer) := by
  rw [take, if_neg h, hd]

theorem take_of_ok (h : ¬ (s.joined.isNone ∧ MessageDeframer.allowedPlaintext v s.layer.hasDecrypted m))
    {d : Option Decrypted} (hd : s.layer.decryptIncoming A m = (.ok d, layer)) :
    take A v s m = (takeDecrypted s.joined d, layer) := by
  rw [take, if_neg h, hd]

end Records

theorem length_append_le (joined : Option Joined) (msg : PlainMessage) :
    (Joined.append joined msg).payload.length ≤
      (joined.map fun j => j.payload.length).getD 0 + msg.payload.length := by
  cases joined <;> simp [Joined.append]

/-- A record that is joined was one of a handshake. -/
theorem takeDecrypted_eq_join {joined : Option Joined} {d : Option Decrypted} {j : Joined}
    (h : takeDecrypted joined d = .join j) :
    ∃ d', d = some d' ∧ d'.plaintext.typ = .handshake ∧ j = Joined.append joined d'.plaintext ∧
      ∃ len, payloadSize j.payload = .ok len := by
  cases d with
  | none =>
    rw [takeDecrypted] at h
    split_ifs at h
  | some d =>
    simp only [takeDecrypted] at h
    split_ifs at h with h1 h2
    cases hp : payloadSize (Joined.append joined d.plaintext).payload with
    | error e => simp [hp] at h
    | ok len =>
      simp only [hp, Taken.join.injEq] at h
      subst h
      exact ⟨d, rfl, not_not.mp h2, rfl, len, hp⟩

/-- What a record adds to a handshake message is no longer than the record. -/
theorem held_of_join (hA : A.Lawful) {s : Framer κ} {m : OpaqueMessage} {j : Joined} {layer : RecordLayer κ}
    (h : take A v s m = (.join j, layer)) : j.payload.length ≤ s.held + m.payload.length := by
  by_cases hp : s.joined.isNone ∧ MessageDeframer.allowedPlaintext v s.layer.hasDecrypted m
  · simp [take_of_plain hp] at h
  · cases hd : s.layer.decryptIncoming A m with
    | mk decrypted layer' =>
      cases decrypted with
      | error e => simp [take_of_error hp hd] at h
      | ok decrypted =>
        rw [take_of_ok hp hd] at h
        obtain ⟨d, rfl, -, rfl, -⟩ := takeDecrypted_eq_join (Prod.mk.inj h).1
        have hlen := RecordLayer.length_of_decryptIncoming hA hd
        have hle := length_append_le s.joined d.plaintext
        rw [held]
        omega

/-- The first message is taken off. -/
theorem held_of_yield {j : Joined} {len : ℕ} (hlen : j.completeLen = some len) {o : Deframed}
    {joined : Option Joined} (h : j.yield len = .ok (o, joined)) :
    (joined.map fun j => j.payload.length).getD 0 < j.payload.length := by
  have hpos : 0 < len ∧ len ≤ j.payload.length := Joined.completeLen_spec hlen
  rw [Joined.yield] at h
  split_ifs at h with hlt
  · obtain ⟨x, -, h⟩ := bind_ok.mp h
    obtain ⟨-, rfl⟩ := Prod.mk.inj (Except.ok.inj h)
    simp only [Option.map_some, Option.getD_some, List.length_drop]
    omega
  · obtain ⟨-, rfl⟩ := Prod.mk.inj (Except.ok.inj h)
    simp only [Option.map_none, Option.getD_none]
    omega

/-- An item is taken off what is held and what has arrived. -/
theorem shrinks (hA : A.Lawful) {s s' : Framer κ} {u r : List UInt8} {o : Deframed}
    (h : next A v s u = .item o s' r) : s'.held + r.length < s.held + u.length := by
  induction hn : u.length using Nat.strong_induction_on generalizing s u with
  | _ n ih =>
    cases hc : s.joined.bind Joined.completeLen with
    | some len =>
      obtain ⟨j, hj, hlen⟩ := Option.bind_eq_some_iff.mp hc
      obtain ⟨joined, layer⟩ := s
      obtain rfl : joined = some j := hj
      rw [next_of_complete hlen] at h
      cases hy : j.yield len with
      | error e => simp [hy] at h
      | ok oj =>
        simp only [hy, Next.item.injEq] at h
        obtain ⟨rfl, rfl, rfl⟩ := h
        have := held_of_yield hlen hy
        simp only [held, Option.map_some, Option.getD_some]
        omega
    | none =>
      cases hr : OpaqueMessage.read u with
      | error e =>
        cases he : MessageDeframer.readErr e with
        | none => simp [next_of_tooShort hc hr he] at h
        | some e' => simp [next_of_unreadable hc hr he] at h
      | ok mr =>
        obtain ⟨m, u'⟩ := mr
        have hlt := length_lt_of_read hr
        cases ht : take A v s m with
        | mk taken layer =>
          cases taken with
          | emit o' =>
            rw [next_of_emit hc hr ht] at h
            obtain ⟨-, rfl, rfl⟩ := Next.item.inj h
            simp only [held]
            omega
          | refuse e => simp [next_of_refuse hc hr ht] at h
          | skip =>
            rw [next_of_skip hc hr ht] at h
            have := ih _ (by omega) h rfl
            simp only [held] at this ⊢
            omega
          | join j =>
            rw [next_of_join hc hr ht] at h
            have hheld := held_of_join hA ht
            have := ih _ (by omega) h rfl
            simp only [held, Option.map_some, Option.getD_some] at this hheld ⊢
            omega

variable (v) in
/-- **The decoder.** -/
def framer (hA : A.Lawful) : Decoder (Framer κ) UInt8 Deframed Error where
  next := next A v
  held := held
  shrinks := shrinks hA
  next_append := next_append

end Framer

/-! ## Parts of the buffer -/

section Buffer

theorem sliceRange_append (a b c : List UInt8) :
    sliceRange (a ++ (b ++ c)) a.length (a.length + b.length) = ok b := by
  rw [sliceRange_ok (Nat.le_add_right _ _) (by simp), List.drop_left, Nat.add_sub_cancel_left, List.take_left]

theorem copyInto_append (a b bs : List UInt8) (h : bs.length ≤ b.length) :
    copyInto (a ++ b) a.length bs = ok (a ++ (bs ++ b.drop bs.length)) := by
  rw [copyInto, if_pos (by rw [List.length_append]; omega), List.take_left, List.drop_length_add_append,
    List.append_assoc]

theorem payloadSize_append {p : List UInt8} {len : ℕ} (h : payloadSize p = .ok (some len)) (q : List UInt8) :
    payloadSize (p ++ q) = .ok (some len) := by
  rcases p with _ | ⟨t, _ | ⟨a, _ | ⟨b, _ | ⟨c, p⟩⟩⟩⟩
  iterate 4 cases h
  exact h

end Buffer

/-- A buffer that stands for a handshake message that is being joined and for what has no record taken off it yet. -/
inductive Holds : MessageDeframer → Option Joined → List UInt8 → Prop
  | idle (u slack : List UInt8) : Holds ⟨none, u ++ slack, none, u.length⟩ none u
  | joining (pre p gap u slack : List UInt8) (version : ProtocolVersion) (expectedLen : Option ℕ)
      (size : payloadSize p = .ok expectedLen) (pos : 0 < pre.length + p.length + gap.length) :
      Holds ⟨none, pre ++ (p ++ (gap ++ (u ++ slack))),
        some ⟨⟨0, pre.length + p.length + gap.length⟩, ⟨pre.length, pre.length + p.length⟩, version, expectedLen⟩,
        pre.length + p.length + gap.length + u.length⟩ (some ⟨version, p⟩) u

/-- Where the bytes start that have no record taken off them. -/
def MessageDeframer.base (d : MessageDeframer) : ℕ := (d.joiningHs.map fun joining => joining.message.stop).getD 0

namespace Holds

variable {d : MessageDeframer} {joined : Option Joined} {u c r : List UInt8}

theorem lastError (h : Holds d joined u) : d.lastError = none := by
  cases h <;> rfl

theorem used (h : Holds d joined u) : d.used = d.base + u.length := by
  cases h with
  | idle u slack => exact (Nat.zero_add _).symm
  | joining => rfl

theorem isSome (h : Holds d joined u) : d.joiningHs.isSome = joined.isSome := by
  cases h <;> rfl

theorem isNone (h : Holds d joined u) : d.joiningHs.isNone = joined.isNone := by
  cases h <;> rfl

theorem slice (h : Holds d joined u) : sliceRange d.buf d.base d.used = ok u := by
  cases h with
  | idle u slack => simpa [MessageDeframer.base] using sliceRange_append [] u slack
  | joining pre p gap u slack version expectedLen size pos =>
    simpa [MessageDeframer.base, Nat.add_assoc] using sliceRange_append (pre ++ (p ++ gap)) u slack

end Holds

/-- What is in front of `r` is dropped. -/
theorem discard_append {d : MessageDeframer} (c r slack : List UInt8) (hbuf : d.buf = c ++ (r ++ slack))
    (hused : d.used = c.length + r.length) :
    ∃ slack', d.discard c.length = ok { d with buf := r ++ slack', used := r.length } := by
  obtain rfl | hr := eq_or_ne r []
  · refine ⟨d.buf, ?_⟩
    rw [MessageDeframer.discard, if_neg (by rw [hused, List.length_nil]; omega), if_pos (by rw [hused]; rfl)]
    rfl
  · have hpos := List.length_pos_of_ne_nil hr
    have hslice : sliceRange d.buf c.length d.used = ok r := by
      rw [hbuf, hused, sliceRange_append]
    have hcopy := copyInto_append [] d.buf r (by rw [hbuf, List.length_append, List.length_append]; omega)
    refine ⟨d.buf.drop r.length, ?_⟩
    rw [MessageDeframer.discard, if_pos (by omega), hslice]
    simp only [ok_bind]
    rw [show copyInto d.buf 0 r = _ from hcopy, hused, Nat.add_sub_cancel_left]
    rfl

/-- What comes after a record whose payload was joined. -/
def hsStateOf (j : Joined) (r : List UInt8) : HandshakePayloadState :=
  match j.completeLen with
  | some len => .complete len
  | none => if r = [] then .blocked else .continue

/-- The state that is told from the offsets is the one of the lists. -/
theorem hsState_eq {d : MessageDeframer} {joining : HandshakePayloadMeta} {j : Joined} {r : List UInt8}
    (hsize : payloadSize j.payload = .ok joining.expectedLen) (hlen : joining.payload.len = j.payload.length)
    (hused : d.used = joining.message.stop + r.length) : d.hsState joining = hsStateOf j r := by
  have hstop : joining.message.stop < d.used ↔ r ≠ [] := by
    rw [← List.length_pos_iff, hused]
    omega
  rw [MessageDeframer.hsState, hsStateOf, Joined.completeLen, hsize]
  cases joining.expectedLen with
  | none => by_cases hr : r = [] <;> simp [hstop, hr]
  | some len =>
    by_cases hle : len ≤ j.payload.length
    · simp [hlen, hle]
    · by_cases hr : r = [] <;> simp [hlen, hle, hstop, hr]

/-- **The payload of a record is joined.** -/
theorem holds_appendHs {d : MessageDeframer} {joined : Option Joined} {c r : List UInt8}
    (h : Holds d joined (c ++ r)) {msg : PlainMessage} (hc : 0 < c.length) (hle : msg.payload.length ≤ c.length) :
    match payloadSize (Joined.append joined msg).payload with
    | .error e => ∃ d', d.appendHs msg.version msg.payload (d.base + c.length) = ok (.error e, d')
    | .ok _ => ∃ d', d.appendHs msg.version msg.payload (d.base + c.length) =
        ok (.ok (hsStateOf (Joined.append joined msg) r), d') ∧ Holds d' (some (Joined.append joined msg)) r := by
  generalize hu : c ++ r = u at h
  cases h with
  | idle u slack =>
    subst hu
    have hcopy := copyInto_append [] (c ++ r ++ slack) msg.payload (by simp; omega)
    have hdrop : (c ++ r ++ slack).drop msg.payload.length = c.drop msg.payload.length ++ (r ++ slack) := by
      rw [List.append_assoc, List.drop_append_of_le_length hle]
    cases hp : payloadSize msg.payload with
    | error e =>
      simp only [Joined.append, hp]
      exact ⟨_, by simp [MessageDeframer.appendHs, hp]; rfl⟩
    | ok expectedLen =>
      simp only [Joined.append, hp]
      have hsum : ([] : List UInt8).length + msg.payload.length + (c.drop msg.payload.length).length = c.length := by
        rw [List.length_drop, List.length_nil]
        omega
      have hj := Holds.joining [] msg.payload (c.drop msg.payload.length) r slack msg.version expectedLen hp
        (by rw [hsum]; exact hc)
      rw [hsum, List.length_nil, Nat.zero_add] at hj
      refine ⟨_, ?_, hj⟩
      rw [List.length_nil, List.nil_append, List.nil_append, hdrop] at hcopy
      simp only [MessageDeframer.appendHs, hp, hcopy, ok_bind, MessageDeframer.base, Option.map_none,
        Option.getD_none, Nat.zero_add, List.length_append]
      rw [hsState_eq (j := ⟨msg.version, msg.payload⟩) (r := r) hp rfl (by simp)]
      rfl
  | joining pre p gap u slack version expectedLen size pos =>
    subst hu
    have hcopy := copyInto_append (pre ++ p) (gap ++ (c ++ r ++ slack)) msg.payload (by simp; omega)
    have hdrop : (gap ++ (c ++ r ++ slack)).drop msg.payload.length =
        (gap ++ c).drop msg.payload.length ++ (r ++ slack) := by
      rw [← List.drop_append_of_le_length (by rw [List.length_append]; omega)]
      simp only [List.append_assoc]
    have hsum : pre.length + (p ++ msg.payload).length + ((gap ++ c).drop msg.payload.length).length =
        pre.length + p.length + gap.length + c.length := by
      rw [List.length_drop, List.length_append, List.length_append]
      omega
    have hslice := sliceRange_append pre (p ++ msg.payload) ((gap ++ c).drop msg.payload.length ++ (r ++ slack))
    rw [hdrop, List.append_assoc, List.append_assoc, List.length_append] at hcopy
    rw [List.append_assoc, List.length_append, ← Nat.add_assoc] at hslice
    have hused : pre.length + p.length + gap.length + (c ++ r).length =
        pre.length + p.length + gap.length + c.length + r.length := by
      rw [List.length_append, ← Nat.add_assoc]
    have hlen : (p ++ msg.payload).length = p.length + msg.payload.length := List.length_append
    have hpayload : (⟨pre.length, pre.length + p.length + msg.payload.length⟩ : Range).len =
        (p ++ msg.payload).length := by
      show pre.length + p.length + msg.payload.length - pre.length = _
      rw [hlen]
      omega
    cases hp : payloadSize (p ++ msg.payload) with
    | error e =>
      simp only [Joined.append, hp]
      cases expectedLen with
      | some len => exact absurd (hp.symm.trans (payloadSize_append size msg.payload)) (by simp)
      | none =>
        exact ⟨_, by simp only [MessageDeframer.appendHs, List.append_assoc, hcopy, hslice, hp, ok_bind]; rfl⟩
    | ok expectedLen' =>
      simp only [Joined.append, hp]
      have hj := Holds.joining pre (p ++ msg.payload) ((gap ++ c).drop msg.payload.length) r slack version expectedLen'
        hp (by rw [hsum]; omega)
      rw [hsum, hlen, ← Nat.add_assoc pre.length p.length, List.append_assoc p] at hj
      refine ⟨_, ?_, hj⟩
      cases expectedLen with
      | some len =>
        obtain rfl := Except.ok.inj (hp.symm.trans (payloadSize_append size msg.payload))
        simp only [MessageDeframer.appendHs, List.append_assoc, hcopy, ok_bind, MessageDeframer.base, Option.map_some,
          Option.getD_some]
        rw [hsState_eq (j := ⟨version, p ++ msg.payload⟩) (r := r) hp hpayload hused, hused]
        rfl
      | none =>
        simp only [MessageDeframer.appendHs, List.append_assoc, hcopy, hslice, hp, ok_bind, MessageDeframer.base,
          Option.map_some, Option.getD_some]
        rw [hsState_eq (j := ⟨version, p ++ msg.payload⟩) (r := r) hp hpayload hused, hused]
        rfl

/-- **A whole message is taken off.** -/
theorem holds_popYield {d : MessageDeframer} {j : Joined} {u : List UInt8} (h : Holds d (some j) u) {len : ℕ}
    (hlen : j.completeLen = some len) :
    match j.yield len with
    | .ok (o, joined) => ∃ d', d.popYield len = ok (.ok (some o), d') ∧ Holds d' joined u
    | .error e => ∃ d', d.popYield len = ok (.error e, d') := by
  obtain ⟨-, hle⟩ := Joined.completeLen_spec hlen
  generalize hj : some j = joined at h
  cases h with
  | idle => cases hj
  | joining pre p gap u slack version expectedLen size pos =>
    obtain rfl := Option.some.inj hj
    have hpayload : (⟨pre.length, pre.length + p.length⟩ : Range).len = p.length := by
      show pre.length + p.length - pre.length = p.length
      omega
    have htake : (p.take len).length = len := by rw [List.length_take, min_eq_left hle]
    have hdrop : (p.drop len).length = p.length - len := List.length_drop
    have hfirst : sliceRange (pre ++ (p ++ (gap ++ (u ++ slack)))) pre.length (pre.length + len) = ok (p.take len) := by
      have hs := sliceRange_append pre (p.take len) (p.drop len ++ (gap ++ (u ++ slack)))
      rwa [htake, ← List.append_assoc (p.take len), List.take_append_drop] at hs
    by_cases hlt : len < p.length
    · have hrest : sliceRange (pre ++ (p ++ (gap ++ (u ++ slack)))) (pre.length + len) (pre.length + p.length) =
          ok (p.drop len) := by
        have hs := sliceRange_append (pre ++ p.take len) (p.drop len) (gap ++ (u ++ slack))
        rw [List.length_append, htake, hdrop, List.append_assoc, ← List.append_assoc (p.take len),
          List.take_append_drop] at hs
        rwa [show pre.length + len + (p.length - len) = pre.length + p.length by omega] at hs
      cases hp : payloadSize (p.drop len) with
      | error e =>
        have hy : (⟨version, p⟩ : Joined).yield len = .error e := by
          simp only [Joined.yield, hlt, if_true, hp]
          rfl
        rw [hy]
        exact ⟨_, by simp only [MessageDeframer.popYield, hfirst, ok_bind, hpayload, hlt, if_true, hrest, hp]; rfl⟩
      | ok l =>
        have hy : (⟨version, p⟩ : Joined).yield len =
            .ok (⟨false, false, true, ⟨.handshake, version, p.take len⟩⟩, some ⟨version, p.drop len⟩) := by
          simp only [Joined.yield, hlt, if_true, hp]
          rfl
        rw [hy]
        have hsum : (pre ++ p.take len).length + (p.drop len).length = pre.length + p.length := by
          rw [List.length_append, htake, hdrop]
          omega
        have hj := Holds.joining (pre ++ p.take len) (p.drop len) gap u slack version l hp (by rw [hsum]; exact pos)
        rw [hsum, List.length_append, htake, List.append_assoc, ← List.append_assoc (p.take len),
          List.take_append_drop] at hj
        refine ⟨_, ?_, hj⟩
        simp only [MessageDeframer.popYield, hfirst, ok_bind, hpayload, hlt, if_true, hrest, hp]
        rfl
    · have hy : (⟨version, p⟩ : Joined).yield len =
          .ok (⟨false, true, true, ⟨.handshake, version, p.take len⟩⟩, none) := by
        simp only [Joined.yield, hlt, if_false]
      rw [hy]
      have hlength : (pre ++ (p ++ gap)).length = pre.length + p.length + gap.length := by
        rw [List.length_append, List.length_append, Nat.add_assoc]
      obtain ⟨slack', hd⟩ := discard_append (pre ++ (p ++ gap)) u slack
        (d := ⟨none, pre ++ (p ++ (gap ++ (u ++ slack))), none, pre.length + p.length + gap.length + u.length⟩)
        (by simp only [List.append_assoc]) (by rw [hlength])
      rw [hlength] at hd
      refine ⟨_, ?_, Holds.idle u slack'⟩
      simp only [MessageDeframer.popYield, hfirst, ok_bind, hpayload, hlt, if_false, hd]
      rfl

/-! ## The refinement -/

/-- What `pop` returns is what the attempt comes to. -/
def Matches (out : Walk (Except Error (Option Deframed) × MessageDeframer × RecordLayer κ)) :
    Next (Framer κ) UInt8 Deframed Error → Prop
  | .more s r => ∃ d, out = ok (.ok none, d, s.layer) ∧ Holds d s.joined r
  | .item o s r => ∃ d, out = ok (.ok (some o), d, s.layer) ∧ Holds d s.joined r
  | .fail e s => ∃ d, out = ok (.error e, d, s.layer)

section Refinement

variable {A} {v : Option ProtocolVersion} {d : MessageDeframer} {s : Framer κ} {u r : List UInt8}

/-- With a whole message the loop breaks. -/
theorem popTurn_of_complete (h : Holds d s.joined u) {j : Joined} (hj : s.joined = some j) {len : ℕ}
    (hlen : j.completeLen = some len) : d.popTurn A v s.layer = ok (.brk len, d, s.layer) := by
  generalize hjo : s.joined = joined at h
  cases h with
  | idle => cases hjo.symm.trans hj
  | joining pre p gap u slack version expectedLen size pos =>
    obtain rfl := Option.some.inj (hjo.symm.trans hj)
    rw [Joined.completeLen, size] at hlen
    cases expectedLen with
    | none => cases hlen
    | some l =>
      simp only at hlen
      split_ifs at hlen with hle
      obtain rfl := Option.some.inj hlen
      have hpayload : l ≤ (⟨pre.length, pre.length + p.length⟩ : Range).len := by
        show l ≤ pre.length + p.length - pre.length
        omega
      simp only [MessageDeframer.popTurn, hpayload, if_true]

/-- Without one, a record is read. -/
theorem popTurn_of_incomplete (h : Holds d s.joined u) (hc : s.joined.bind Joined.completeLen = none) :
    d.popTurn A v s.layer = d.popRecord A v s.layer d.base := by
  generalize hjo : s.joined = joined at h hc
  cases h with
  | idle => rfl
  | joining pre p gap u slack version expectedLen size pos =>
    rw [Option.bind_some, Joined.completeLen, size] at hc
    cases expectedLen with
    | none => rfl
    | some l =>
      simp only at hc
      split_ifs at hc with hle
      have hpayload : ¬ l ≤ (⟨pre.length, pre.length + p.length⟩ : Range).len := by
        show ¬ l ≤ pre.length + p.length - pre.length
        omega
      simp only [MessageDeframer.popTurn, hpayload, if_false]
      rfl

/-- The turn that ends with a record. -/
def Taken.turn (r : List UInt8) : Taken → MessageDeframer.Turn
  | emit o => .ret (.ok (some o))
  | refuse e => .ret (.error e)
  | skip => .again
  | join j => match hsStateOf j r with
    | .blocked => .ret (.ok none)
    | .complete len => .brk len
    | .continue => .again

/-- What is joined after a record. -/
def Taken.joined (joined : Option Joined) : Taken → Option Joined
  | join j => some j
  | _ => joined

/-- A record in front, with no message being joined, is dropped. -/
theorem Holds.discard {c : List UInt8} (h : Holds d none (c ++ r)) :
    ∃ d', d.discard (d.base + c.length) = ok d' ∧ Holds d' none r := by
  generalize hu : c ++ r = u at h
  cases h with
  | idle u slack =>
    subst hu
    obtain ⟨slack', hd⟩ := discard_append (d := ⟨none, c ++ r ++ slack, none, (c ++ r).length⟩) c r slack
      (by simp only [List.append_assoc]) (by rw [List.length_append])
    refine ⟨_, ?_, Holds.idle r slack'⟩
    simp only [MessageDeframer.base, Option.map_none, Option.getD_none, Nat.zero_add, hd]

/-- The end of a turn. -/
theorem popDecrypted_spec {joined : Option Joined} {c : List UInt8} (h : Holds d joined (c ++ r)) (hc : 0 < c.length)
    (dec : Option Decrypted) (hlen : ∀ x, dec = some x → x.plaintext.payload.length ≤ c.length) :
    ∃ d', d.popDecrypted dec (d.base + c.length) = ok ((Framer.takeDecrypted joined dec).turn r, d') ∧
      ((∀ e, Framer.takeDecrypted joined dec ≠ .refuse e) →
        Holds d' ((Framer.takeDecrypted joined dec).joined joined) r) := by
  cases dec with
  | none =>
    cases joined with
    | some j =>
      refine ⟨d.setErr (.peerMisbehaved .rejectedEarlyDataInterleavedWithHandshakeMessage), ?_,
        fun hne => absurd rfl (hne _)⟩
      simp only [MessageDeframer.popDecrypted, h.isSome, Option.isSome_some, if_true]
      rfl
    | none =>
      obtain ⟨d', hd, hh⟩ := h.discard
      refine ⟨d', ?_, fun _ => hh⟩
      simp only [MessageDeframer.popDecrypted, h.isSome, Option.isSome_none, hd]
      rfl
  | some x =>
    by_cases hhs : x.plaintext.typ = .handshake
    · have happ := holds_appendHs h hc (hlen x rfl)
      cases hp : payloadSize (Joined.append joined x.plaintext).payload with
      | error e =>
        rw [hp] at happ
        obtain ⟨d', hd⟩ := happ
        have ht : Framer.takeDecrypted joined (some x) = .refuse e := by
          simp only [Framer.takeDecrypted, hhs, ne_eq, not_true_eq_false, and_false, if_false, hp]
        rw [ht]
        refine ⟨d', ?_, fun hne => absurd rfl (hne e)⟩
        simp only [MessageDeframer.popDecrypted, hhs, ne_eq, not_true_eq_false, and_false, if_false, hd, ok_bind]
        rfl
      | ok len =>
        rw [hp] at happ
        obtain ⟨d', hd, hh⟩ := happ
        have ht : Framer.takeDecrypted joined (some x) = .join (Joined.append joined x.plaintext) := by
          simp only [Framer.takeDecrypted, hhs, ne_eq, not_true_eq_false, and_false, if_false, hp]
        rw [ht]
        refine ⟨d', ?_, fun _ => hh⟩
        simp only [MessageDeframer.popDecrypted, hhs, ne_eq, not_true_eq_false, and_false, if_false, hd, ok_bind,
          Taken.turn]
        cases hsStateOf (Joined.append joined x.plaintext) r <;> rfl
    · cases joined with
      | some j =>
        have ht : Framer.takeDecrypted (some j) (some x) =
            .refuse (.peerMisbehaved .messageInterleavedWithHandshakeMessage) := by
          simp [Framer.takeDecrypted, hhs]
        rw [ht]
        refine ⟨d.setErr (.peerMisbehaved .messageInterleavedWithHandshakeMessage), ?_,
          fun hne => absurd rfl (hne _)⟩
        simp [MessageDeframer.popDecrypted, h.isSome, hhs]
        rfl
      | none =>
        obtain ⟨d', hd, hh⟩ := h.discard
        have ht : Framer.takeDecrypted none (some x) = .emit (MessageDeframer.plain x.plaintext) := by
          simp [Framer.takeDecrypted, hhs]
        rw [ht]
        refine ⟨d', ?_, fun _ => hh⟩
        simp [MessageDeframer.popDecrypted, h.isSome, hhs, hd]
        rfl

/-- **A turn that reads a record.** -/
theorem popRecord_spec (hA : A.Lawful) (h : Holds d s.joined u) {m : OpaqueMessage}
    (hr : OpaqueMessage.read u = .ok (m, r)) :
    ∃ d', d.popRecord A v s.layer d.base =
        ok ((Framer.take A v s m).1.turn r, d', (Framer.take A v s m).2) ∧
      ((∀ e, (Framer.take A v s m).1 ≠ .refuse e) → Holds d' ((Framer.take A v s m).1.joined s.joined) r) := by
  obtain ⟨-, rfl⟩ := OpaqueMessage.read_eq_ok_iff.mp hr
  have hstop : d.base + ((m.encode ++ r).length - r.length) = d.base + m.encode.length := by
    rw [List.length_append, Nat.add_sub_cancel]
  by_cases hp : s.joined.isNone ∧ MessageDeframer.allowedPlaintext v s.layer.hasDecrypted m
  · rw [Framer.take_of_plain hp]
    have hnone : s.joined = none := Option.isNone_iff_eq_none.mp hp.1
    rw [hnone] at h ⊢
    obtain ⟨d', hd, hh⟩ := h.discard
    refine ⟨d', ?_, fun _ => hh⟩
    simp only [MessageDeframer.popRecord, h.slice, ok_bind, hr, h.isNone, hp.2, hstop, hd]
    rfl
  · have hp' : ¬ (d.joiningHs.isNone ∧ MessageDeframer.allowedPlaintext v s.layer.hasDecrypted m) := by
      rwa [h.isNone]
    cases hd : s.layer.decryptIncoming A m with
    | mk dec layer =>
      cases dec with
      | error e =>
        rw [Framer.take_of_error hp hd]
        refine ⟨d, ?_, fun hne => absurd rfl (hne e)⟩
        simp only [MessageDeframer.popRecord, h.slice, ok_bind, hr, hp', if_false, hd]
        rfl
      | ok dec =>
        rw [Framer.take_of_ok hp hd]
        have hpos : 0 < m.encode.length := by
          rw [OpaqueMessage.encode_length, OpaqueMessage.headerSize]
          omega
        obtain ⟨d', hpop, hh⟩ := popDecrypted_spec h hpos dec fun x hx => by
          rw [hx] at hd
          have := RecordLayer.length_of_decryptIncoming hA hd
          rw [OpaqueMessage.encode_length]
          omega
        refine ⟨d', ?_, hh⟩
        simp only [MessageDeframer.popRecord, h.slice, ok_bind, hr, hp', if_false, hd, hstop, hpop]
        rfl

/-- The end of `pop` is an attempt with a whole message. -/
theorem popYield_matches {j : Joined} {layer : RecordLayer κ} (h : Holds d (some j) u) {len : ℕ}
    (hlen : j.completeLen = some len) :
    Matches (d.popYield len >>= fun p => ok (p.1, p.2, layer)) (Framer.next A v ⟨some j, layer⟩ u) := by
  have hy := holds_popYield h hlen
  rw [Framer.next_of_complete hlen]
  cases hj : j.yield len with
  | error e =>
    rw [hj] at hy
    obtain ⟨d', hd⟩ := hy
    exact ⟨d', by rw [hd]; rfl⟩
  | ok o =>
    rw [hj] at hy
    obtain ⟨d', hd, hh⟩ := hy
    exact ⟨d', by rw [hd]; rfl, hh⟩

/-- **The loop of `pop` is one attempt**, if it may take as many turns as there are bytes. -/
theorem popLoop_refines (hA : A.Lawful) {fuel : ℕ} (h : Holds d s.joined u) (hfuel : u.length < fuel) :
    Matches (MessageDeframer.popLoop A v fuel d s.layer) (Framer.next A v s u) := by
  induction fuel generalizing d s u with
  | zero => omega
  | succ fuel ih =>
    cases hc : s.joined.bind Joined.completeLen with
    | some len =>
      obtain ⟨j, hj, hlen⟩ := Option.bind_eq_some_iff.mp hc
      have hturn := popTurn_of_complete h hj hlen (A := A) (v := v)
      obtain ⟨joined, layer⟩ := s
      obtain rfl : joined = some j := hj
      rw [MessageDeframer.popLoop, hturn]
      exact popYield_matches h hlen
    | none =>
      have hturn := popTurn_of_incomplete h hc (A := A) (v := v)
      cases hr : OpaqueMessage.read u with
      | error e =>
        cases he : MessageDeframer.readErr e with
        | none =>
          rw [Framer.next_of_tooShort hc hr he]
          refine ⟨d, ?_, h⟩
          simp only [MessageDeframer.popLoop, hturn, MessageDeframer.popRecord, h.slice, ok_bind, hr, he]
          rfl
        | some e' =>
          rw [Framer.next_of_unreadable hc hr he]
          refine ⟨d.setErr e', ?_⟩
          simp only [MessageDeframer.popLoop, hturn, MessageDeframer.popRecord, h.slice, ok_bind, hr, he]
          rfl
      | ok mr =>
        obtain ⟨m, r⟩ := mr
        obtain ⟨d', hrec, hh⟩ := popRecord_spec (A := A) (v := v) hA h hr
        have hlt := Framer.length_lt_of_read hr
        rw [MessageDeframer.popLoop, hturn, hrec]
        cases ht : Framer.take A v s m with
        | mk taken layer =>
          rw [ht] at hh
          cases taken with
          | emit o =>
            rw [Framer.next_of_emit hc hr ht]
            exact ⟨d', rfl, hh fun e he => by cases he⟩
          | refuse e =>
            rw [Framer.next_of_refuse hc hr ht]
            exact ⟨d', rfl⟩
          | skip =>
            rw [Framer.next_of_skip hc hr ht]
            exact ih (s := { s with layer := layer }) (hh fun e he => by cases he) (by omega)
          | join j =>
            rw [Framer.next_of_join hc hr ht]
            have hj : Holds d' (some j) r := hh fun e he => by cases he
            cases hlen : j.completeLen with
            | some len =>
              simp only [ok_bind, Taken.turn, hsStateOf, hlen]
              exact popYield_matches hj hlen
            | none =>
              obtain rfl | hne := eq_or_ne r []
              · -- nothing has arrived after the record
                rw [Framer.next_of_tooShort (s := ⟨some j, layer⟩) (e := MessageError.tooShortForHeader) hlen rfl rfl]
                refine ⟨d', ?_, hj⟩
                simp only [ok_bind, Taken.turn, hsStateOf, hlen]
                rfl
              · simp only [ok_bind, Taken.turn, hsStateOf, hlen, hne, if_false]
                exact ih (s := ⟨some j, layer⟩) hj (by omega)

/-- **`pop` on the buffer is one attempt of the decoder**: it stays inside the buffer, comes to an end, and gives
what the decoder gives. -/
theorem pop_refines (hA : A.Lawful) (h : Holds d s.joined u) :
    Matches (d.pop A v s.layer) (Framer.next A v s u) := by
  rw [MessageDeframer.pop, h.lastError]
  by_cases hused : d.used = 0
  · simp only [hused, if_true]
    generalize hjo : s.joined = joined at h
    cases h with
    | joining pre p gap u slack version expectedLen size pos =>
      simp only at hused
      omega
    | idle u slack =>
      obtain rfl : u = [] := List.eq_nil_of_length_eq_zero hused
      rw [Framer.next_of_tooShort (e := MessageError.tooShortForHeader) (by rw [hjo]; rfl) rfl rfl]
      exact ⟨_, rfl, by rw [hjo]; exact Holds.idle [] slack⟩
  · simp only [hused, if_false]
    refine popLoop_refines hA h ?_
    rw [h.used]
    omega

end Refinement

end RXCore.Rustls
