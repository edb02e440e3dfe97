import RXCore.Rustls.Conn
import RXCore.Rustls.Reads

/-!
# Segments of a stream

A connection takes what the socket has, and processes it at any time. What it comes to is told by the bytes alone.

* `Receiver`, `Receiver.next`, **`receiver`**: the connection as a decoder, for any handler of its messages;
* **`processNewPackets_refines`**: processing is to take all messages off the decoder;
* `Fed`, **`processNewPackets_of_fed`**, **`fed_agree`**: however the bytes were read, and whenever they were
  processed.
-/

set_option autoImplicit false

namespace RXCore.Rustls

open Cursor Cursor.Walk Framing

variable {κ ρ σ : Type} (bodies : BodyParser ρ) (A : Aead κ) (stack : ℕ) (handle : Handler κ ρ σ)

/-- The state of a connection that has not failed, without its buffer. -/
structure Receiver (κ σ : Type) where
  joined : Option Joined
  common : CommonState κ
  state : σ

/-- How processing fails: the error that is returned, and the one that is kept in place of the state. -/
structure Stop (κ : Type) where
  returned : Error
  kept : Error
  common : CommonState κ

namespace Receiver

variable (s : Receiver κ σ)

def framer : Framer κ := ⟨s.joined, s.common.recordLayer⟩

def withFramer (f : Framer κ) : Receiver κ σ := ⟨f.joined, { s.common with recordLayer := f.layer }, s.state⟩

/-- A message is processed. -/
def handled (o : Deframed) : Walk (Except Error σ × CommonState κ) := do
  let (msg, common) ← s.common.deframed A stack o
  common.processMsg bodies A stack handle msg s.state

/-- What becomes of the connection with a message. -/
def accept (joined : Option Joined) : Walk (Except Error σ × CommonState κ) → Except (Walk (Stop κ)) (Receiver κ σ)
  | ok (.ok state, common) => .ok ⟨joined, common, state⟩
  | ok (.error e, common) => .error (ok ⟨e, e, common⟩)
  | Walk.panic => .error Walk.panic
  | outOfFuel => .error outOfFuel
  | Walk.err e => .error (Walk.err e)

/-- What becomes of the connection with an error of the deframer. -/
def failed (e : Error) : Walk (Stop κ) := do
  let (e, common) ← s.common.deframeErr A stack e
  return ⟨e, .handshakeNotComplete, common⟩

/-- One message. -/
def next (s : Receiver κ σ) (u : List UInt8) : Next (Receiver κ σ) UInt8 Deframed (Walk (Stop κ)) :=
  match Framer.next A s.common.negotiatedVersion s.framer u with
  | .more f r => .more (s.withFramer f) r
  | .fail e f => .fail ((s.withFramer f).failed A stack e) (s.withFramer f)
  | .item o f r =>
    match accept f.joined ((s.withFramer f).handled bodies A stack handle o) with
    | .ok s => .item o s r
    | .error e => .fail e (s.withFramer f)

end Receiver

/-- **The decoder.** -/
def receiver (hA : A.Lawful) : Decoder (Receiver κ σ) UInt8 Deframed (Walk (Stop κ)) where
  next := Receiver.next bodies A stack handle
  held s := s.framer.held
  shrinks {s u o s' r} h := by
    rw [Receiver.next] at h
    cases hf : Framer.next A s.common.negotiatedVersion s.framer u with
    | more f r' => simp [hf] at h
    | fail e f => simp [hf] at h
    | item o' f r' =>
      have hlt := Framer.shrinks hA hf
      simp only [hf] at h
      cases ha : Receiver.accept f.joined ((s.withFramer f).handled bodies A stack handle o') with
      | error e => simp [ha] at h
      | ok t =>
        simp only [ha, Next.item.injEq] at h
        obtain ⟨-, rfl, rfl⟩ := h
        have hjoined : t.framer.held = f.held := by
          rw [Receiver.accept.eq_def] at ha
          split at ha <;> cases ha
          rfl
        rwa [hjoined]
  next_append s u v := by
    simp only [Receiver.next, Framer.next_append]
    cases hf : Framer.next A s.common.negotiatedVersion s.framer u with
    | more f r => rfl
    | fail e f => rfl
    | item o f r =>
      simp only [Next.extend]
      cases Receiver.accept f.joined ((s.withFramer f).handled bodies A stack handle o) <;> rfl

/-- What processing returns. -/
def Processes (out : Walk (Except Error Unit × ConnectionCore κ σ)) :
    Outcome (Receiver κ σ) UInt8 (Walk (Stop κ)) → Prop
  | .idle s r => ∃ d, out = ok (.ok (), ⟨.ok s.state, s.common, d⟩) ∧ Holds d s.joined r
  | .failed e _ => ∃ d, out = e >>= fun stop => ok (.error stop.returned, ⟨.error stop.kept, stop.common, d⟩)

/-- A connection stands for a receiver and what no message has been taken off yet. -/
structure Stands (c : ConnectionCore κ σ) (s : Receiver κ σ) (u : List UInt8) : Prop where
  state : c.state = .ok s.state
  common : c.commonState = s.common
  holds : Holds c.messageDeframer s.joined u

variable {bodies A stack handle}

section Processing

variable {s : Receiver κ σ} {u r : List UInt8} {c : ConnectionCore κ σ} {d : MessageDeframer}

/-- What is held and what has arrived is in the buffer. -/
theorem Holds.held_le {f : Framer κ} (h : Holds d f.joined u) : f.held + u.length ≤ d.used := by
  rw [Framer.held]
  generalize f.joined = joined at h
  cases h with
  | idle u slack => exact (Nat.zero_add _).le
  | joining pre p gap u slack version expectedLen size pos =>
    simp only [Option.map_some, Option.getD_some]
    omega

section Deframe

variable {layer : RecordLayer κ} {fuel : ℕ} {state : σ}

theorem deframe_of_pop {res : Except Error (Option Deframed)}
    (h : c.messageDeframer.pop A c.commonState.negotiatedVersion c.commonState.recordLayer = ok (res, d, layer)) :
    c.deframe A stack = ConnectionCore.popped A stack { c with
      commonState := { c.commonState with recordLayer := layer }, messageDeframer := d } res := by
  rw [ConnectionCore.deframe, h]
  rfl

/-- A turn of the loop with a message. -/
theorem processLoop_of_message {msg : PlainMessage} {c' : ConnectionCore κ σ}
    (h : c.deframe A stack = ok (.ok (some msg), c')) :
    ConnectionCore.processLoop bodies A stack handle (fuel + 1) state c =
      c'.commonState.processMsg bodies A stack handle msg state >>= fun p => match p.1 with
        | .ok state => ConnectionCore.processLoop bodies A stack handle fuel state { c' with commonState := p.2 }
        | .error e => ok (.error e, { c' with state := .error e, commonState := p.2 }) := by
  rw [ConnectionCore.processLoop, h]
  rfl

/-- A turn of the loop with no message. -/
theorem processLoop_of_none {res : Walk (Except Error (Option PlainMessage) × ConnectionCore κ σ)}
    (h : c.deframe A stack = res) (hres : ∀ msg c', res ≠ ok (.ok (some msg), c')) :
    ConnectionCore.processLoop bodies A stack handle (fuel + 1) state c = res >>= fun p => match p.1 with
      | .error e => ok (.error e, p.2)
      | .ok _ => ok (.ok (), { p.2 with state := .ok state }) := by
  rw [ConnectionCore.processLoop, h]
  cases res with
  | ok p =>
    obtain ⟨_ | _ | msg, c'⟩ := p
    · rfl
    · rfl
    · exact absurd rfl (hres msg c')
  | _ => rfl

end Deframe

/-- **The loop takes all messages off the decoder.** -/
theorem processLoop_refines (hA : A.Lawful) {fuel : ℕ} (h : Holds d s.joined u)
    (hfuel : s.framer.held + u.length < fuel) :
    Processes
      (ConnectionCore.processLoop bodies A stack handle fuel s.state ⟨.error .handshakeNotComplete, s.common, d⟩)
      ((receiver bodies A stack handle hA).drain s u).2 := by
  induction fuel generalizing s u d with
  | zero => omega
  | succ fuel ih =>
    have hpop := pop_refines (v := s.common.negotiatedVersion) (s := s.framer) hA h
    have hnext : (receiver bodies A stack handle hA).next s u = Receiver.next bodies A stack handle s u := rfl
    rw [Receiver.next] at hnext
    cases hf : Framer.next A s.common.negotiatedVersion s.framer u with
    | more f r =>
      rw [hf] at hpop
      rw [hf] at hnext
      obtain ⟨d', hpop, hh⟩ := hpop
      have hdeframe : (⟨.error .handshakeNotComplete, s.common, d⟩ : ConnectionCore κ σ).deframe A stack =
          ok (.ok none, ⟨.error .handshakeNotComplete, (s.withFramer f).common, d'⟩) :=
        (deframe_of_pop (c := ⟨.error .handshakeNotComplete, s.common, d⟩) hpop).trans rfl
      rw [Decoder.drain_of_more hnext, processLoop_of_none hdeframe (by simp)]
      exact ⟨d', rfl, hh⟩
    | fail e f =>
      rw [hf] at hpop
      rw [hf] at hnext
      obtain ⟨d', hpop⟩ := hpop
      have hdeframe : (⟨.error .handshakeNotComplete, s.common, d⟩ : ConnectionCore κ σ).deframe A stack =
          (s.withFramer f).common.deframeErr A stack e >>= fun p =>
            ok (.error p.1, ⟨.error .handshakeNotComplete, p.2, d'⟩) :=
        (deframe_of_pop (c := ⟨.error .handshakeNotComplete, s.common, d⟩) hpop).trans rfl
      rw [Decoder.drain_of_fail hnext, Receiver.failed]
      refine ⟨d', ?_⟩
      rw [processLoop_of_none hdeframe]
      · cases (s.withFramer f).common.deframeErr A stack e <;> rfl
      · intro msg c' hmsg
        obtain ⟨p, -, hmsg⟩ := bind_eq_ok.mp hmsg
        cases hmsg
    | item o f r =>
      rw [hf] at hpop
      rw [hf] at hnext
      dsimp only at hnext
      obtain ⟨d', hpop, hh⟩ := hpop
      have hdeframe : (⟨.error .handshakeNotComplete, s.common, d⟩ : ConnectionCore κ σ).deframe A stack =
          (s.withFramer f).common.deframed A stack o >>= fun p =>
            ok (.ok (some p.1), ⟨.error .handshakeNotComplete, p.2, d'⟩) :=
        (deframe_of_pop (c := ⟨.error .handshakeNotComplete, s.common, d⟩) hpop).trans rfl
      have hhandled : (s.withFramer f).handled bodies A stack handle o =
          (s.withFramer f).common.deframed A stack o >>= fun p =>
            p.2.processMsg bodies A stack handle p.1 s.state := rfl
      cases hd : (s.withFramer f).common.deframed A stack o with
      | ok p =>
        obtain ⟨msg, common⟩ := p
        rw [hd] at hhandled hdeframe
        rw [processLoop_of_message hdeframe]
        cases hm : common.processMsg bodies A stack handle msg s.state with
        | ok res =>
          obtain ⟨res, common'⟩ := res
          rw [hhandled, ok_bind, hm] at hnext
          cases res with
          | ok state' =>
            have hlt := (receiver bodies A stack handle hA).shrinks hnext
            rw [Decoder.drain_of_item hnext]
            exact ih (s := ⟨f.joined, common', state'⟩) hh (Nat.lt_of_lt_of_le hlt (Nat.le_of_lt_succ hfuel))
          | error e =>
            rw [Decoder.drain_of_fail hnext]
            exact ⟨d', rfl⟩
        | _ =>
          rw [hhandled, ok_bind, hm] at hnext
          rw [Decoder.drain_of_fail hnext]
          exact ⟨d', rfl⟩
      | _ =>
        rw [hd] at hhandled hdeframe
        rw [hhandled] at hnext
        rw [Decoder.drain_of_fail hnext, processLoop_of_none hdeframe]
        · exact ⟨d', rfl⟩
        · intro msg c' hmsg
          obtain ⟨p, hp, -⟩ := bind_eq_ok.mp hmsg
          cases hp

variable (bodies stack handle) in
/-- **Processing takes all messages off the decoder**, and comes to an end. -/
theorem processNewPackets_refines (hA : A.Lawful) (h : Stands c s u) :
    Processes (c.processNewPackets bodies A stack handle) ((receiver bodies A stack handle hA).drain s u).2 := by
  obtain ⟨state, common, d⟩ := c
  obtain ⟨rfl, rfl, hholds⟩ := h
  exact processLoop_refines hA hholds (Nat.lt_succ_of_le (Holds.held_le (f := s.framer) hholds))

/-- A read appends what it takes to what no message has been taken off yet; one that takes nothing is the end. -/
theorem Stands.readTls (h : Stands c s u) {rd : List UInt8} {n : ℕ} {c' : ConnectionCore κ σ}
    (hr : c.readTls rd = ok (.ok n, c')) :
    Stands c' { s with common := { s.common with hasSeenEof := n == 0 || s.common.hasSeenEof } } (u ++ rd.take n) ∧
      n ≤ rd.length := by
  rw [ConnectionCore.readTls] at hr
  split_ifs at hr
  · cases hr
  · obtain ⟨⟨res, d'⟩, hread, hr⟩ := bind_eq_ok.mp hr
    have hspec := read_spec h.holds rd
    split_ifs at hspec
    · rw [hspec] at hread
      cases hread
      cases hr
    · obtain ⟨m, d'', hspec, hle, -, hholds, -⟩ := hspec
      rw [hspec] at hread
      cases hread
      cases hr
      refine ⟨⟨h.state, ?_, hholds⟩, hle⟩
      cases n with
      | zero => rw [← h.common]; rfl
      | succ n => exact h.common

/-- A read that is refused changes nothing. -/
theorem Stands.readTls_error (h : Stands c s u) {rd : List UInt8} {e : String} {c' : ConnectionCore κ σ}
    (hr : c.readTls rd = ok (.error e, c')) : c' = c := by
  rw [ConnectionCore.readTls] at hr
  split_ifs at hr
  · cases hr
    rfl
  · obtain ⟨⟨res, d'⟩, hread, hr⟩ := bind_eq_ok.mp hr
    have hspec := read_spec h.holds rd
    split_ifs at hspec
    · rw [hspec] at hread
      cases hread
      cases hr
      rfl
    · obtain ⟨m, d'', hspec, -⟩ := hspec
      rw [hspec] at hread
      cases hread
      cases hr

end Processing

/-! ## Any order of reads and processing -/

variable (bodies A stack handle) in
/-- Bytes are read from the socket and processed, in any order; what was read. -/
inductive Fed (c : ConnectionCore κ σ) : List UInt8 → ConnectionCore κ σ → Prop
  | start : Fed c [] c
  | read {w rd : List UInt8} {n : ℕ} {c₁ c₂ : ConnectionCore κ σ} (fed : Fed c w c₁)
      (h : c₁.readTls rd = ok (.ok n, c₂)) (pos : n ≠ 0) : Fed c (w ++ rd.take n) c₂
  | process {w : List UInt8} {c₁ c₂ : ConnectionCore κ σ} (fed : Fed c w c₁)
      (h : c₁.processNewPackets bodies A stack handle = ok (.ok (), c₂)) : Fed c w c₂

section Runs

variable {s : Receiver κ σ} {u w w' : List UInt8} {c c₁ c₂ : ConnectionCore κ σ}

/-- What was processed makes no difference to what the decoder goes on with. -/
theorem stands_of_fed (hA : A.Lawful) (h : Stands c s u) (hfed : Fed bodies A stack handle c w c₁) :
    ∃ s₁ u₁, Stands c₁ s₁ u₁ ∧ ∀ v, ((receiver bodies A stack handle hA).drain s₁ (u₁ ++ v)).2 =
      ((receiver bodies A stack handle hA).drain s (u ++ w ++ v)).2 := by
  induction hfed with
  | start => exact ⟨s, u, h, fun v => by rw [List.append_nil]⟩
  | read _ hr hn ih =>
    obtain ⟨s₁, u₁, hstands, hdrain⟩ := ih
    obtain ⟨hread, -⟩ := hstands.readTls hr
    rw [beq_eq_false_iff_ne.mpr hn] at hread
    refine ⟨s₁, _, hread, fun v => ?_⟩
    rw [List.append_assoc, hdrain]
    simp only [List.append_assoc]
  | process _ hp ih =>
    obtain ⟨s₁, u₁, hstands, hdrain⟩ := ih
    have hproc := processNewPackets_refines bodies stack handle hA hstands
    cases hout : ((receiver bodies A stack handle hA).drain s₁ u₁).2 with
    | idle s₂ r =>
      rw [hout] at hproc
      obtain ⟨d, hproc, hholds⟩ := hproc
      rw [hp] at hproc
      cases hproc
      exact ⟨s₂, r, ⟨rfl, rfl, hholds⟩, fun v => (Decoder.drain_of_idle hout v).trans (hdrain v)⟩
    | failed e s₂ =>
      rw [hout] at hproc
      obtain ⟨d, hproc⟩ := hproc
      rw [hp] at hproc
      obtain ⟨stop, -, hstop⟩ := bind_eq_ok.mp hproc.symm
      cases hstop

/-- **However the bytes were read, and whenever they were processed**, processing takes the messages of all bytes. -/
theorem processNewPackets_of_fed (hA : A.Lawful) (h : Stands c s u) (hfed : Fed bodies A stack handle c w c₁) :
    Processes (c₁.processNewPackets bodies A stack handle)
      ((receiver bodies A stack handle hA).drain s (u ++ w)).2 := by
  obtain ⟨s₁, u₁, hstands, hdrain⟩ := stands_of_fed hA h hfed
  have heq := hdrain []
  rw [List.append_nil, List.append_nil] at heq
  rw [← heq]
  exact processNewPackets_refines bodies stack handle hA hstands

/-- **The segments of a stream make no difference.** Two connections in the same state, one of which has read what the
other has or, where processing fails, more: they end in the same state, with the same result. -/
theorem fed_agree (hA : A.Lawful) (common : CommonState κ) (state : σ)
    (h₁ : Fed bodies A stack handle (.new state common) w c₁)
    (h₂ : Fed bodies A stack handle (.new state common) (w ++ w') c₂) {res : Except Error Unit}
    {c : ConnectionCore κ σ} (hp : c₁.processNewPackets bodies A stack handle = ok (res, c))
    (hw : w' = [] ∨ ∃ e, res = .error e) :
    ∃ c', c₂.processNewPackets bodies A stack handle = ok (res, c') ∧ c'.state = c.state ∧
      c'.commonState = c.commonState := by
  have hnew : Stands (.new state common) (⟨none, common, state⟩ : Receiver κ σ) [] :=
    ⟨rfl, rfl, Holds.idle [] []⟩
  have hproc₁ := processNewPackets_of_fed hA hnew h₁
  have hproc₂ := processNewPackets_of_fed hA hnew h₂
  rw [List.nil_append] at hproc₁ hproc₂
  rw [Decoder.drain_append] at hproc₂
  cases hd : (receiver bodies A stack handle hA).drain ⟨none, common, state⟩ w with
  | mk os out =>
    rw [hd] at hproc₁ hproc₂
    cases out with
    | idle s₁ r₁ =>
      obtain ⟨d₁, hproc₁, -⟩ := hproc₁
      rw [hp] at hproc₁
      cases hproc₁
      obtain rfl | ⟨e, he⟩ := hw
      · have hidle := (Decoder.next_of_drain (d := receiver bodies A stack handle hA) (s := ⟨none, common, state⟩)
          (u := w) (by rw [hd]))
        rw [Decoder.resume, List.append_nil, Decoder.drain_of_more hidle] at hproc₂
        obtain ⟨d₂, hproc₂, -⟩ := hproc₂
        exact ⟨_, hproc₂, rfl, rfl⟩
      · cases he
    | failed e s₁ =>
      obtain ⟨d₁, hproc₁⟩ := hproc₁
      obtain ⟨d₂, hproc₂⟩ := hproc₂
      rw [hp] at hproc₁
      obtain ⟨stop, rfl, hstop⟩ := bind_eq_ok.mp hproc₁.symm
      cases hstop
      exact ⟨_, hproc₂, rfl, rfl⟩

/-- A handler that keeps the types of the messages. -/
def keepTypes : Handler UInt8 Unit (List ContentType) := fun s state m =>
  ok (.ok (state ++ [m.payload.contentType]), s)

/-- Handshake messages without contents. -/
def noBodies : BodyParser Unit := fun typ _ _ => .ok (typ, ())

set_option maxRecDepth 20000 in
/-- A record that arrives in two pieces, and at once. -/
theorem fed_agree_pieces : ∃ c₂ c : ConnectionCore UInt8 (List ContentType),
    Fed noBodies Aead.masking 1 keepTypes (.new [] (.new .client)) [23, 3, 3, 0, 1, 65] c₂ ∧
    c₂.processNewPackets noBodies Aead.masking 1 keepTypes = ok (.ok (), c) ∧ c.state = .ok [.applicationData] := by
  obtain ⟨c₁, c₂, c₃, c₄, h₁, h₂, h₃, h₄, hstate⟩ : ∃ c₁ c₂ c₃ c₄ : ConnectionCore UInt8 (List ContentType),
      (ConnectionCore.new [] (.new .client)).readTls [23, 3, 3] = ok (.ok 3, c₁) ∧
      c₁.processNewPackets noBodies Aead.masking 1 keepTypes = ok (.ok (), c₂) ∧
      c₂.readTls [0, 1, 65] = ok (.ok 3, c₃) ∧
      c₃.processNewPackets noBodies Aead.masking 1 keepTypes = ok (.ok (), c₄) ∧
      c₄.state = .ok [.applicationData] := ⟨_, _, _, _, rfl, rfl, rfl, rfl, rfl⟩
  have hpieces : Fed noBodies Aead.masking 1 keepTypes (.new [] (.new .client)) [23, 3, 3, 0, 1, 65] c₃ :=
    .read (.process (.read .start h₁ (by decide)) h₂) h₃ (by decide)
  obtain ⟨c, h⟩ : ∃ c : ConnectionCore UInt8 (List ContentType),
      (ConnectionCore.new [] (.new .client)).readTls [23, 3, 3, 0, 1, 65] = ok (.ok 6, c) := ⟨_, rfl⟩
  have hwhole : Fed noBodies Aead.masking 1 keepTypes (.new [] (.new .client)) ([23, 3, 3, 0, 1, 65] ++ []) c :=
    .read .start h (by decide)
  obtain ⟨c', hp, hc', -⟩ := fed_agree Aead.masking_lawful (.new .client) [] hpieces hwhole h₄ (.inl rfl)
  exact ⟨c, c', hwhole, hp, hc'.trans hstate⟩

end Runs

end RXCore.Rustls
