import RXCore.Rustls.Conn

/-!
# After the handshake

`ExpectTraffic`, the last state of both sides in TLS 1.3: application data is kept for the application, and a key
update replaces the key of the direction it came from.

* `KeySchedule`: how keys follow from secrets, as the library derives them;
* `ExpectTraffic` with `updateEncrypterAndNotify`, `updateDecrypter`, `handleKeyUpdate`;
* `handle`, with `Server.handle` and `Client.handle`.
-/

set_option autoImplicit false

namespace RXCore.Rustls

open Cursor Cursor.Walk

/-- `KeySchedule`: the next secret of a direction, and the key and the IV of a secret. -/
structure KeySchedule (κ τ : Type) where
  deriveNext : τ → τ
  trafficKey : τ → κ
  trafficIv : τ → Iv

/-- `ExpectTraffic`, with the secrets of its `KeyScheduleTraffic`. -/
structure ExpectTraffic (τ : Type) where
  currentClientTrafficSecret : τ
  currentServerTrafficSecret : τ

variable {κ τ ρ : Type} (K : KeySchedule κ τ) (A : Aead κ) (stack : ℕ)

namespace CommonState

variable (s : CommonState κ)

/-- `check_aligned_handshake`. -/
def checkAlignedHandshake : Walk (Except Error Unit × CommonState κ) :=
  if !s.alignedHandshake then
    s.refuseWith A stack .unexpectedMessage (.peerMisbehaved .keyEpochWithPendingFragment)
  else ok (.ok (), s)

/-- `should_update_key`. -/
def shouldUpdateKey : KeyUpdateRequest → Walk (Except Error Bool × CommonState κ)
  | .updateNotRequested => ok (.ok false, s)
  | .updateRequested => ok (.ok s.queuedKeyUpdateMessage.isNone, s)
  | .unknown _ => s.refuseWith A stack .illegalParameter (.invalidMessage .invalidKeyUpdate)

end CommonState

namespace ExpectTraffic

variable (st : ExpectTraffic τ)

/-- The secret of a side. -/
def secret : Side → τ
  | .client => st.currentClientTrafficSecret
  | .server => st.currentServerTrafficSecret

/-- `next_application_traffic_secret`. -/
def nextApplicationTrafficSecret : Side → τ × ExpectTraffic τ
  | .client =>
    let next := K.deriveNext st.currentClientTrafficSecret
    (next, { st with currentClientTrafficSecret := next })
  | .server =>
    let next := K.deriveNext st.currentServerTrafficSecret
    (next, { st with currentServerTrafficSecret := next })

variable {K st} in
theorem nextApplicationTrafficSecret_fst (side : Side) :
    (st.nextApplicationTrafficSecret K side).1 = K.deriveNext (st.secret side) := by
  cases side <;> rfl

variable {K st} in
theorem secret_nextApplicationTrafficSecret (side : Side) :
    (st.nextApplicationTrafficSecret K side).2.secret side = K.deriveNext (st.secret side) := by
  cases side <;> rfl

/-- `update_encrypter_and_notify`. -/
def updateEncrypterAndNotify (s : CommonState κ) : Walk (ExpectTraffic τ × CommonState κ) := do
  let (next, st) := st.nextApplicationTrafficSecret K s.side
  let s ← s.enqueueKeyUpdateNotification A
  let encrypter := MessageEncrypter.tls13 (K.trafficKey next) (K.trafficIv next)
  return (st, { s with recordLayer := s.recordLayer.setMessageEncrypter encrypter })

/-- `update_decrypter`. -/
def updateDecrypter (s : CommonState κ) : ExpectTraffic τ × CommonState κ :=
  let (next, st) := st.nextApplicationTrafficSecret K s.side.peer
  let decrypter := MessageDecrypter.tls13 (K.trafficKey next) (K.trafficIv next)
  (st, { s with recordLayer := s.recordLayer.setMessageDecrypter decrypter })

/-- `handle_key_update`. -/
def handleKeyUpdate (s : CommonState κ) (request : KeyUpdateRequest) :
    Walk (Except Error (ExpectTraffic τ) × CommonState κ) := do
  let (aligned, s) ← s.checkAlignedHandshake A stack
  match aligned with
  | .error e => return (.error e, s)
  | .ok () => do
    let (update, s) ← s.shouldUpdateKey A stack request
    match update with
    | .error e => return (.error e, s)
    | .ok update => do
      let (st, s) ← if update then st.updateEncrypterAndNotify K A s else ok (st, s)
      let (st, s) := st.updateDecrypter K s
      return (.ok st, s)

/-- `handle` of both sides, with what they do with other messages. -/
def handle (other : Handler κ ρ (ExpectTraffic τ)) : Handler κ ρ (ExpectTraffic τ) := fun s st m =>
  match m.payload with
  | .applicationData payload => ok (.ok st, s.takeReceivedPlaintext payload)
  | .handshake ⟨_, .keyUpdate request⟩ _ => st.handleKeyUpdate K A stack s request
  | _ => other s st m

end ExpectTraffic

/-- `handle` of a server. -/
def Server.handle : Handler κ ρ (ExpectTraffic τ) :=
  ExpectTraffic.handle K A stack fun s _ m =>
    ok (.error (inappropriateHandshakeMessage m.payload [.applicationData, .handshake] [HandshakeType.keyUpdate]), s)

/-- A ticket of TLS 1.3, as far as a client looks at it before it stores it. -/
structure NewSessionTicket where
  hasDuplicateExtension : Bool

/-- `handle` of a client; `ticket` tells the tickets from the other messages. -/
def Client.handle (ticket : ρ → Option NewSessionTicket) : Handler κ ρ (ExpectTraffic τ) :=
  ExpectTraffic.handle K A stack fun s st m =>
    let refused := ok (.error (inappropriateHandshakeMessage m.payload [.applicationData, .handshake]
      [HandshakeType.newSessionTicket, HandshakeType.keyUpdate]), s)
    match m.payload with
    | .handshake ⟨_, .other body⟩ _ =>
      match ticket body with
      | some nst =>
        if nst.hasDuplicateExtension then
          s.refuseWith A stack .illegalParameter (.peerMisbehaved .duplicateNewSessionTicketExtensions)
        else ok (.ok st, s)
      | none => refused
    | _ => refused

end RXCore.Rustls
