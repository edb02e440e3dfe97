import RXCore.Rustls.Common
import RXCore.Rustls.Deframer

/-!
# Connections

A connection reads records from a socket, takes the messages out of them, and gives these to the state of its
protocol, whatever that is.

* `MessagePayload`, `Message`: messages with their contents;
* `processAlert`, `processMainProtocol`, `processMsg`: what a message does;
* `ConnectionCore` with `deframe`, `processNewPackets`, `readTls`, `writeTls` and `Reader.read`.
-/

set_option autoImplicit false

namespace RXCore.Rustls

open Cursor Cursor.Walk

/-! ## Contents of messages -/

/-- `HandshakeType`, as its code. -/
abbrev HandshakeType := UInt8

namespace HandshakeType

def helloRequest : HandshakeType := 0x00

def clientHello : HandshakeType := 0x01

def newSessionTicket : HandshakeType := 0x04

def keyUpdate : HandshakeType := 0x18

end HandshakeType

inductive KeyUpdateRequest where
  | updateNotRequested
  | updateRequested
  | unknown (x : UInt8)
deriving DecidableEq

def KeyUpdateRequest.ofU8 (x : UInt8) : KeyUpdateRequest :=
  if x = 0 then updateNotRequested else if x = 1 then updateRequested else unknown x

/-- `HandshakePayload`: key updates, and the others as they are parsed in `ρ`. -/
inductive HandshakePayload (ρ : Type) where
  | keyUpdate (request : KeyUpdateRequest)
  | other (body : ρ)

structure HandshakeMessagePayload (ρ : Type) where
  typ : HandshakeType
  payload : HandshakePayload ρ

inductive MessagePayload (ρ : Type) where
  | alert (level : AlertLevel) (description : AlertDescription)
  | handshake (parsed : HandshakeMessagePayload ρ) (encoded : List UInt8)
  | changeCipherSpec
  | applicationData (payload : List UInt8)

structure Message (ρ : Type) where
  version : ProtocolVersion
  payload : MessagePayload ρ

/-- The parsers of the other handshake messages: what they make of a body, and the type it then has. -/
abbrev BodyParser (ρ : Type) := HandshakeType → ProtocolVersion → List UInt8 → Except InvalidMessage (HandshakeType × ρ)

variable {ρ : Type} (bodies : BodyParser ρ)

/-- `AlertMessagePayload::read`. -/
def readAlert : List UInt8 → Except InvalidMessage (MessagePayload ρ)
  | [] => .error (.missingData "AlertLevel")
  | [_] => .error (.missingData "AlertDescription")
  | [level, description] => .ok (.alert (.ofU8 level) description)
  | _ => .error (.trailingData "AlertMessagePayload")

/-- `ChangeCipherSpecPayload::read`. -/
def readCcs : List UInt8 → Except InvalidMessage (MessagePayload ρ)
  | [] => .error (.missingData "u8")
  | typ :: rest =>
    if typ ≠ 1 then .error .invalidCcs
    else if rest ≠ [] then .error (.trailingData "ChangeCipherSpecPayload")
    else .ok .changeCipherSpec

/-- `KeyUpdateRequest::read`, and nothing after it. -/
def readKeyUpdate : List UInt8 → Except InvalidMessage (HandshakePayload ρ)
  | [] => .error (.missingData "KeyUpdateRequest")
  | [x] => .ok (.keyUpdate (.ofU8 x))
  | _ => .error (.trailingData "HandshakeMessagePayload")

/-- `HandshakeMessagePayload::read_version`; what comes after the message is not looked at. -/
def readVersion (vers : ProtocolVersion) : List UInt8 → Except InvalidMessage (HandshakeMessagePayload ρ)
  | [] => .error (.missingData "HandshakeType")
  | typ :: a :: b :: c :: rest => do
    let len := (a.toNat * 256 + b.toNat) * 256 + c.toNat
    if rest.length < len then .error .messageTooShort
    else if typ = HandshakeType.keyUpdate then do
      let payload ← readKeyUpdate (rest.take len)
      return ⟨typ, payload⟩
    else do
      let (typ, body) ← bodies typ vers (rest.take len)
      return ⟨typ, .other body⟩
  | _ => .error (.missingData "u24")

/-- `MessagePayload::new`. -/
def MessagePayload.new (typ : ContentType) (vers : ProtocolVersion) (payload : List UInt8) :
    Except InvalidMessage (MessagePayload ρ) :=
  match typ with
  | .applicationData => .ok (.applicationData payload)
  | .alert => readAlert payload
  | .handshake => do
    let parsed ← readVersion bodies vers payload
    return .handshake parsed payload
  | .changeCipherSpec => readCcs payload
  | _ => .error .invalidContentType

/-- `Message::try_from`. -/
def Message.tryFrom (plain : PlainMessage) : Except InvalidMessage (Message ρ) := do
  let payload ← MessagePayload.new bodies plain.typ plain.version plain.payload
  return ⟨plain.version, payload⟩

/-- `content_type`. -/
def MessagePayload.contentType : MessagePayload ρ → ContentType
  | alert _ _ => .alert
  | handshake _ _ => .handshake
  | changeCipherSpec => .changeCipherSpec
  | applicationData _ => .applicationData

/-- `is_handshake_type`. -/
def Message.isHandshakeType (m : Message ρ) (hstyp : HandshakeType) : Bool :=
  match m.payload with
  | .handshake parsed _ => parsed.typ == hstyp
  | _ => false

/-- `inappropriate_handshake_message`. -/
def inappropriateHandshakeMessage (payload : MessagePayload ρ) (contentTypes : List ContentType)
    (handshakeTypes : List HandshakeType) : Error :=
  match payload with
  | .handshake parsed _ => .inappropriateHandshakeMessage handshakeTypes parsed.typ
  | payload => .inappropriateMessage contentTypes payload.contentType

/-! ## What a message does -/

variable {κ σ : Type} (A : Aead κ) (stack : ℕ)

/-- `TLS13_MAX_DROPPED_CCS`. -/
def tls13MaxDroppedCcs : ℕ := 2

/-- `is_valid_ccs`. -/
def isValidCcs (msg : PlainMessage) : Bool := msg.typ == .changeCipherSpec && msg.payload == [0x01]

/-- The state of the protocol, with what a message does to it and to what both sides of a connection share. -/
abbrev Handler (κ ρ σ : Type) := CommonState κ → σ → Message ρ → Walk (Except Error σ × CommonState κ)

namespace CommonState

variable (s : CommonState κ)

/-- `send_fatal_alert` with the error that it hands on. -/
def failWith (desc : AlertDescription) (e : Error) : Walk (Error × CommonState κ) := do
  let s ← s.sendFatalAlert A stack desc
  return (e, s)

/-- The error of `send_fatal_alert` is returned. -/
def refuseWith {α : Type} (desc : AlertDescription) (e : Error) : Walk (Except Error α × CommonState κ) := do
  let (e, s) ← s.failWith A stack desc e
  return (.error e, s)

/-- `process_alert`. -/
def processAlert (level : AlertLevel) (description : AlertDescription) : Walk (Except Error Unit × CommonState κ) :=
  match level with
  | .unknown _ => s.refuseWith A stack .illegalParameter (.alertReceived description)
  | level =>
    if description = .closeNotify then ok (.ok (), { s with hasReceivedCloseNotify := true })
    else if level = .warning then
      if s.isTls13 ∧ description ≠ .userCanceled then
        s.refuseWith A stack .decodeError (.alertReceived description)
      else ok (.ok (), s)
    else ok (.error (.alertReceived description), s)

/-- `process_main_protocol`. -/
def processMainProtocol (handle : Handler κ ρ σ) (msg : Message ρ) (state : σ) :
    Walk (Except Error σ × CommonState κ) :=
  let rejectTy := match s.side with
    | .client => HandshakeType.helloRequest
    | .server => HandshakeType.clientHello
  if s.mayReceiveApplicationData ∧ ¬ s.isTls13 ∧ msg.isHandshakeType rejectTy then do
    let s ← s.sendWarningAlert A stack .noRenegotiation
    return (.ok state, s)
  else do
    let (res, s) ← handle s state msg
    match res with
    | .ok next => return (.ok next, s)
    | .error (.inappropriateMessage e g) => s.refuseWith A stack .unexpectedMessage (.inappropriateMessage e g)
    | .error (.inappropriateHandshakeMessage e g) =>
      s.refuseWith A stack .unexpectedMessage (.inappropriateHandshakeMessage e g)
    | .error e => return (.error e, s)

/-- `process_msg`. -/
def processMsg (handle : Handler κ ρ σ) (msg : PlainMessage) (state : σ) : Walk (Except Error σ × CommonState κ) :=
  if msg.typ = .changeCipherSpec ∧ ¬ s.mayReceiveApplicationData ∧ s.isTls13 then
    if ¬ isValidCcs msg ∨ tls13MaxDroppedCcs < s.receivedMiddleboxCcs then
      s.refuseWith A stack .unexpectedMessage (.peerMisbehaved .illegalMiddleboxChangeCipherSpec)
    else ok (.ok state, { s with receivedMiddleboxCcs := s.receivedMiddleboxCcs + 1 })
  else
    match Message.tryFrom bodies msg with
    | .error e => s.refuseWith A stack .decodeError (.invalidMessage e)
    | .ok ⟨_, .alert level description⟩ => do
      let (res, s) ← s.processAlert A stack level description
      return (res.map fun _ => state, s)
    | .ok msg => s.processMainProtocol A stack handle msg state

/-- What `deframe` does with a message that was taken off. -/
def deframed (o : Deframed) : Walk (PlainMessage × CommonState κ) := do
  let s ← if o.wantCloseBeforeDecrypt then s.sendCloseNotify A stack else ok s
  let recordLayer := if o.trialDecryptionFinished then s.recordLayer.finishTrialDecryption else s.recordLayer
  return (o.message, { s with recordLayer := recordLayer, alignedHandshake := o.aligned })

/-- What `deframe` does with an error of `pop`. -/
def deframeErr : Error → Walk (Error × CommonState κ)
  | .invalidMessage e => s.failWith A stack .decodeError (.invalidMessage e)
  | .peerSentOversizedRecord => s.failWith A stack .recordOverflow .peerSentOversizedRecord
  | .decryptError => s.failWith A stack .badRecordMac .decryptError
  | e => ok (e, s)

end CommonState

/-! ## The connection -/

/-- `ConnectionCore`. -/
structure ConnectionCore (κ σ : Type) where
  state : Except Error σ
  commonState : CommonState κ
  messageDeframer : MessageDeframer

namespace ConnectionCore

/-- `ConnectionCore::new`. -/
def new (state : σ) (commonState : CommonState κ) : ConnectionCore κ σ := ⟨.ok state, commonState, .default⟩

variable (c : ConnectionCore κ σ)

/-- What `deframe` makes of the result of `pop`. -/
def popped : Except Error (Option Deframed) → Walk (Except Error (Option PlainMessage) × ConnectionCore κ σ)
  | .ok (some o) => do
    let (msg, s) ← c.commonState.deframed A stack o
    return (.ok (some msg), { c with commonState := s })
  | .ok none => return (.ok none, c)
  | .error e => do
    let (e, s) ← c.commonState.deframeErr A stack e
    return (.error e, { c with commonState := s })

/-- `deframe`. -/
def deframe : Walk (Except Error (Option PlainMessage) × ConnectionCore κ σ) := do
  let (res, d, recordLayer) ← c.messageDeframer.pop A c.commonState.negotiatedVersion c.commonState.recordLayer
  popped A stack { c with
    commonState := { c.commonState with recordLayer := recordLayer }, messageDeframer := d } res

/-- The loop of `process_new_packets`, with the state that was taken out of the connection. -/
def processLoop (handle : Handler κ ρ σ) : ℕ → σ → ConnectionCore κ σ → Walk (Except Error Unit × ConnectionCore κ σ)
  | 0, _, _ => outOfFuel
  | fuel + 1, state, c => do
    let (res, c) ← c.deframe A stack
    match res with
    | .error e => return (.error e, c)
    | .ok none => return (.ok (), { c with state := .ok state })
    | .ok (some msg) => do
      let (res, s) ← c.commonState.processMsg bodies A stack handle msg state
      match res with
      | .ok state => processLoop handle fuel state { c with commonState := s }
      | .error e => return (.error e, { c with state := .error e, commonState := s })

/-- `process_new_packets`; every message takes bytes off the buffer. -/
def processNewPackets (handle : Handler κ ρ σ) : Walk (Except Error Unit × ConnectionCore κ σ) :=
  match c.state with
  | .error e => ok (.error e, c)
  | .ok state =>
    processLoop bodies A stack handle (c.messageDeframer.used + 1) state
      { c with state := .error .handshakeNotComplete }

/-- `read_tls` from a socket on which `rd` has arrived. -/
def readTls (rd : List UInt8) : Walk (Except String ℕ × ConnectionCore κ σ) :=
  if c.commonState.receivedPlaintext.isFull then ok (.error "received plaintext buffer full", c)
  else do
    let (res, d) ← c.messageDeframer.read rd
    let s := match res with
      | .ok 0 => { c.commonState with hasSeenEof := true }
      | _ => c.commonState
    return (res, { c with commonState := s, messageDeframer := d })

/-- `write_tls` to a socket that takes `n` bytes. -/
def writeTls (n : ℕ) : List UInt8 × ConnectionCore κ σ :=
  let (written, sendableTls) := c.commonState.sendableTls.writeTo n
  (written, { c with commonState := { c.commonState with sendableTls := sendableTls } })

/-- The errors of `Reader::read`. -/
inductive ReadError where
  | unexpectedEof
  | wouldBlock
deriving DecidableEq

/-- `Reader::read` into a buffer of `n` bytes. -/
def read (n : ℕ) : Except ReadError (List UInt8) × ConnectionCore κ σ :=
  let peerCleanlyClosed := c.commonState.hasReceivedCloseNotify && !c.messageDeframer.hasPending
  let (bytes, receivedPlaintext) := c.commonState.receivedPlaintext.read n
  let c := { c with commonState := { c.commonState with receivedPlaintext := receivedPlaintext } }
  if bytes = [] ∧ n ≠ 0 then
    if peerCleanlyClosed then (.ok [], c)
    else if c.commonState.hasSeenEof then (.error .unexpectedEof, c)
    else (.error .wouldBlock, c)
  else (.ok bytes, c)

end ConnectionCore

end RXCore.Rustls
