import RXCore.Rustls.RecordLayer
import RXCore.Rustls.VecBuf

/-!
# The sending side of a connection

`CommonState` cuts what is sent into fragments, protects them, and queues the records until the socket takes them.

* `CommonState`, with its queues of plaintext and of records;
* `sendSingleFragment`, whose warning before the last sequence numbers is itself a fragment to send, and with it
  `sendMsg`, `sendAppdataEncrypt`, `sendPlain`, the alerts and the key updates. Functions that may send take the
  depth of the stack as an argument.
-/

set_option autoImplicit false

namespace RXCore.Rustls

open Cursor Cursor.Walk

inductive Side where
  | client
  | server
deriving DecidableEq

/-- `Side::peer`. -/
def Side.peer : Side → Side
  | client => server
  | server => client

inductive AlertLevel where
  | warning
  | fatal
  | unknown (x : UInt8)
deriving DecidableEq

def AlertLevel.getU8 : AlertLevel → UInt8
  | warning => 1
  | fatal => 2
  | unknown x => x

def AlertLevel.ofU8 (x : UInt8) : AlertLevel :=
  if x = 1 then warning else if x = 2 then fatal else unknown x

namespace AlertDescription

def closeNotify : AlertDescription := 0x00

def unexpectedMessage : AlertDescription := 0x0a

def badRecordMac : AlertDescription := 0x14

def recordOverflow : AlertDescription := 0x16

def illegalParameter : AlertDescription := 0x2f

def decodeError : AlertDescription := 0x32

def userCanceled : AlertDescription := 0x5a

def noRenegotiation : AlertDescription := 0x64

end AlertDescription

inductive Limit where
  | yes
  | no
deriving DecidableEq

/-- `DEFAULT_RECEIVED_PLAINTEXT_LIMIT`. -/
def defaultReceivedPlaintextLimit : ℕ := 16 * 1024

/-- `DEFAULT_BUFFER_LIMIT`. -/
def defaultBufferLimit : ℕ := 64 * 1024

/-- `CommonState`, outside QUIC. -/
structure CommonState (κ : Type) where
  negotiatedVersion : Option ProtocolVersion
  side : Side
  recordLayer : RecordLayer κ
  alignedHandshake : Bool
  maySendApplicationData : Bool
  mayReceiveApplicationData : Bool
  sentFatalAlert : Bool
  hasReceivedCloseNotify : Bool
  hasSeenEof : Bool
  receivedMiddleboxCcs : ℕ
  messageFragmenter : MessageFragmenter
  receivedPlaintext : ChunkVecBuffer
  sendablePlaintext : ChunkVecBuffer
  sendableTls : ChunkVecBuffer
  queuedKeyUpdateMessage : Option (List UInt8)

/-- The message of an alert. -/
def buildAlert (level : AlertLevel) (desc : AlertDescription) : PlainMessage :=
  ⟨.alert, .tlsV1_2, [level.getU8, desc]⟩

/-- `build_key_update_notify`, encoded. -/
def buildKeyUpdateNotify : PlainMessage := ⟨.handshake, .tlsV1_3, [0x18, 0, 0, 1, 0]⟩

namespace CommonState

variable {κ : Type}

/-- `CommonState::new`. -/
def new (side : Side) : CommonState κ where
  negotiatedVersion := none
  side := side
  recordLayer := .new
  alignedHandshake := true
  maySendApplicationData := false
  mayReceiveApplicationData := false
  sentFatalAlert := false
  hasReceivedCloseNotify := false
  hasSeenEof := false
  receivedMiddleboxCcs := 0
  messageFragmenter := .default
  receivedPlaintext := .new (some defaultReceivedPlaintextLimit)
  sendablePlaintext := .new (some defaultBufferLimit)
  sendableTls := .new (some defaultBufferLimit)
  queuedKeyUpdateMessage := none

variable (A : Aead κ) (s : CommonState κ)

def wantsWrite : Bool := !s.sendableTls.isEmpty

def isTls13 : Bool := s.negotiatedVersion == some .tlsV1_3

/-- `queue_tls_message`. -/
def queueTlsMessage (m : OpaqueMessage) : CommonState κ :=
  { s with sendableTls := s.sendableTls.append m.encode }

/-- `send_msg_encrypt`, with `send_single_fragment`. -/
def sendMsgEncrypt (single : CommonState κ → PlainMessage → Walk (CommonState κ)) (m : PlainMessage) :
    Walk (CommonState κ) :=
  (s.messageFragmenter.fragmentMessage m).foldlM single s

/-- `send_msg`, with `send_single_fragment`. -/
def sendMsg (single : CommonState κ → PlainMessage → Walk (CommonState κ)) (m : PlainMessage) (mustEncrypt : Bool) :
    Walk (CommonState κ) :=
  if mustEncrypt then s.sendMsgEncrypt single m
  else ok ((s.messageFragmenter.fragmentMessage m).foldl (fun s m => s.queueTlsMessage m.intoUnencryptedOpaque) s)

/-- `send_warning_alert_no_log`, with `send_single_fragment`. -/
def sendWarning (single : CommonState κ → PlainMessage → Walk (CommonState κ)) (desc : AlertDescription) :
    Walk (CommonState κ) :=
  s.sendMsg single (buildAlert .warning desc) s.recordLayer.isEncrypting

/-- The warning in front of a fragment, when the sequence numbers run out. -/
def sendWarningBefore (single : CommonState κ → PlainMessage → Walk (CommonState κ)) : Walk (CommonState κ) :=
  if s.recordLayer.wantsCloseBeforeEncrypt then s.sendWarning single .closeNotify else ok s

/-- `send_single_fragment`. -/
def sendSingleFragment : ℕ → CommonState κ → PlainMessage → Walk (CommonState κ)
  | 0, _, _ => outOfFuel
  | stack + 1, s, m => do
    let s ← s.sendWarningBefore (sendSingleFragment stack)
    if s.recordLayer.encryptExhausted then ok s
    else
      let (em, recordLayer) ← s.recordLayer.encryptOutgoing A m
      ok ({ s with recordLayer := recordLayer }.queueTlsMessage em)

variable (stack : ℕ)

/-- `send_appdata_encrypt`: how much is accepted. -/
def sendAppdataEncrypt (payload : List UInt8) (limit : Limit) : Walk (ℕ × CommonState κ) := do
  let len := match limit with
    | .yes => s.sendableTls.applyLimit payload.length
    | .no => payload.length
  let fragments := s.messageFragmenter.fragmentSlice .applicationData .tlsV1_2 (payload.take len)
  let s ← fragments.foldlM (sendSingleFragment A stack) s
  return (len, s)

/-- `send_plain`: how much is accepted. -/
def sendPlain (data : List UInt8) (limit : Limit) : Walk (ℕ × CommonState κ) :=
  if !s.maySendApplicationData then
    match limit with
    | .yes =>
      let (len, sendablePlaintext) := s.sendablePlaintext.appendLimitedCopy data
      ok (len, { s with sendablePlaintext := sendablePlaintext })
    | .no => ok (data.length, { s with sendablePlaintext := s.sendablePlaintext.append data })
  else if data = [] then ok (0, s)
  else s.sendAppdataEncrypt A stack data limit

/-- `perhaps_write_key_update`. -/
def perhapsWriteKeyUpdate : CommonState κ :=
  match s.queuedKeyUpdateMessage with
  | some message => { s with sendableTls := s.sendableTls.append message, queuedKeyUpdateMessage := none }
  | none => s

/-- `send_some_plaintext`: how much is accepted. -/
def sendSomePlaintext (data : List UInt8) : Walk (ℕ × CommonState κ) :=
  s.perhapsWriteKeyUpdate.sendPlain A stack data .yes

/-- The loop of `flush_plaintext`. -/
def flushLoop : ℕ → CommonState κ → Walk (CommonState κ)
  | 0, _ => outOfFuel
  | fuel + 1, s =>
    match s.sendablePlaintext.pop with
    | none => ok s
    | some (buf, sendablePlaintext) => do
      let (_, s) ← { s with sendablePlaintext := sendablePlaintext }.sendPlain A stack buf .no
      flushLoop fuel s

/-- `flush_plaintext`. -/
def flushPlaintext : Walk (CommonState κ) :=
  if !s.maySendApplicationData then ok s
  else flushLoop A stack (s.sendablePlaintext.chunks.length + 1) s

/-- `start_outgoing_traffic`. -/
def startOutgoingTraffic : Walk (CommonState κ) :=
  flushPlaintext A { s with maySendApplicationData := true } stack

/-- `start_traffic`. -/
def startTraffic : Walk (CommonState κ) :=
  startOutgoingTraffic A { s with mayReceiveApplicationData := true } stack

/-- `send_close_notify`. -/
def sendCloseNotify : Walk (CommonState κ) := s.sendWarning (sendSingleFragment A stack) .closeNotify

/-- `send_warning_alert`. -/
def sendWarningAlert (desc : AlertDescription) : Walk (CommonState κ) :=
  s.sendWarning (sendSingleFragment A stack) desc

/-- `send_fatal_alert`, which hands on its error. -/
def sendFatalAlert (desc : AlertDescription) : Walk (CommonState κ) := do
  let s ← s.sendMsg (sendSingleFragment A stack) (buildAlert .fatal desc) s.recordLayer.isEncrypting
  return { s with sentFatalAlert := true }

/-- `enqueue_key_update_notification`. -/
def enqueueKeyUpdateNotification : Walk (CommonState κ) := do
  let (em, recordLayer) ← s.recordLayer.encryptOutgoing A buildKeyUpdateNotify
  return { s with recordLayer := recordLayer, queuedKeyUpdateMessage := some em.encode }

/-- `take_received_plaintext`. -/
def takeReceivedPlaintext (bytes : List UInt8) : CommonState κ :=
  { s with receivedPlaintext := s.receivedPlaintext.append bytes }

/-- `wants_read`. -/
def wantsRead : Bool :=
  s.receivedPlaintext.isEmpty && !s.hasReceivedCloseNotify && (s.maySendApplicationData || s.sendableTls.isEmpty)

end CommonState

end RXCore.Rustls
