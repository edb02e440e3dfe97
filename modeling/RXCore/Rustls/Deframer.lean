import RXCore.Rustls.RecordLayer

/-!
# The deframer

`MessageDeframer` keeps what was read from a socket in one buffer, and takes records off its front. The payloads
of handshake records are decrypted and moved together in the same buffer, until a whole handshake message is there.

* `MessageDeframer` with `payloadSize`, `discard`, `appendHs`: the buffer with its offsets, where an access outside
  of it panics;
* `popTurn`, `popLoop`, `popYield`, `pop`: the next message;
* `prepareRead`, `read`: the next bytes from a socket.
-/

set_option autoImplicit false

namespace RXCore.Rustls

open Cursor Cursor.Walk

/-- `Range<usize>`. -/
structure Range where
  start : ℕ
  stop : ℕ
deriving DecidableEq

/-- `Range::len`. -/
def Range.len (r : Range) : ℕ := r.stop - r.start

/-- `HandshakePayloadMeta`. -/
structure HandshakePayloadMeta where
  message : Range
  payload : Range
  version : ProtocolVersion
  expectedLen : Option ℕ
deriving DecidableEq

structure MessageDeframer where
  lastError : Option Error
  buf : List UInt8
  joiningHs : Option HandshakePayloadMeta
  used : ℕ
deriving DecidableEq

/-- `Deframed`. -/
structure Deframed where
  wantCloseBeforeDecrypt : Bool
  aligned : Bool
  trialDecryptionFinished : Bool
  message : PlainMessage
deriving DecidableEq

/-- `HandshakePayloadState`. -/
inductive HandshakePayloadState where
  | blocked
  | complete (len : ℕ)
  | continue

/-- `HEADER_SIZE` of a handshake message. -/
def hsHeaderSize : ℕ := 1 + 3

/-- `MAX_HANDSHAKE_SIZE`. -/
def maxHandshakeSize : ℕ := 0xffff

/-- `READ_SIZE`. -/
def readSize : ℕ := 4096

/-- `payload_size`. -/
def payloadSize : List UInt8 → Except Error (Option ℕ)
  | _ :: a :: b :: c :: _ =>
    let len := (a.toNat * 256 + b.toNat) * 256 + c.toNat
    if maxHandshakeSize < len then .error (.invalidMessage .handshakePayloadTooLarge)
    else .ok (some (hsHeaderSize + len))
  | _ => .ok none

/-- `copy_from_slice` to the bytes from `i` on. -/
def copyInto (buf : List UInt8) (i : ℕ) (bs : List UInt8) : Walk (List UInt8) :=
  if i + bs.length ≤ buf.length then ok (buf.take i ++ bs ++ buf.drop (i + bs.length)) else panic

namespace MessageDeframer

variable {κ : Type} (A : Aead κ)

/-- `MessageDeframer::default`. -/
def default : MessageDeframer := ⟨none, [], none, 0⟩

variable (d : MessageDeframer)

/-- `set_err`. -/
def setErr (error : Error) : MessageDeframer := { d with lastError := some error }

def discard (taken : ℕ) : Walk MessageDeframer :=
  if taken < d.used then do
    let pending ← sliceRange d.buf taken d.used
    let buf ← copyInto d.buf 0 pending
    return { d with buf := buf, used := d.used - taken }
  else if taken = d.used then ok { d with used := 0 }
  else ok d

/-- The result of `append_hs` for the handshake message that is being joined. -/
def hsState (joining : HandshakePayloadMeta) : HandshakePayloadState :=
  let incomplete : HandshakePayloadState := if joining.message.stop < d.used then .continue else .blocked
  match joining.expectedLen with
  | some len => if len ≤ joining.payload.len then .complete len else incomplete
  | none => incomplete

/-- `append_hs` outside QUIC. -/
def appendHs (version : ProtocolVersion) (payload : List UInt8) (stop : ℕ) :
    Walk (Except Error HandshakePayloadState × MessageDeframer) :=
  match d.joiningHs with
  | some joining => do
    let buf ← copyInto d.buf joining.payload.stop payload
    let joining := { joining with
      message := { joining.message with stop := stop }
      payload := { joining.payload with stop := joining.payload.stop + payload.length } }
    let d := { d with buf := buf, joiningHs := some joining }
    match joining.expectedLen with
    | some _ => return (.ok (d.hsState joining), d)
    | none =>
      let joined ← sliceRange buf joining.payload.start joining.payload.stop
      match payloadSize joined with
      | .error e => return (.error e, d)
      | .ok expectedLen =>
        let joining := { joining with expectedLen := expectedLen }
        return (.ok (d.hsState joining), { d with joiningHs := some joining })
  | none =>
    match payloadSize payload with
    | .error e => return (.error e, d)
    | .ok expectedLen => do
      let buf ← copyInto d.buf 0 payload
      let joining : HandshakePayloadMeta := ⟨⟨0, stop⟩, ⟨0, payload.length⟩, version, expectedLen⟩
      return (.ok (d.hsState joining), { d with buf := buf, joiningHs := some joining })

/-- The records that are taken as they are: changes of the cipher, and alerts of a peer that has not yet encrypted. -/
def allowedPlaintext (negotiatedVersion : Option ProtocolVersion) (hasDecrypted : Bool) (m : OpaqueMessage) : Bool :=
  match m.typ with
  | .changeCipherSpec => true
  | .alert => negotiatedVersion == some .tlsV1_3 && !hasDecrypted && decide (m.payload.length ≤ 2)
  | _ => false

/-- The error for a record that cannot be read; `none` if it is only too short. -/
def readErr : MessageError → Option Error
  | .tooShortForHeader | .tooShortForLength => none
  | .invalidEmptyPayload => some (.invalidMessage .invalidEmptyPayload)
  | .messageTooLarge => some (.invalidMessage .messageTooLarge)
  | .invalidContentType => some (.invalidMessage .invalidContentType)
  | .unknownProtocolVersion => some (.invalidMessage .unknownProtocolVersion)

/-- How a turn of the loop of `pop` ends: the function returns, the loop breaks or it goes on. -/
inductive Turn where
  | ret (r : Except Error (Option Deframed))
  | brk (expectedLen : ℕ)
  | again

/-- A record that is returned as it is. -/
def plain (message : PlainMessage) : Deframed := ⟨false, true, false, message⟩

/-- The end of a turn, after the decryption of a record that ends at `stop`. -/
def popDecrypted (decrypted : Option Decrypted) (stop : ℕ) : Walk (Turn × MessageDeframer) :=
  match decrypted with
  | none =>
    if d.joiningHs.isSome then
      let error := Error.peerMisbehaved .rejectedEarlyDataInterleavedWithHandshakeMessage
      return (.ret (.error error), d.setErr error)
    else do
      let d ← d.discard stop
      return (.again, d)
  | some decrypted =>
    let msg := decrypted.plaintext
    if d.joiningHs.isSome ∧ msg.typ ≠ .handshake then
      let error := Error.peerMisbehaved .messageInterleavedWithHandshakeMessage
      return (.ret (.error error), d.setErr error)
    else if msg.typ ≠ .handshake then do
      let d ← d.discard stop
      return (.ret (.ok (some (plain msg))), d)
    else do
      let (state, d) ← d.appendHs msg.version msg.payload stop
      match state with
      | .error e => return (.ret (.error e), d)
      | .ok .blocked => return (.ret (.ok none), d)
      | .ok (.complete len) => return (.brk len, d)
      | .ok .continue => return (.again, d)

/-- A turn from the record at `start` on. -/
def popRecord (negotiatedVersion : Option ProtocolVersion) (r : RecordLayer κ) (start : ℕ) :
    Walk (Turn × MessageDeframer × RecordLayer κ) := do
  let rd ← sliceRange d.buf start d.used
  match OpaqueMessage.read rd with
  | .error e =>
    match readErr e with
    | none => return (.ret (.ok none), d, r)
    | some error => return (.ret (.error error), d.setErr error, r)
  | .ok (m, rest) =>
    let stop := start + (rd.length - rest.length)
    if d.joiningHs.isNone ∧ allowedPlaintext negotiatedVersion r.hasDecrypted m then
      let d ← d.discard stop
      return (.ret (.ok (some (plain m.intoPlainMessage))), d, r)
    else
      let (decrypted, r) := r.decryptIncoming A m
      match decrypted with
      | .error e => return (.ret (.error e), d, r)
      | .ok decrypted =>
        let (turn, d) ← d.popDecrypted decrypted stop
        return (turn, d, r)

/-- A turn of the loop of `pop`. -/
def popTurn (negotiatedVersion : Option ProtocolVersion) (r : RecordLayer κ) :
    Walk (Turn × MessageDeframer × RecordLayer κ) :=
  match d.joiningHs with
  | some joining =>
    match joining.expectedLen with
    | some len =>
      if len ≤ joining.payload.len then ok (.brk len, d, r)
      else popRecord A d negotiatedVersion r joining.message.stop
    | none => popRecord A d negotiatedVersion r joining.message.stop
  | none => popRecord A d negotiatedVersion r 0

/-- The end of `pop`: the first `expectedLen` bytes of what was joined. -/
def popYield (expectedLen : ℕ) : Walk (Except Error (Option Deframed) × MessageDeframer) :=
  match d.joiningHs with
  | none => panic
  | some joining => do
    let payload ← sliceRange d.buf joining.payload.start (joining.payload.start + expectedLen)
    let message : PlainMessage := ⟨.handshake, joining.version, payload⟩
    if expectedLen < joining.payload.len then
      let joining := { joining with
        payload := { joining.payload with start := joining.payload.start + expectedLen } }
      let d := { d with joiningHs := some joining }
      let rest ← sliceRange d.buf joining.payload.start joining.payload.stop
      match payloadSize rest with
      | .error e => return (.error e, d)
      | .ok len =>
        let joining := { joining with expectedLen := len }
        return (.ok (some ⟨false, false, true, message⟩), { d with joiningHs := some joining })
    else
      let d ← discard { d with joiningHs := none } joining.message.stop
      return (.ok (some ⟨false, true, true, message⟩), d)

/-- The loop of `pop`, and what comes after it. -/
def popLoop (negotiatedVersion : Option ProtocolVersion) : ℕ → MessageDeframer → RecordLayer κ →
    Walk (Except Error (Option Deframed) × MessageDeframer × RecordLayer κ)
  | 0, _, _ => outOfFuel
  | fuel + 1, d, r => do
    let (turn, d, r) ← popTurn A d negotiatedVersion r
    match turn with
    | .ret res => return (res, d, r)
    | .again => popLoop negotiatedVersion fuel d r
    | .brk expectedLen =>
      let (res, d) ← d.popYield expectedLen
      return (res, d, r)

/-- `pop`; a turn of its loop that goes on has taken a record. -/
def pop (negotiatedVersion : Option ProtocolVersion) (r : RecordLayer κ) :
    Walk (Except Error (Option Deframed) × MessageDeframer × RecordLayer κ) :=
  match d.lastError with
  | some lastErr => ok (.error lastErr, d, r)
  | none =>
    if d.used = 0 then ok (.ok none, d, r) else popLoop A negotiatedVersion (d.used + 1) d r

/-- `has_pending`. -/
def hasPending : Bool := decide (0 < d.used)

/-- `Vec::resize` with zeros. -/
def resize (buf : List UInt8) (n : ℕ) : List UInt8 := buf.take n ++ List.replicate (n - buf.length) 0

/-- The bound of the buffer. -/
def allowMax : ℕ := if d.joiningHs.isSome then maxHandshakeSize else OpaqueMessage.maxWireSize

/-- `prepare_read`. -/
def prepareRead : Except String MessageDeframer :=
  if d.allowMax ≤ d.used then .error "message buffer full"
  else
    let needCapacity := min d.allowMax (d.used + readSize)
    if d.buf.length < needCapacity then .ok { d with buf := resize d.buf needCapacity }
    else if d.used = 0 ∨ d.allowMax < d.buf.length then .ok { d with buf := resize d.buf needCapacity }
    else .ok d

/-- `read` from a socket on which `rd` has arrived: how much of it is taken. -/
def read (rd : List UInt8) : Walk (Except String ℕ × MessageDeframer) :=
  match d.prepareRead with
  | .error error => ok (.error error, d)
  | .ok d => do
    let room ← sliceFrom d.buf d.used
    let newBytes := rd.take room.length
    let buf ← copyInto d.buf d.used newBytes
    return (.ok newBytes.length, { d with buf := buf, used := d.used + newBytes.length })

end MessageDeframer

end RXCore.Rustls
