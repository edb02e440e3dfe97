import RXCore.Lib.Channel
import RXCore.Lib.Parties
import RXCore.Lib.Run
import RXCore.Lib.Tables
import RXCore.Transport.Mux.Codec

/-!
# Mux connections and their streams

A connection has a writer task that takes frames from two queues, a reader task that decodes frames and passes
their payloads to the streams, and a map from identifiers to the senders of the streams. The senders of a stream's
incoming data are only in that map. The steps of the tasks, of the streams and of their leases come in any order.

* `MuxVirtualStream`, `MuxVirtualStream.pollRead`: a stream, with the history of what it was given and what it gave;
* `MuxConnection`: the queues, the map, the counters, the streams, the two tasks;
* the effects of the calls: `lease`, `opened`, `abandon`, `pollRead`, `pollWrite`, `pollShutdown`, `dropStream`;
* the tasks: `select`, `stop` for the writer, `dispatch` for the reader;
* `MuxConnection.step`: the connection as a transition system;
* `onLive_some`, `onOpening_some`: the state of the stream that takes a step; `lease_some` to `release_some`: what each
  of the other steps does;
* **`rest_of_ofStream`**: what the steps of streams and leases leave as it is; `opened_streams` to `dropStream_streams`:
  the streams after a call; `dispatch_getElem?`, `dispatch_same`: those after a dispatch.
-/

set_option autoImplicit false

namespace RXCore

open Channel Parties Encoding

/-- `std::task::Poll`. -/
inductive Poll (α : Type) where
  | pending
  | ready (a : α)
deriving DecidableEq

/-! ## Streams -/

/-- A stream is leased and has yet to send its open frame, is in use, or is no more. -/
inductive MuxPhase where
  | opening (target : String)
  | live
  | gone
deriving DecidableEq

/-- What has happened on a stream: the buffers that `poll_write` accepted before the first `poll_shutdown`, and whether
there was one; the frames that arrived for it, the bytes that were read, whether the end was reported, whether that was
before the peer had closed, and whether a read after it did anything else. -/
structure History where
  accepted : List (List UInt8)
  shut : Bool
  arrived : List (UInt8 × List UInt8)
  bytesRead : List UInt8
  ended : Bool
  early : Bool
  resumed : Bool

/-- `MuxVirtualStream`; the channel of its data has nobody who waits, since the reader only tries to send. -/
structure MuxVirtualStream where
  streamId : UInt32
  isUdp : Bool
  phase : MuxPhase
  rxData : Chan Empty (List UInt8)
  currentReadChunk : Option (List UInt8)
  chunk_ne_nil : currentReadChunk ≠ some []
  history : History

/-- A stream that has just been leased. -/
def MuxVirtualStream.new (streamId : UInt32) (isUdp : Bool) (target : String) : MuxVirtualStream :=
  ⟨streamId, isUdp, .opening target, .new 128, none, Option.some_ne_none _ |>.symm,
    ⟨[], false, [], [], false, false, false⟩⟩

/-- The stream exists, or its lease is in progress. -/
def MuxVirtualStream.present (st : MuxVirtualStream) : Bool := st.phase != .gone

/-- The identifier in the frames of the stream. -/
def MuxVirtualStream.wireId (st : MuxVirtualStream) : UInt32 := st.streamId &&& (0x3FFFFFFF : UInt32)

def MuxVirtualStream.openFrame (st : MuxVirtualStream) (target : String) : MuxFrame :=
  ⟨st.streamId, 1, utf8 target, st.isUdp⟩

def MuxVirtualStream.dataFrame (st : MuxVirtualStream) (buf : List UInt8) : MuxFrame := ⟨st.streamId, 0, buf, st.isUdp⟩

def MuxVirtualStream.closeFrame (st : MuxVirtualStream) : MuxFrame := ⟨st.streamId, 2, [], st.isUdp⟩

/-- Up to `n` bytes of a chunk, of which the rest is kept. -/
def MuxVirtualStream.takeChunk (st : MuxVirtualStream) (chunk : List UInt8) (n : ℕ) :
    MuxVirtualStream × Poll (List UInt8) :=
  let toRead := min chunk.length n
  ({ st with
      currentReadChunk := if (chunk.drop toRead).isEmpty then none else some (chunk.drop toRead)
      chunk_ne_nil := by
        split_ifs with h
        · exact Option.some_ne_none _ |>.symm
        · intro hnil
          rw [Option.some.inj hnil] at h
          exact h rfl },
    .ready (chunk.take toRead))

/-- `poll_read` into a buffer with room for `n` bytes, and what it puts there. -/
def MuxVirtualStream.pollRead (st : MuxVirtualStream) (senderAlive : Bool) (n : ℕ) :
    MuxVirtualStream × Poll (List UInt8) :=
  match st.currentReadChunk with
  | some chunk => st.takeChunk chunk n
  | none => match st.rxData.recv with
    | some (chunk, rxData) =>
      if chunk.isEmpty then ({ st with rxData := rxData }, .ready [])
      else { st with rxData := rxData }.takeChunk chunk n
    | none => (st, if senderAlive then .pending else .ready [])

/-! ## History -/

/-- A read with room for `n` bytes, when the stream may end or not. -/
def History.onRead (h : History) (n : ℕ) (mayEnd : Bool) : Poll (List UInt8) → History
  | .pending => { h with resumed := h.resumed || (h.ended && decide (0 < n)) }
  | .ready bs =>
    { h with
      bytesRead := h.bytesRead ++ bs
      ended := h.ended || (decide (0 < n) && bs.isEmpty)
      early := h.early || (decide (0 < n) && bs.isEmpty && !h.ended && !mayEnd)
      resumed := h.resumed || (h.ended && decide (0 < n) && !bs.isEmpty) }

/-- A write. -/
def History.onWrite (h : History) (buf : List UInt8) : Poll (Except String ℕ) → History
  | .ready (.ok _) => if h.shut then h else { h with accepted := h.accepted ++ [buf] }
  | _ => h

/-- The peer has closed the stream. -/
def History.closed (h : History) : Bool := h.arrived.any fun a => a.1 == 2

/-- A frame has arrived. -/
def MuxVirtualStream.note (f : InFrame) (st : MuxVirtualStream) : MuxVirtualStream :=
  if st.present && st.wireId == f.streamId then
    { st with history := { st.history with arrived := st.history.arrived ++ [(f.cmd, f.payload)] } }
  else st

/-! ## Connections -/

/-- The writer ends when it finds a queue without messages and senders, or when a write fails. -/
inductive WriterEnd where
  | closed
  | failed
deriving DecidableEq

/-- `MuxConnection` with its two tasks and all streams that it ever had. A message in a queue carries the stream that
sent it; `written` is what the writer has passed to `write_frame`, and `pooled` tells whether the pool has the
connection. -/
structure MuxConnection where
  txHigh : Chan ℕ (ℕ × MuxFrame)
  txLow : Chan ℕ (ℕ × MuxFrame)
  activeStreams : AList fun _ : UInt32 => ℕ
  nextStreamId : UInt32
  streamCount : UInt32
  pooled : Bool
  streams : List MuxVirtualStream
  consecutiveHigh : UInt32
  written : List (ℕ × MuxFrame)
  writerEnd : Option WriterEnd
  mainBuf : List UInt8
  readerEnd : Option ReaderEnd

namespace MuxConnection

/-- What `connect_one` returns. -/
def start : MuxConnection := ⟨.new 128, .new 1024, ∅, 1, 0, true, [], 0, [], none, [], none⟩

/-- The bytes that were written. -/
def wire (s : MuxConnection) : List UInt8 := s.written.flatMap fun m => writeFrame m.2

/-- The queue of a kind of streams. -/
def tx (s : MuxConnection) : Bool → Chan ℕ (ℕ × MuxFrame)
  | true => s.txHigh
  | false => s.txLow

def setTx (s : MuxConnection) (isUdp : Bool) (c : Chan ℕ (ℕ × MuxFrame)) : MuxConnection := match isUdp with
  | true => { s with txHigh := c }
  | false => { s with txLow := c }

def setStream (s : MuxConnection) (i : ℕ) (st : MuxVirtualStream) : MuxConnection :=
  { s with streams := s.streams.set i st }

/-- The sender of a stream's data is still in the map. -/
def senderAlive (s : MuxConnection) (i : ℕ) (st : MuxVirtualStream) : Bool :=
  s.activeStreams.lookup st.streamId == some i

/-! ## Calls -/

/-- The part of `lease_stream` up to its first await. -/
def lease (s : MuxConnection) (targetHost : String) (targetPort : UInt16) (isUdp : Bool) : MuxConnection :=
  { s with
    nextStreamId := s.nextStreamId + 1
    streamCount := s.streamCount + 1
    activeStreams := s.activeStreams.insert s.nextStreamId s.streams.length
    streams := s.streams ++ [.new s.nextStreamId isUdp (targetHost ++ ":" ++ toString targetPort.toNat)] }

/-- A poll of the sending of the open frame, which goes on waiting if there is no place. -/
def opened (s : MuxConnection) (i : ℕ) (st : MuxVirtualStream) (target : String) : MuxConnection :=
  let sent := (s.tx st.isUdp).pollSend i (i, st.openFrame target)
  (s.setTx st.isUdp sent.1).setStream i { st with phase := if sent.2 then .live else st.phase }

/-- The sending of the open frame fails, or is cancelled: the stream has not been built, so nothing is undone. -/
def abandon (s : MuxConnection) (i : ℕ) (st : MuxVirtualStream) : MuxConnection :=
  (s.setTx st.isUdp ((s.tx st.isUdp).leave i)).setStream i { st with phase := .gone }

def pollRead (s : MuxConnection) (i : ℕ) (st : MuxVirtualStream) (n : ℕ) : MuxConnection × Poll (List UInt8) :=
  let r := st.pollRead (s.senderAlive i st) n
  (s.setStream i { r.1 with history := st.history.onRead n (st.history.closed || s.readerEnd.isSome) r.2 }, r.2)

def pollWrite (s : MuxConnection) (i : ℕ) (st : MuxVirtualStream) (buf : List UInt8) :
    MuxConnection × Poll (Except String ℕ) :=
  if s.writerEnd.isSome then (s, .ready (.error "Connection closed"))
  else
    let sent := (s.tx st.isUdp).pollSend i (i, st.dataFrame buf)
    let r := if sent.2 then .ready (.ok buf.length) else .pending
    ((s.setTx st.isUdp sent.1).setStream i { st with history := st.history.onWrite buf r }, r)

/-- `tx.try_send` of a stream, whose failure is ignored. -/
def trySend (s : MuxConnection) (i : ℕ) (st : MuxVirtualStream) (frame : MuxFrame) : MuxConnection :=
  if s.writerEnd.isSome then s else s.setTx st.isUdp ((s.tx st.isUdp).trySend (i, frame))

/-- `poll_shutdown`, which is ready at once. -/
def pollShutdown (s : MuxConnection) (i : ℕ) (st : MuxVirtualStream) : MuxConnection :=
  (s.trySend i st st.closeFrame).setStream i { st with history := { st.history with shut := true } }

/-- `Drop for MuxVirtualStream`, and then the drop of its sender. -/
def dropStream (s : MuxConnection) (i : ℕ) (st : MuxVirtualStream) : MuxConnection :=
  let s := s.trySend i st st.closeFrame
  { (s.setTx st.isUdp ((s.tx st.isUdp).leave i)).setStream i { st with phase := .gone } with
    activeStreams := s.activeStreams.erase st.streamId
    streamCount := s.streamCount - 1 }

/-! ## The writer -/

/-- All senders of a queue are dropped. -/
def closed (s : MuxConnection) (isUdp : Bool) : Bool :=
  !s.pooled && !s.streams.any fun st => st.present && st.isUdp == isUdp

/-- `rx.recv()`: a message, or none if there will not be any. -/
def recv (s : MuxConnection) (isUdp : Bool) : Poll (Option ((ℕ × MuxFrame) × Chan ℕ (ℕ × MuxFrame))) :=
  match (s.tx isUdp).recv with
  | some m => .ready (some m)
  | none => if s.closed isUdp then .ready none else .pending

/-- The queue that is tried first. -/
def first (s : MuxConnection) : Bool := decide (s.consecutiveHigh < 32)

/-- `tokio::select!`, biased: what is received, and from which queue. -/
def select (s : MuxConnection) : Bool × Poll (Option ((ℕ × MuxFrame) × Chan ℕ (ℕ × MuxFrame))) :=
  match s.recv s.first with
  | .ready m => (s.first, .ready m)
  | .pending => (!s.first, s.recv !s.first)

/-- The writer takes a frame and passes it to `write_frame`. -/
def taken (s : MuxConnection) (isUdp : Bool) (m : ℕ × MuxFrame) (c : Chan ℕ (ℕ × MuxFrame)) : MuxConnection :=
  { s.setTx isUdp c with
    consecutiveHigh := if isUdp then s.consecutiveHigh + 1 else 0
    written := s.written ++ [m] }

/-- The writer ends, and drops the queues with what is in them. -/
def stop (s : MuxConnection) (e : WriterEnd) : MuxConnection :=
  { s with writerEnd := some e, txHigh := .new 128, txLow := .new 1024 }

/-! ## The reader -/

/-- `tx.try_send(chunk)` to a stream, whose failure is ignored. -/
def deliver (s : MuxConnection) (j : ℕ) (chunk : List UInt8) : MuxConnection :=
  { s with streams := s.streams.modify j fun st =>
      if st.present then { st with rxData := st.rxData.trySend chunk } else st }

/-- A decoded frame in the history of its streams. -/
def noted (s : MuxConnection) (f : InFrame) : MuxConnection :=
  { s with streams := s.streams.map (MuxVirtualStream.note f) }

/-- A decoded frame goes to the stream that the map has for its identifier. -/
def dispatch (s : MuxConnection) (f : InFrame) : MuxConnection :=
  match s.activeStreams.lookup f.streamId with
  | none => s.noted f
  | some j =>
    if f.cmd = 0 then (s.noted f).deliver j f.payload else if f.cmd = 2 then (s.noted f).deliver j [] else s.noted f

/-! ## Steps -/

/-- Do something on a stream in use. -/
def onLive (s : MuxConnection) (i : ℕ) (f : MuxVirtualStream → MuxConnection) : Option MuxConnection :=
  match s.streams[i]? with
  | some st => if st.phase = .live then some (f st) else none
  | none => none

/-- Do something on a stream that is being opened. -/
def onOpening (s : MuxConnection) (i : ℕ) (f : MuxVirtualStream → String → MuxConnection) : Option MuxConnection :=
  match s.streams[i]? with
  | some st => match st.phase with
    | .opening target => some (f st target)
    | _ => none
  | none => none

end MuxConnection

/-- What happens on a connection: the steps of a lease, the polls of a stream and its drop, a read, dispatch or the end
of the reader, a turn of the writer or a failing write, and the pool's drop of the connection. -/
inductive MuxEvent where
  | lease (targetHost : String) (targetPort : UInt16) (isUdp : Bool)
  | opened (i : ℕ)
  | abandon (i : ℕ)
  | pollRead (i n : ℕ)
  | pollWrite (i : ℕ) (buf : List UInt8)
  | pollShutdown (i : ℕ)
  | dropStream (i : ℕ)
  | read (bs : List UInt8)
  | dispatch (capacity : ℕ)
  | readEnd (failed : Bool)
  | write
  | writeFail
  | release

/-- One step; `none` is a step that cannot be taken. -/
def MuxConnection.step (s : MuxConnection) : MuxEvent → Option MuxConnection
  | .lease targetHost targetPort isUdp => if s.pooled then some (s.lease targetHost targetPort isUdp) else none
  | .opened i => if s.writerEnd.isNone then s.onOpening i (s.opened i) else none
  | .abandon i => s.onOpening i fun st _ => s.abandon i st
  | .pollRead i n => s.onLive i fun st => (s.pollRead i st n).1
  | .pollWrite i buf => s.onLive i fun st => (s.pollWrite i st buf).1
  | .pollShutdown i => s.onLive i (s.pollShutdown i)
  | .dropStream i => s.onLive i (s.dropStream i)
  | .read bs =>
    if s.readerEnd.isNone ∧ nextFrame s.mainBuf = none ∧ bs ≠ [] then some { s with mainBuf := s.mainBuf ++ bs }
    else none
  | .dispatch capacity => if s.readerEnd.isNone then match nextFrame s.mainBuf with
      | some (f, rest) => some { s.dispatch f with mainBuf := renewBuf capacity rest }
      | none => none
    else none
  | .readEnd failed =>
    if s.readerEnd.isNone ∧ nextFrame s.mainBuf = none then
      some { s with
        readerEnd := some (if failed then .failed else if s.mainBuf.length < 6 then .eof else .truncated) }
    else none
  | .write => if s.writerEnd.isNone then match s.select with
      | (isUdp, .ready (some (m, c))) => some (s.taken isUdp m c)
      | (_, .ready none) => some (s.stop .closed)
      | (_, .pending) => none
    else none
  | .writeFail => if s.writerEnd.isNone then some (s.stop .failed) else none
  | .release => if s.pooled then some { s with pooled := false } else none

namespace MuxConnection

/-! ## The parts of a connection -/

section parts

variable {s s' : MuxConnection} {i : ℕ} {isUdp : Bool} {c : Chan ℕ (ℕ × MuxFrame)} {st : MuxVirtualStream}

@[simp] theorem tx_setTx (s : MuxConnection) (isUdp : Bool) (c : Chan ℕ (ℕ × MuxFrame)) :
    (s.setTx isUdp c).tx isUdp = c := by
  cases isUdp <;> rfl

theorem tx_setTx_ne {isUdp' : Bool} (h : isUdp' ≠ isUdp) : (s.setTx isUdp c).tx isUdp' = s.tx isUdp' := by
  cases isUdp <;> cases isUdp' <;> first | rfl | exact absurd rfl h

@[simp] theorem setTx_activeStreams : (s.setTx isUdp c).activeStreams = s.activeStreams := by cases isUdp <;> rfl
@[simp] theorem setTx_nextStreamId : (s.setTx isUdp c).nextStreamId = s.nextStreamId := by cases isUdp <;> rfl
@[simp] theorem setTx_streamCount : (s.setTx isUdp c).streamCount = s.streamCount := by cases isUdp <;> rfl
@[simp] theorem setTx_pooled : (s.setTx isUdp c).pooled = s.pooled := by cases isUdp <;> rfl
@[simp] theorem setTx_streams : (s.setTx isUdp c).streams = s.streams := by cases isUdp <;> rfl
@[simp] theorem setTx_consecutiveHigh : (s.setTx isUdp c).consecutiveHigh = s.consecutiveHigh := by
  cases isUdp <;> rfl
@[simp] theorem setTx_written : (s.setTx isUdp c).written = s.written := by cases isUdp <;> rfl
@[simp] theorem setTx_writerEnd : (s.setTx isUdp c).writerEnd = s.writerEnd := by cases isUdp <;> rfl
@[simp] theorem setTx_mainBuf : (s.setTx isUdp c).mainBuf = s.mainBuf := by cases isUdp <;> rfl
@[simp] theorem setTx_readerEnd : (s.setTx isUdp c).readerEnd = s.readerEnd := by cases isUdp <;> rfl

section taken

variable {m : ℕ × MuxFrame}

@[simp] theorem taken_streams : (s.taken isUdp m c).streams = s.streams := by cases isUdp <;> rfl
@[simp] theorem taken_writerEnd : (s.taken isUdp m c).writerEnd = s.writerEnd := by cases isUdp <;> rfl
@[simp] theorem taken_readerEnd : (s.taken isUdp m c).readerEnd = s.readerEnd := by cases isUdp <;> rfl

theorem taken_tx (b : Bool) : (s.taken isUdp m c).tx b = (s.setTx isUdp c).tx b := by cases b <;> rfl

end taken

@[simp] theorem setStream_tx (b : Bool) : (s.setStream i st).tx b = s.tx b := by cases b <;> rfl

theorem onLive_some {f : MuxVirtualStream → MuxConnection} (h : s.onLive i f = some s') :
    ∃ st, s.streams[i]? = some st ∧ st.phase = .live ∧ s' = f st := by
  unfold onLive at h
  split at h
  · next st hst =>
    split_ifs at h with hlive
    exact ⟨st, hst, hlive, (Option.some.inj h).symm⟩
  · cases h

theorem onLive_eq {f : MuxVirtualStream → MuxConnection} (hst : s.streams[i]? = some st) (hlive : st.phase = .live) :
    s.onLive i f = some (f st) := by
  unfold onLive
  rw [hst]
  exact if_pos hlive

theorem onOpening_some {f : MuxVirtualStream → String → MuxConnection} (h : s.onOpening i f = some s') :
    ∃ st target, s.streams[i]? = some st ∧ st.phase = .opening target ∧ s' = f st target := by
  unfold onOpening at h
  split at h
  · next st hst =>
    split at h
    · next target hphase => exact ⟨st, target, hst, hphase, (Option.some.inj h).symm⟩
    · cases h
  · cases h

theorem onOpening_eq {f : MuxVirtualStream → String → MuxConnection} {target : String}
    (hst : s.streams[i]? = some st) (hphase : st.phase = .opening target) : s.onOpening i f = some (f st target) := by
  unfold onOpening
  rw [hst]
  simp only [hphase]

end parts

end MuxConnection

/-! ## What a step does -/

section inversion

variable {s s' : MuxConnection}

theorem lease_some {targetHost : String} {targetPort : UInt16} {isUdp : Bool}
    (h : s.step (.lease targetHost targetPort isUdp) = some s') :
    s.pooled = true ∧ s' = s.lease targetHost targetPort isUdp := by
  simp only [MuxConnection.step] at h
  split_ifs at h with hp
  exact ⟨hp, (Option.some.inj h).symm⟩

theorem opened_some {i : ℕ} (h : s.step (.opened i) = some s') :
    s.writerEnd = none ∧ ∃ st target, s.streams[i]? = some st ∧ st.phase = .opening target ∧
      s' = s.opened i st target := by
  simp only [MuxConnection.step] at h
  split_ifs at h with hw
  exact ⟨Option.isNone_iff_eq_none.mp hw, MuxConnection.onOpening_some h⟩

theorem read_some {bs : List UInt8} (h : s.step (.read bs) = some s') :
    s.readerEnd = none ∧ nextFrame s.mainBuf = none ∧ s' = { s with mainBuf := s.mainBuf ++ bs } := by
  simp only [MuxConnection.step] at h
  split_ifs at h with hr
  exact ⟨Option.isNone_iff_eq_none.mp hr.1, hr.2.1, (Option.some.inj h).symm⟩

theorem dispatch_some {capacity : ℕ} (h : s.step (.dispatch capacity) = some s') :
    s.readerEnd = none ∧ ∃ f rest, nextFrame s.mainBuf = some (f, rest) ∧
      s' = { s.dispatch f with mainBuf := rest } := by
  simp only [MuxConnection.step] at h
  split_ifs at h with hr
  split at h
  · next f rest hnext =>
    rw [renewBuf_eq] at h
    exact ⟨Option.isNone_iff_eq_none.mp hr, f, rest, hnext, (Option.some.inj h).symm⟩
  · cases h

theorem readEnd_some {failed : Bool} (h : s.step (.readEnd failed) = some s') :
    s.readerEnd = none ∧ ∃ e, s' = { s with readerEnd := some e } := by
  simp only [MuxConnection.step] at h
  split_ifs at h with hr <;> exact ⟨Option.isNone_iff_eq_none.mp hr.1, _, (Option.some.inj h).symm⟩

theorem write_some (h : s.step .write = some s') :
    s.writerEnd = none ∧ ((∃ isUdp m c, s.select = (isUdp, .ready (some (m, c))) ∧ s' = s.taken isUdp m c) ∨
      (∃ isUdp, s.select = (isUdp, .ready none)) ∧ s' = s.stop .closed) := by
  simp only [MuxConnection.step] at h
  split_ifs at h with hw
  refine ⟨Option.isNone_iff_eq_none.mp hw, ?_⟩
  split at h
  · next isUdp m c hsel => exact .inl ⟨isUdp, m, c, hsel, (Option.some.inj h).symm⟩
  · next isUdp hsel => exact .inr ⟨⟨isUdp, hsel⟩, (Option.some.inj h).symm⟩
  · cases h

theorem writeFail_some (h : s.step .writeFail = some s') : s.writerEnd = none ∧ s' = s.stop .failed := by
  simp only [MuxConnection.step] at h
  split_ifs at h with hw
  exact ⟨Option.isNone_iff_eq_none.mp hw, (Option.some.inj h).symm⟩

theorem release_some (h : s.step .release = some s') : s' = { s with pooled := false } := by
  simp only [MuxConnection.step] at h
  split_ifs at h
  exact (Option.some.inj h).symm

end inversion

/-- The steps of streams and leases. -/
def MuxEvent.ofStream : MuxEvent → Bool
  | .lease .. | .opened _ | .abandon _ | .pollRead .. | .pollWrite .. | .pollShutdown _ | .dropStream _ => true
  | _ => false

namespace MuxConnection

section rest

variable {s s' : MuxConnection} {i : ℕ} {st : MuxVirtualStream}

/-- The parts of a connection that the streams and their leases do not change. -/
def rest (s : MuxConnection) :
    Bool × UInt32 × List (ℕ × MuxFrame) × Option WriterEnd × List UInt8 × Option ReaderEnd :=
  (s.pooled, s.consecutiveHigh, s.written, s.writerEnd, s.mainBuf, s.readerEnd)

theorem setTx_rest (isUdp : Bool) (c : Chan ℕ (ℕ × MuxFrame)) : (s.setTx isUdp c).rest = s.rest := by
  cases isUdp <;> rfl

theorem trySend_rest (frame : MuxFrame) : (s.trySend i st frame).rest = s.rest := by
  unfold trySend
  split_ifs
  · rfl
  · exact setTx_rest ..

/-- **Streams and leases leave the tasks alone.** -/
theorem rest_of_ofStream {e : MuxEvent} (h : s.step e = some s') (he : e.ofStream = true) : s'.rest = s.rest := by
  cases e with
  | lease targetHost targetPort isUdp =>
    obtain ⟨-, rfl⟩ := lease_some h
    rfl
  | opened i =>
    obtain ⟨-, st, target, -, -, rfl⟩ := opened_some h
    exact setTx_rest ..
  | abandon i =>
    obtain ⟨st, target, -, -, rfl⟩ := onOpening_some h
    exact setTx_rest ..
  | pollRead i n =>
    obtain ⟨st, -, -, rfl⟩ := onLive_some h
    rfl
  | pollWrite i buf =>
    obtain ⟨st, -, -, rfl⟩ := onLive_some h
    rw [pollWrite]
    split_ifs
    · rfl
    · exact setTx_rest ..
  | pollShutdown i =>
    obtain ⟨st, -, -, rfl⟩ := onLive_some h
    exact trySend_rest ..
  | dropStream i =>
    obtain ⟨st, -, -, rfl⟩ := onLive_some h
    exact (setTx_rest ..).trans (trySend_rest ..)
  | read bs | dispatch capacity | readEnd failed => cases he
  | write | writeFail | release => cases he

end rest

/-! ## The streams after a call -/

section streams

variable {s : MuxConnection} {i : ℕ} {st : MuxVirtualStream}

@[simp] theorem trySend_streams (frame : MuxFrame) : (s.trySend i st frame).streams = s.streams := by
  unfold trySend
  split_ifs
  · rfl
  · exact setTx_streams

theorem opened_streams (target : String) : (s.opened i st target).streams = s.streams.set i
    { st with phase := if (s.tx st.isUdp).Ready i then .live else st.phase } := by
  rw [opened, Chan.pollSend_sent]
  simp only [setStream, setTx_streams, decide_eq_true_eq]

theorem abandon_streams : (s.abandon i st).streams = s.streams.set i { st with phase := .gone } := by
  simp only [abandon, setStream, setTx_streams]

theorem pollRead_streams (n : ℕ) : (s.pollRead i st n).1.streams = s.streams.set i
    { (st.pollRead (s.senderAlive i st) n).1 with
      history := st.history.onRead n (st.history.closed || s.readerEnd.isSome)
        (st.pollRead (s.senderAlive i st) n).2 } := rfl

/-- A write that is accepted is recorded in the history. -/
theorem pollWrite_streams (hst : s.streams[i]? = some st) (buf : List UInt8) :
    (s.pollWrite i st buf).1.streams = s.streams.set i { st with
      history := if s.writerEnd = none ∧ (s.tx st.isUdp).Ready i ∧ st.history.shut = false then
        { st.history with accepted := st.history.accepted ++ [buf] } else st.history } := by
  unfold pollWrite
  by_cases hw : s.writerEnd.isSome
  · rw [if_pos hw, if_neg (fun h => by rw [h.1] at hw; cases hw)]
    exact (set_of_getElem? hst).symm
  · rw [if_neg hw]
    rw [Option.not_isSome_iff_eq_none] at hw
    simp only [Chan.pollSend_sent, setStream, setTx_streams, hw, true_and, decide_eq_true_eq]
    refine congrArg (s.streams.set i ·) ?_
    by_cases hr : (s.tx st.isUdp).Ready i
    · cases hsh : st.history.shut <;> simp [hr, History.onWrite, hsh]
    · simp [hr, History.onWrite]

theorem pollShutdown_streams : (s.pollShutdown i st).streams = s.streams.set i
    { st with history := { st.history with shut := true } } := by
  simp only [pollShutdown, setStream, trySend_streams]

theorem dropStream_streams : (s.dropStream i st).streams = s.streams.set i { st with phase := .gone } := by
  simp only [dropStream, setStream, setTx_streams, trySend_streams]

end streams

end MuxConnection

/-! ## The streams after a dispatch -/

/-- What the reader does to a stream that the map leads to. -/
def MuxVirtualStream.taking (f : InFrame) (st : MuxVirtualStream) : MuxVirtualStream :=
  let push := fun chunk => if st.present then { st with rxData := st.rxData.trySend chunk } else st
  if f.cmd = 0 then push f.payload else if f.cmd = 2 then push [] else st

section dispatch

variable {s : MuxConnection} {f : InFrame} {j : ℕ}

theorem deliver_getElem? (i : ℕ) (chunk : List UInt8) : (s.deliver i chunk).streams[j]? =
    s.streams[j]?.map fun st =>
      if i = j then (if st.present then { st with rxData := st.rxData.trySend chunk } else st) else st := by
  rw [MuxConnection.deliver, List.getElem?_modify]
  rfl

/-- A stream after a dispatch. -/
theorem dispatch_getElem? : (s.dispatch f).streams[j]? = s.streams[j]?.map fun st =>
    if s.activeStreams.lookup f.streamId = some j then (st.note f).taking f else st.note f := by
  have hnoted : (s.noted f).streams[j]? = s.streams[j]?.map (MuxVirtualStream.note f) := List.getElem?_map ..
  unfold MuxConnection.dispatch
  split
  · next hl => simp only [hl, hnoted, reduceCtorEq, if_false]
  · next i hl =>
    simp only [hl, Option.some.injEq, MuxVirtualStream.taking]
    by_cases h0 : f.cmd = 0
    · simp only [h0, if_true]
      rw [deliver_getElem?, hnoted, Option.map_map]
      rfl
    · by_cases h2 : f.cmd = 2
      · simp only [h2, if_true]
        rw [if_neg (by decide), deliver_getElem?, hnoted, Option.map_map]
        rfl
      · simp only [h0, h2, if_false, ite_self, hnoted]

/-- A dispatch changes the streams only. -/
theorem dispatch_eq (s : MuxConnection) (f : InFrame) : ∃ streams, s.dispatch f = { s with streams := streams } := by
  unfold MuxConnection.dispatch
  split
  · exact ⟨_, rfl⟩
  · split_ifs <;> exact ⟨_, rfl⟩

theorem note_same (f : InFrame) (st : MuxVirtualStream) : (st.note f).streamId = st.streamId ∧
    (st.note f).isUdp = st.isUdp ∧ (st.note f).phase = st.phase ∧ (st.note f).history.accepted = st.history.accepted ∧
      (st.note f).history.shut = st.history.shut := by
  unfold MuxVirtualStream.note
  split_ifs <;> exact ⟨rfl, rfl, rfl, rfl, rfl⟩

theorem taking_same (f : InFrame) (st : MuxVirtualStream) : (st.taking f).streamId = st.streamId ∧
    (st.taking f).isUdp = st.isUdp ∧ (st.taking f).phase = st.phase ∧ (st.taking f).history = st.history := by
  unfold MuxVirtualStream.taking
  split_ifs <;> exact ⟨rfl, rfl, rfl, rfl⟩

/-- What a dispatch leaves of a stream. -/
theorem dispatch_same (j : ℕ) : ∃ g : MuxVirtualStream → MuxVirtualStream,
    (s.dispatch f).streams[j]? = s.streams[j]?.map g ∧ ∀ st, (g st).streamId = st.streamId ∧ (g st).isUdp = st.isUdp ∧
      (g st).phase = st.phase ∧ (g st).history.accepted = st.history.accepted ∧
        (g st).history.shut = st.history.shut := by
  refine ⟨_, dispatch_getElem?, fun st => ?_⟩
  obtain ⟨h1, h2, h3, h4, h5⟩ := note_same f st
  obtain ⟨t1, t2, t3, t4⟩ := taking_same f (st.note f)
  split_ifs
  · exact ⟨t1.trans h1, t2.trans h2, t3.trans h3, by rw [t4, h4], by rw [t4, h5]⟩
  · exact ⟨h1, h2, h3, h4, h5⟩

end dispatch

end RXCore
