import RXCore.Dispatcher
import RXCore.Dispatcher.Sniffer
import RXCore.Inbound
import RXCore.Outbound.Uploads

/-!
# Looking into a connection

`sniff_sni` looks at the first bytes of a plain connection without taking them off it. The handler of the
connection then reads it from its start.

* `InboundStream`, `peek`, `sniffSni`, `dispatchStream`;
* `parseSniFromBytes_cut`: a record that the buffer cuts off;
* `Sniffed`: the name is found, and the destination still gets the whole stream;
* **`sniffed_iff`**: that is so if and only if the record fits the buffer of 1024 bytes;
* **`largeHello_missed`**: a message with a large key share.
-/

set_option autoImplicit false

namespace RXCore

open Arrivals Encoding Tls

/-! ## The sniffer -/

/-- A connection whose request header has been read. -/
structure InboundStream where
  variant : InboundTransportStream
  /-- What has arrived and waits to be read. -/
  arrived : List UInt8
  later : List (Arrival UInt8)

/-- What the next reads find. -/
def InboundStream.reader (c : InboundStream) : List (Arrival UInt8) := putBack c.arrived c.later

/-- A read into a buffer of `cap` bytes that leaves what it finds where it is. It waits only while nothing has arrived;
`none` for a fault, or when the time for it runs out. -/
def InboundStream.peek (cap : ℕ) (timedOut : Bool) (c : InboundStream) : Option (List UInt8) × InboundStream :=
  match c.arrived with
  | [] => (if timedOut then none else (recv cap c.later).1, c)
  | b :: bs => (some ((b :: bs).take cap), c)

/-- `sniff_sni`; `timedOut` is that 100 milliseconds pass before anything arrives. -/
def sniffSni (timedOut : Bool) (c : InboundStream) : Option String × InboundStream :=
  match c.variant with
  | .plain =>
    let (buf, c) := c.peek 1024 timedOut
    (buf.bind parseSniFromBytes, c)
  | .tls => (none, c)
  | .reality => (none, c)

/-- What a request says, and what is drawn for it. -/
structure RequestHeader where
  target : Target
  cmd : UInt8
  inboundTag : String
  clientAddr : String
  connId : Uuid

/-- `dispatch_connection`, with its look into the stream. -/
def dispatchStream (X : Crates) (s : EngineState) (userUuid : Uuid) (p : RequestHeader) (timedOut : Bool)
    (c : InboundStream) : Except String (Option (EngineState × Relay)) :=
  let (sni, c) := sniffSni timedOut c
  dispatchConnection X s userUuid ⟨p.target, p.cmd, p.inboundTag, p.clientAddr, sni, p.connId, c.reader⟩

/-- The name of a stream is found, nothing of the stream is consumed, and what any handler then uploads is the stream of
the client from its start. -/
structure Sniffed (X : Crates) (c : InboundStream) (name : String) : Prop where
  found : ∀ timedOut, (sniffSni timedOut c).1 = some name
  untouched : ∀ timedOut, (sniffSni timedOut c).2 = c
  forwarded : ∀ s userUuid p timedOut engine relay,
    dispatchStream X s userUuid p timedOut c = .ok (some (engine, relay)) → ∃ handler email,
      relay = .starting handler p.target c.reader email ∧ (handler.Whole → ∀ as r,
        Run.exec (RelayRun.step X) ⟨relay, []⟩ as = some r → r.uploaded <+: c.arrived ++ content c.later ∧
          (r.relay.UploadDone → r.uploaded = c.arrived ++ content c.later))

section

variable {X : Crates} {version : Vector UInt8 2} {message rest : List UInt8}

/-! ## Nothing is consumed -/

theorem InboundStream.peek_snd (cap : ℕ) (timedOut : Bool) (c : InboundStream) : (c.peek cap timedOut).2 = c := by
  rw [peek]
  split <;> rfl

theorem sniffSni_snd (timedOut : Bool) (c : InboundStream) : (sniffSni timedOut c).2 = c := by
  rw [sniffSni]
  split
  · exact c.peek_snd 1024 timedOut
  · rfl
  · rfl

/-- The handler that is started reads the connection from its start. -/
theorem dispatchStream_forwards {s engine : EngineState} {userUuid : Uuid} {p : RequestHeader} {timedOut : Bool}
    {c : InboundStream} {relay : Relay} (h : dispatchStream X s userUuid p timedOut c = .ok (some (engine, relay))) :
    ∃ handler email, relay = .starting handler p.target c.reader email ∧ (handler.Whole → ∀ as r,
      Run.exec (RelayRun.step X) ⟨relay, []⟩ as = some r → r.uploaded <+: c.arrived ++ content c.later ∧
        (r.relay.UploadDone → r.uploaded = c.arrived ++ content c.later)) := by
  simp only [dispatchStream, sniffSni_snd] at h
  obtain ⟨-, -, handler, -, -, -, -, rfl⟩ := dispatchConnection_engine h
  refine ⟨handler, _, rfl, fun hwhole as r hr => ?_⟩
  have huploads := relay_uploads hwhole hr
  rw [InboundStream.reader, content_putBack] at huploads
  exact huploads

/-! ## What is found -/

/-- The name of a plain stream that has begun to arrive. -/
theorem sniffSni_arrived (timedOut : Bool) {arrived : List UInt8} (later : List (Arrival UInt8)) (h : arrived ≠ []) :
    (sniffSni timedOut ⟨.plain, arrived, later⟩).1 = parseSniFromBytes (arrived.take 1024) := by
  obtain ⟨b, bs, rfl⟩ := List.exists_cons_of_ne_nil h
  rfl

theorem record_length (version : Vector UInt8 2) (message : List UInt8) :
    (record version message).length = 5 + message.length := by
  simp [record]
  omega

/-- **A record that a buffer cuts off** shows no name. -/
theorem parseSniFromBytes_cut {cap : ℕ} (hfits : message.length < 2 ^ 16) (hcap : 5 ≤ cap)
    (hlong : cap < (record version message).length) :
    parseSniFromBytes ((record version message ++ rest).take cap) = none := by
  obtain ⟨n, rfl⟩ := Nat.exists_eq_add_of_le hcap
  have hhead : ((22 :: version.toList) ++ u16Bytes message.length).length = 5 := by simp
  have hbytes : (record version message ++ rest).take (5 + n) =
      (22 :: version.toList) ++ u16Bytes message.length ++ (message ++ rest).take n := by
    have hsplit : record version message ++ rest =
        ((22 :: version.toList) ++ u16Bytes message.length) ++ (message ++ rest) := by simp [record, vec_two]
    rw [hsplit, ← hhead, List.take_length_add_append]
  have hlen : u16At ((record version message ++ rest).take (5 + n)) 3 = message.length :=
    u16At_of_eq hbytes (by simp) hfits
  have hread : ((record version message ++ rest).take (5 + n)).length ≤ 5 + n := List.length_take_le _ _
  rw [record_length] at hlong
  rw [parseSniFromBytes, hlen]
  split_ifs
  · rfl
  · rfl
  · exact if_pos (by omega)

/-- A record that fits the buffer shows the name of its message. -/
theorem parseSniFromBytes_fits {cap : ℕ} (h : ClientHello) (hfits : h.encode.length < 2 ^ 16)
    (hshort : (record version h.encode).length ≤ cap) :
    parseSniFromBytes ((record version h.encode ++ rest).take cap) = h.hostName := by
  rw [List.take_append, List.take_of_length_le hshort]
  exact (parse_wellFormed h).2 hfits version _

/-- **The sniffer finds the name, and leaves all of the stream to be forwarded, if and only if the record of the message
has at most 1024 bytes.** -/
theorem sniffed_iff (X : Crates) {h : ClientHello} {name : String} (hname : h.hostName = some name)
    (hfits : h.encode.length < 2 ^ 16) (version : Vector UInt8 2) (rest : List UInt8) (later : List (Arrival UInt8)) :
    Sniffed X ⟨.plain, record version h.encode ++ rest, later⟩ name ↔ (record version h.encode).length ≤ 1024 := by
  have harrived : record version h.encode ++ rest ≠ [] := List.cons_ne_nil _ _
  constructor
  · intro hsniffed
    by_contra hlong
    have hfound := hsniffed.found false
    rw [sniffSni_arrived false later harrived, parseSniFromBytes_cut hfits (by decide) (Nat.lt_of_not_le hlong)] at hfound
    cases hfound
  · intro hshort
    refine ⟨fun timedOut => ?_, fun timedOut => sniffSni_snd timedOut _, fun _ _ _ _ _ _ hd => dispatchStream_forwards hd⟩
    rw [sniffSni_arrived timedOut later harrived, parseSniFromBytes_fits h hfits hshort]
    exact hname

end

theorem sniffed_reservedHello :
    Sniffed Sample.crates ⟨.plain, record #v[3, 1] reservedHello.encode ++ [], []⟩ "github.com" :=
  (sniffed_iff Sample.crates rfl (by decide +kernel) #v[3, 1] [] []).mpr (by decide +kernel)

/-- A message with a share for a hybrid group, which has 1216 bytes, before the one for X25519. -/
def largeHello : ClientHello :=
  { reservedHello with
    extensions := [.serverName [.hostName "github.com"],
      .keyShare [⟨0x11ec, List.replicate 1216 7, by decide⟩, ⟨0x001d, List.replicate 32 8, by decide⟩]]
    distinct := by decide
    extensions_lt := by decide +kernel }

/-- **A message that fits a record and has arrived, and whose name is not found.** -/
theorem largeHello_missed : largeHello.hostName = some "github.com" ∧
    largeHello.encode.length < 2 ^ 14 ∧ (sniffSni false ⟨.plain, record #v[3, 1] largeHello.encode, []⟩).1 = none := by
  have harrived : record #v[3, 1] largeHello.encode ≠ [] := List.cons_ne_nil _ _
  refine ⟨rfl, by decide +kernel, ?_⟩
  rw [sniffSni_arrived false [] harrived, ← List.append_nil (record #v[3, 1] largeHello.encode)]
  exact parseSniFromBytes_cut (by decide +kernel) (by decide) (by decide +kernel)

end RXCore
