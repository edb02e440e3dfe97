import RXCore.Lib.Run
import RXCore.Outbound.Udp

/-!
# UDP associations of the SOCKS5 inbound

Every UDP ASSOCIATE request opens a socket. The clients that send to these sockets share one tunnel to
the server, in which a 16-bit number tells their packets apart.

* `udpRequest`, `upstreamFrame`, `downstreamFrame`: a datagram of a client, its frame in the tunnel,
  and a frame on the way back;
* `Socks5Udp`, `getOrCreateAssociation`, `socks5UdpStep`: the two tables, the counter, the clean-up task
  and the queue, in any interleaving;
* `Integrity`: the tables agree, and a reply goes where the packets came from;
* **`integrity_iff_fits`**: a run keeps `Integrity` if and only if clients stay on the socket of their
  association and no number is given out that is still in use;
* **`wrap_shares`**: 65,537 clients of one socket make the counter wrap, and two of them share a number.
-/

set_option autoImplicit false

namespace RXCore

open Encoding Tables

/-- `UdpTarget`. -/
inductive UdpTarget where
  | ip (addr : IpAddr) (port : UInt16)
  | domain (name : String) (port : UInt16)
deriving DecidableEq

structure UdpUpstreamPacket where
  assocId : UInt16
  target : UdpTarget
  payload : List UInt8
deriving DecidableEq

/-! ## Datagrams and frames -/

/-- The target and the payload of a datagram from a client, as the loop of the association reads them. -/
def udpRequest (recvBuf : List UInt8) : Option (UdpTarget × List UInt8) :=
  let n := recvBuf.length
  if n < 4 then none
  else
    let frag := recvBuf.getD 2 0
    let atyp := recvBuf.getD 3 0
    if frag ≠ 0 then none
    else if atyp = 1 then
      if n < 4 + 4 + 2 then none
      else some (.ip (.v4 (.ofOctets (slice recvBuf 4 4))) (portAt recvBuf 8), recvBuf.drop 10)
    else if atyp = 4 then
      if n < 4 + 16 + 2 then none
      else some (.ip (.v6 (.ofOctets (slice recvBuf 4 16))) (portAt recvBuf 20), recvBuf.drop 22)
    else if atyp = 3 then
      if n < 4 + 1 then none
      else
        let len := (recvBuf.getD 4 0).toNat
        if n < 5 + len + 2 then none
        else (fromUtf8 (slice recvBuf 5 len)).map fun domainStr =>
          (.domain domainStr (portAt recvBuf (5 + len)), recvBuf.drop (5 + len + 2))
    else none

/-- The address type, the address and the port of a target in a frame. -/
def UdpTarget.header : UdpTarget → List UInt8
  | .ip addr port => addr.tagged ++ u16Bytes port.toNat
  | .domain name port => 3 :: UInt8.ofNat (utf8 name).length :: utf8 name ++ u16Bytes port.toNat

/-- The frame that the upstream task writes for a packet. -/
def upstreamFrame (packet : UdpUpstreamPacket) : List UInt8 :=
  let sendBuf := u16Bytes packet.assocId.toNat ++ packet.target.header
  let totalLen := sendBuf.length + packet.payload.length
  u16Bytes totalLen ++ sendBuf ++ packet.payload

/-- Where the payload of a frame on the way back starts. -/
def downstreamOffset (payloadBuf : List UInt8) : Option ℕ :=
  let atyp := payloadBuf.getD 0 0
  if atyp = 1 then some (1 + 4 + 2)
  else if atyp = 3 then some (1 + 1 + (payloadBuf.getD 1 0).toNat + 2)
  else if atyp = 4 then some (1 + 16 + 2)
  else none

/-- A frame on the way back: its number, its header and its payload. -/
structure DownstreamFrame where
  assocId : UInt16
  header : List UInt8
  payload : List UInt8
deriving DecidableEq

/-- The reading part of the downstream task. The buffer keeps what longer frames have left in it; a frame
without a known address is skipped. -/
def downstreamFrame (reader payloadBuf : List UInt8) :
    Option (List UInt8 × List UInt8 × Option DownstreamFrame) := do
  let (headerBuf, reader) ← readExact 4 reader
  let totalLen := u16At headerBuf 0
  if totalLen < 2 ∨ 65535 < totalLen then none
  else
    let frameLen := totalLen - 2
    let (frame, reader) ← readExact frameLen reader
    let payloadBuf := frame ++ payloadBuf.drop frameLen
    let found := (downstreamOffset payloadBuf).bind fun offset =>
      if frameLen < offset then none
      else some ⟨portAt headerBuf 2, payloadBuf.take offset, slice payloadBuf offset (frameLen - offset)⟩
    return (reader, payloadBuf, found)

/-! ## Associations -/

/-- `ClientAssociation`; sockets are numbered. -/
structure ClientAssociation where
  clientAddr : SocketAddr
  socket : ℕ
  lastActive : ℕ
deriving DecidableEq

/-- A datagram that was accepted: the number that its packet carries, its client, and the socket on which
it arrived. -/
structure Received where
  assocId : UInt16
  clientAddr : SocketAddr
  socket : ℕ
deriving DecidableEq

/-- What is sent back to a client. -/
structure UdpReply where
  socket : ℕ
  clientAddr : SocketAddr
  datagram : List UInt8
deriving DecidableEq

structure Socks5Udp where
  assocMap : AList fun _ : UInt16 => ClientAssociation
  clientSessions : AList fun _ : SocketAddr => UInt16
  nextAssocId : UInt16
  /-- The sockets opened so far. -/
  sockets : ℕ
  /-- Those whose control connection still runs its loop. -/
  listening : List ℕ
  /-- What the clean-up task has collected and not yet removed. -/
  toRemove : List (UInt16 × SocketAddr)
  queue : List UdpUpstreamPacket
  /-- What the upstream task has written to the tunnel. -/
  written : List UInt8
  replies : List UdpReply
  /-- The accepted datagrams, the last one first. -/
  received : List Received

def Socks5Udp.start : Socks5Udp := ⟨∅, ∅, 1, 0, [], [], [], [], [], []⟩

/-- An association is used at time `now`. -/
def Socks5Udp.touch (s : Socks5Udp) (assocId : UInt16) (now : ℕ) : Socks5Udp :=
  match s.assocMap.lookup assocId with
  | some a => { s with assocMap := s.assocMap.insert assocId { a with lastActive := now } }
  | none => s

/-- `get_or_create_association`. -/
def Socks5Udp.getOrCreateAssociation (s : Socks5Udp) (clientAddr : SocketAddr) (socket now : ℕ) :
    UInt16 × Socks5Udp :=
  match s.clientSessions.lookup clientAddr with
  | some assocId => (assocId, s.touch assocId now)
  | none =>
    let assocId := s.nextAssocId
    (assocId, { s with
      nextAssocId := assocId + 1
      clientSessions := s.clientSessions.insert clientAddr assocId
      assocMap := s.assocMap.insert assocId ⟨clientAddr, socket, now⟩ })

/-- The room of the queue to the upstream task. -/
def upstreamCapacity : ℕ := 128

/-- A datagram of a client arrives on a socket. -/
def Socks5Udp.datagram (s : Socks5Udp) (socket : ℕ) (clientAddr : SocketAddr) (recvBuf : List UInt8)
    (now : ℕ) : Socks5Udp :=
  match udpRequest recvBuf with
  | none => s
  | some (target, payload) =>
    let (assocId, s) := s.getOrCreateAssociation clientAddr socket now
    { s with
      received := ⟨assocId, clientAddr, socket⟩ :: s.received
      queue := if s.queue.length < upstreamCapacity then s.queue ++ [⟨assocId, target, payload⟩] else s.queue }

/-- The clean-up task, its first half: the associations that have been idle for more than a minute. -/
def Socks5Udp.collect (s : Socks5Udp) (now : ℕ) : Socks5Udp :=
  { s with toRemove := s.assocMap.entries.filterMap fun e =>
      if 60 < now - e.2.lastActive then some (e.1, e.2.clientAddr) else none }

/-- Its second half. -/
def Socks5Udp.remove (s : Socks5Udp) : Socks5Udp :=
  { s with
    assocMap := (s.toRemove.map Prod.fst).foldl (fun m k => m.erase k) s.assocMap
    clientSessions := (s.toRemove.map Prod.snd).foldl (fun m k => m.erase k) s.clientSessions
    toRemove := [] }

/-- The reply for a frame on the way back. -/
def Socks5Udp.reply (s : Socks5Udp) (frame : DownstreamFrame) : Option UdpReply :=
  (s.assocMap.lookup frame.assocId).map fun assoc =>
    ⟨assoc.socket, assoc.clientAddr, [0, 0, 0] ++ frame.header ++ frame.payload⟩

inductive Socks5UdpAct where
  /-- A UDP ASSOCIATE request is answered. -/
  | associate
  /-- A control connection ends. -/
  | hangUp (socket : ℕ)
  | datagram (socket : ℕ) (clientAddr : SocketAddr) (recvBuf : List UInt8) (now : ℕ)
  | collect (now : ℕ)
  | remove
  | upstream (writeOk : Bool)
  | downstream (frame : DownstreamFrame) (now : ℕ) (sendOk : Bool)

/-- The steps come in any order. Those of the code are among them: its sockets block, on the only thread of
the program, and after a datagram the other tasks mostly wait for the next one. -/
def socks5UdpStep (s : Socks5Udp) : Socks5UdpAct → Option Socks5Udp
  | .associate => some { s with sockets := s.sockets + 1, listening := s.sockets :: s.listening }
  | .hangUp socket =>
    if socket ∈ s.listening then some { s with listening := s.listening.erase socket } else none
  | .datagram socket clientAddr recvBuf now =>
    if socket ∈ s.listening then some (s.datagram socket clientAddr recvBuf now) else none
  | .collect now => if s.toRemove = [] then some (s.collect now) else none
  | .remove => if s.toRemove = [] then none else some s.remove
  | .upstream writeOk => match s.queue with
    | [] => none
    | packet :: queue =>
      -- a packet whose write fails is lost with the tunnel
      some { s with queue := queue, written := if writeOk then s.written ++ upstreamFrame packet else [] }
  | .downstream frame now sendOk =>
    let sent := if sendOk then (s.reply frame).toList else []
    some { s.touch frame.assocId now with replies := s.replies ++ sent }

/-! ## Integrity -/

namespace Socks5Udp

/-- The client and the socket of the association that is stored under a number. -/
def holder (s : Socks5Udp) (assocId : UInt16) : Option (SocketAddr × ℕ) :=
  (s.assocMap.lookup assocId).map fun a => (a.clientAddr, a.socket)

/-- The client whose packet was the last to carry a number. -/
def carrier (s : Socks5Udp) (assocId : UInt16) : Option SocketAddr :=
  (s.received.find? (·.assocId == assocId)).map (·.clientAddr)

/-- The socket on which the last packet of a client arrived. -/
def arrival (s : Socks5Udp) (clientAddr : SocketAddr) : Option ℕ :=
  (s.received.find? (·.clientAddr == clientAddr)).map (·.socket)

/-- The tables agree, and every reply that may come goes to the client whose packets carried its number,
through the socket on which the last of them arrived. -/
structure Integrity (s : Socks5Udp) : Prop where
  owner : ∀ c id, s.clientSessions.lookup c = some id → ∃ socket, s.holder id = some (c, socket)
  distinct : ∀ c c' id, s.clientSessions.lookup c = some id → s.clientSessions.lookup c' = some id → c = c'
  replies : ∀ frame r, s.reply frame = some r →
    s.carrier frame.assocId = some r.clientAddr ∧ s.arrival r.clientAddr = some r.socket

/-- What the tables promise besides. -/
structure Linked (s : Socks5Udp) : Prop where
  session : ∀ id c socket, s.holder id = some (c, socket) → s.clientSessions.lookup c = some id
  collected : ∀ e ∈ s.toRemove, s.clientSessions.lookup e.2 = some e.1

/-- An accepted datagram of a client that has an association arrives on its socket, and a new association
gets a number under which no other is stored. -/
def Fits (s : Socks5Udp) : Socks5UdpAct → Prop
  | .datagram socket clientAddr recvBuf _ => (udpRequest recvBuf).isSome →
    match s.clientSessions.lookup clientAddr with
    | some assocId => ∀ a ∈ s.assocMap.lookup assocId, a.socket = socket
    | none => s.assocMap.lookup s.nextAssocId = none
  | _ => True

variable {s s' : Socks5Udp} {c : SocketAddr} {id : UInt16} {socket now : ℕ}

theorem integrity_iff : s.Integrity ↔
    (∀ c id, s.clientSessions.lookup c = some id → ∃ socket, s.holder id = some (c, socket)) ∧
      ∀ id c socket, s.holder id = some (c, socket) → s.carrier id = some c ∧ s.arrival c = some socket := by
  constructor
  · intro h
    refine ⟨h.owner, fun id c socket hid => ?_⟩
    obtain ⟨a, ha, hcs⟩ := Option.map_eq_some_iff.mp hid
    obtain ⟨rfl, rfl⟩ := Prod.mk.inj hcs
    have hr : s.reply ⟨id, [], []⟩ = some ⟨a.socket, a.clientAddr, [0, 0, 0]⟩ := by simp [reply, ha]
    exact h.replies _ _ hr
  · rintro ⟨howner, hreplies⟩
    refine ⟨howner, fun c c' id hc hc' => ?_, fun frame r hr => ?_⟩
    · obtain ⟨k, hk⟩ := howner c id hc
      obtain ⟨k', hk'⟩ := howner c' id hc'
      rw [hk] at hk'
      simp at hk'
      exact hk'.1
    · obtain ⟨a, ha, rfl⟩ := Option.map_eq_some_iff.mp hr
      exact hreplies frame.assocId a.clientAddr a.socket (by simp [holder, ha])

/-! ### What a step writes -/

@[simp] theorem holder_touch (s : Socks5Udp) (id k : UInt16) (now : ℕ) :
    (s.touch id now).holder k = s.holder k := by
  unfold touch
  cases h : s.assocMap.lookup id with
  | none => rfl
  | some a =>
    by_cases hk : k = id
    · subst hk
      simp [holder, h]
    · simp [holder, AList.lookup_insert_ne hk]

theorem touch_fields (s : Socks5Udp) (id : UInt16) (now : ℕ) :
    (s.touch id now).clientSessions = s.clientSessions ∧ (s.touch id now).received = s.received ∧
      (s.touch id now).toRemove = s.toRemove := by
  unfold touch
  split <;> exact ⟨rfl, rfl, rfl⟩

/-- The tables and what was received are all that counts. -/
theorem Integrity.of_same (h : s.Integrity) (hholder : ∀ k, s'.holder k = s.holder k)
    (hsessions : s'.clientSessions = s.clientSessions) (hreceived : s'.received = s.received) :
    s'.Integrity := by
  rw [integrity_iff] at h ⊢
  simp only [carrier, arrival, hholder, hsessions, hreceived] at h ⊢
  exact h

theorem Linked.of_same (h : s.Linked) (hholder : ∀ k, s'.holder k = s.holder k)
    (hsessions : s'.clientSessions = s.clientSessions)
    (hcollected : ∀ e ∈ s'.toRemove, s.clientSessions.lookup e.2 = some e.1) : s'.Linked := by
  refine ⟨fun id c socket hid => ?_, fun e he => ?_⟩
  · rw [hsessions]
    exact h.session id c socket ((hholder id).symm.trans hid)
  · rw [hsessions]
    exact hcollected e he

/-- The clean-up task collects numbers together with the clients that have them. -/
theorem Linked.collect (h : s.Linked) (now : ℕ) : (s.collect now).Linked := by
  refine h.of_same (fun k => rfl) rfl fun e he => ?_
  simp only [Socks5Udp.collect, List.mem_filterMap] at he
  obtain ⟨⟨id, a⟩, ha, he⟩ := he
  split_ifs at he
  obtain rfl := Option.some.inj he
  have hid : s.assocMap.lookup id = some a := AList.mem_lookup_iff.mpr ha
  exact h.session id a.clientAddr a.socket (by simp [holder, hid])

theorem holder_remove : s.remove.holder id = some (c, socket) ↔
    id ∉ s.toRemove.map Prod.fst ∧ s.holder id = some (c, socket) := by
  simp only [holder, remove, Option.map_eq_some_iff, lookup_foldl_erase_iff]
  tauto

theorem sessions_remove : s.remove.clientSessions.lookup c = some id ↔
    c ∉ s.toRemove.map Prod.snd ∧ s.clientSessions.lookup c = some id :=
  lookup_foldl_erase_iff

/-- **A clean-up takes whole associations out.** -/
theorem remove_integrity (hl : s.Linked) (h : s.Integrity) : s.remove.Linked ∧ s.remove.Integrity := by
  rw [integrity_iff] at h ⊢
  refine ⟨⟨fun id c socket hid => ?_, fun e he => nomatch he⟩, fun c id hc => ?_, fun id c socket hid => ?_⟩
  · obtain ⟨hid, hh⟩ := holder_remove.mp hid
    have hc := hl.session id c socket hh
    refine sessions_remove.mpr ⟨fun hmem => hid ?_, hc⟩
    obtain ⟨e, he, rfl⟩ := List.mem_map.mp hmem
    have hid' := (hl.collected e he).symm.trans hc
    exact List.mem_map.mpr ⟨e, he, Option.some.inj hid'⟩
  · obtain ⟨hcs, hs⟩ := sessions_remove.mp hc
    obtain ⟨socket, hh⟩ := h.1 c id hs
    refine ⟨socket, holder_remove.mpr ⟨fun hmem => hcs ?_, hh⟩⟩
    obtain ⟨e, he, rfl⟩ := List.mem_map.mp hmem
    obtain ⟨socket', hh'⟩ := h.1 _ _ (hl.collected e he)
    rw [hh] at hh'
    simp at hh'
    exact List.mem_map.mpr ⟨e, he, hh'.1.symm⟩
  · exact h.2 id c socket (holder_remove.mp hid).2

/-! ### Datagrams -/

section Datagram

variable {recvBuf : List UInt8} {r : UdpTarget × List UInt8}

/-- A client that has a number keeps it, and the tables stay as they are. -/
theorem datagram_known (socket now : ℕ) (hr : udpRequest recvBuf = some r)
    (hc : s.clientSessions.lookup c = some id) :
    (∀ k, (s.datagram socket c recvBuf now).holder k = s.holder k) ∧
      (s.datagram socket c recvBuf now).clientSessions = s.clientSessions ∧
      (s.datagram socket c recvBuf now).received = ⟨id, c, socket⟩ :: s.received ∧
      (s.datagram socket c recvBuf now).toRemove = s.toRemove := by
  obtain ⟨hsessions, hreceived, htoRemove⟩ := touch_fields s id now
  simp only [datagram, hr, getOrCreateAssociation, hc]
  exact ⟨fun k => holder_touch s id k now, hsessions, by rw [hreceived], htoRemove⟩

/-- A client that has none gets the next. -/
theorem datagram_new (socket now : ℕ) (hr : udpRequest recvBuf = some r)
    (hc : s.clientSessions.lookup c = none) :
    (∀ k, (s.datagram socket c recvBuf now).holder k =
        if k = s.nextAssocId then some (c, socket) else s.holder k) ∧
      (s.datagram socket c recvBuf now).clientSessions = s.clientSessions.insert c s.nextAssocId ∧
      (s.datagram socket c recvBuf now).received = ⟨s.nextAssocId, c, socket⟩ :: s.received ∧
      (s.datagram socket c recvBuf now).toRemove = s.toRemove := by
  simp only [datagram, hr, getOrCreateAssociation, hc]
  refine ⟨fun k => ?_, trivial, trivial, trivial⟩
  by_cases hk : k = s.nextAssocId
  · subst hk
    simp [holder]
  · simp [holder, AList.lookup_insert_ne hk, hk]

theorem datagram_linked (hr : udpRequest recvBuf = some r) (hl : s.Linked) :
    (s.datagram socket c recvBuf now).Linked := by
  cases hc : s.clientSessions.lookup c with
  | some id =>
    obtain ⟨hholder, hsessions, -, htoRemove⟩ := datagram_known socket now hr hc
    refine hl.of_same hholder hsessions fun e he => hl.collected e ?_
    rwa [htoRemove] at he
  | none =>
    obtain ⟨hholder, hsessions, -, htoRemove⟩ := datagram_new socket now hr hc
    -- no client in either table is the new one
    have hother : ∀ c' id, s.clientSessions.lookup c' = some id →
        (s.clientSessions.insert c s.nextAssocId).lookup c' = some id := by
      intro c' id hc'
      have hne : c' ≠ c := by
        rintro rfl
        rw [hc] at hc'
        cases hc'
      rwa [AList.lookup_insert_ne hne]
    refine ⟨fun id c' k hid => ?_, fun e he => ?_⟩
    · rw [hsessions]
      rw [hholder] at hid
      split_ifs at hid with hk
      · simp only [Option.some.injEq, Prod.mk.injEq] at hid
        obtain ⟨rfl, rfl⟩ := hid
        rw [hk, AList.lookup_insert]
      · exact hother c' id (hl.session id c' k hid)
    · rw [hsessions]
      rw [htoRemove] at he
      exact hother e.2 e.1 (hl.collected e he)

theorem carrier_of_received {e : Received} (h : s'.received = e :: s.received) (k : UInt16) :
    s'.carrier k = if e.assocId = k then some e.clientAddr else s.carrier k := by
  by_cases hk : e.assocId = k <;> simp [carrier, h, hk]

theorem arrival_of_received {e : Received} (h : s'.received = e :: s.received) (c : SocketAddr) :
    s'.arrival c = if e.clientAddr = c then some e.socket else s.arrival c := by
  by_cases hc : e.clientAddr = c <;> simp [arrival, h, hc]

/-- **A datagram keeps the integrity if and only if it fits.** -/
theorem datagram_integrity (hr : udpRequest recvBuf = some r) (hl : s.Linked) (hi : s.Integrity) :
    (s.datagram socket c recvBuf now).Integrity ↔ s.Fits (.datagram socket c recvBuf now) := by
  simp only [Fits, hr, Option.isSome_some, true_implies]
  cases hc : s.clientSessions.lookup c with
  | some id =>
    obtain ⟨hholder, hsessions, hreceived, -⟩ := datagram_known socket now hr hc
    obtain ⟨socket', hid⟩ := hi.owner c id hc
    obtain ⟨a, ha, hca⟩ := Option.map_eq_some_iff.mp hid
    simp only [Prod.mk.injEq] at hca
    obtain ⟨rfl, rfl⟩ := hca
    simp only [ha, Option.mem_def, Option.some.injEq, forall_eq']
    constructor
    · intro h
      have hlast := ((integrity_iff.mp h).2 id a.clientAddr a.socket (by rw [hholder, hid])).2
      rw [arrival_of_received hreceived, if_pos rfl] at hlast
      exact (Option.some.inj hlast).symm
    · rintro rfl
      rw [integrity_iff] at hi ⊢
      refine ⟨fun c' id' hc' => ?_, fun id' c' k hid' => ?_⟩
      · rw [hsessions] at hc'
        simp only [hholder]
        exact hi.1 c' id' hc'
      · rw [hholder] at hid'
        rw [carrier_of_received hreceived, arrival_of_received hreceived]
        by_cases hk : id = id'
        · subst hk
          rw [hid, Option.some.injEq, Prod.mk.injEq] at hid'
          obtain ⟨rfl, rfl⟩ := hid'
          simp
        · have hne : a.clientAddr ≠ c' := by
            rintro rfl
            have hc' := hl.session id' _ k hid'
            rw [hc] at hc'
            exact hk (Option.some.inj hc')
          rw [if_neg hk, if_neg hne]
          exact hi.2 id' c' k hid'
  | none =>
    obtain ⟨hholder, hsessions, hreceived, -⟩ := datagram_new socket now hr hc
    constructor
    · intro h
      by_contra hused
      obtain ⟨a, ha⟩ := Option.ne_none_iff_exists'.mp hused
      -- the old and the new client would share the number
      have hold := hl.session s.nextAssocId a.clientAddr a.socket (by simp [holder, ha])
      have hne : a.clientAddr ≠ c := by
        rintro rfl
        rw [hc] at hold
        cases hold
      refine hne (h.distinct _ _ s.nextAssocId ?_ ?_)
      · rwa [hsessions, AList.lookup_insert_ne hne]
      · rw [hsessions, AList.lookup_insert]
    · intro hfree
      have hnone : s.holder s.nextAssocId = none := by simp [holder, hfree]
      rw [integrity_iff] at hi ⊢
      refine ⟨fun c' id' hc' => ?_, fun id' c' k hid' => ?_⟩
      · rw [hsessions] at hc'
        rcases lookup_insert_cases hc' with ⟨rfl, rfl⟩ | ⟨-, hc'⟩
        · exact ⟨socket, by rw [hholder, if_pos rfl]⟩
        · obtain ⟨k, hk⟩ := hi.1 c' id' hc'
          refine ⟨k, ?_⟩
          rw [hholder, if_neg]
          · exact hk
          · rintro rfl
            rw [hnone] at hk
            cases hk
      · rw [hholder] at hid'
        rw [carrier_of_received hreceived, arrival_of_received hreceived]
        split_ifs at hid' with hk
        · simp only [Option.some.injEq, Prod.mk.injEq] at hid'
          obtain ⟨rfl, rfl⟩ := hid'
          simp [hk]
        · have hne : c ≠ c' := by
            rintro rfl
            have hc' := hl.session id' _ k hid'
            rw [hc] at hc'
            cases hc'
          rw [if_neg (Ne.symm hk), if_neg hne]
          exact hi.2 id' c' k hid'

end Datagram

/-! ### Runs -/

theorem start_linked : start.Linked := ⟨fun _ _ _ h => (nomatch h), fun _ h => nomatch h⟩

theorem start_integrity : start.Integrity :=
  integrity_iff.mpr ⟨fun _ _ h => (nomatch h), fun _ _ _ h => nomatch h⟩

/-- **Every step keeps the tables linked, and keeps the integrity if and only if it fits.** -/
theorem step_integrity {act : Socks5UdpAct} (hl : s.Linked) (hi : s.Integrity)
    (h : socks5UdpStep s act = some s') : s'.Linked ∧ (s'.Integrity ↔ s.Fits act) := by
  have hsame : (∀ k, s'.holder k = s.holder k) → s'.clientSessions = s.clientSessions →
      s'.received = s.received → s'.toRemove = s.toRemove → s'.Linked ∧ (s'.Integrity ↔ True) := by
    intro hholder hsessions hreceived htoRemove
    refine ⟨hl.of_same hholder hsessions fun e he => ?_, iff_true_intro ?_⟩
    · exact hl.collected e (by rwa [htoRemove] at he)
    · exact hi.of_same hholder hsessions hreceived
  cases act with
  | associate =>
    obtain rfl := Option.some.inj h
    exact hsame (fun k => rfl) rfl rfl rfl
  | hangUp socket =>
    simp only [socks5UdpStep] at h
    split_ifs at h
    obtain rfl := Option.some.inj h
    exact hsame (fun k => rfl) rfl rfl rfl
  | datagram socket c recvBuf now =>
    simp only [socks5UdpStep] at h
    split_ifs at h
    obtain rfl := Option.some.inj h
    cases hr : udpRequest recvBuf with
    | none =>
      have hskip : s.datagram socket c recvBuf now = s := by simp [datagram, hr]
      rw [hskip]
      simpa [Fits, hr] using ⟨hl, hi⟩
    | some r => exact ⟨datagram_linked hr hl, datagram_integrity hr hl hi⟩
  | collect now =>
    simp only [socks5UdpStep] at h
    split_ifs at h
    obtain rfl := Option.some.inj h
    exact ⟨hl.collect now, iff_true_intro (hi.of_same (fun k => rfl) rfl rfl)⟩
  | remove =>
    simp only [socks5UdpStep] at h
    split_ifs at h
    obtain rfl := Option.some.inj h
    obtain ⟨hl', hi'⟩ := remove_integrity hl hi
    exact ⟨hl', iff_true_intro hi'⟩
  | upstream writeOk =>
    simp only [socks5UdpStep] at h
    split at h
    · cases h
    · obtain rfl := Option.some.inj h
      exact hsame (fun k => rfl) rfl rfl rfl
  | downstream frame now sendOk =>
    obtain rfl := Option.some.inj h
    obtain ⟨hsessions, hreceived, htoRemove⟩ := touch_fields s frame.assocId now
    exact hsame (fun k => holder_touch s frame.assocId k now) hsessions hreceived htoRemove

/-- **A run keeps the integrity of the associations if and only if each of its datagrams fits.** -/
theorem integrity_iff_fits (as : List Socks5UdpAct) :
    Run.Always socks5UdpStep Integrity start as ↔ Run.Meets socks5UdpStep Fits start as :=
  Run.always_iff_meets (I := Linked) (fun _ _ _ hl hi _ h => (step_integrity hl hi h).1)
    (fun _ _ _ hl hi h => (step_integrity hl hi h).2) start_linked start_integrity as

/-- A datagram to the name server at 8.8.8.8. -/
def nameServerDatagram : List UInt8 := [0, 0, 0, 1, 8, 8, 8, 8, 0, 53, 7]

/-- The address of a client. -/
def localClient : SocketAddr := ⟨.v4 .localhost, 40000⟩

/-! ### The counter wraps -/

section Wrap

variable {recvBuf : List UInt8} {r : UdpTarget × List UInt8}

theorem datagram_next (socket now : ℕ) (hr : udpRequest recvBuf = some r)
    (hc : s.clientSessions.lookup c = none) :
    (s.datagram socket c recvBuf now).nextAssocId = s.nextAssocId + 1 ∧
      (s.datagram socket c recvBuf now).listening = s.listening := by
  simp [datagram, hr, getOrCreateAssociation, hc]

/-- New clients send one datagram each: the counter goes on by their number, and the sessions of all
others stay. -/
theorem exec_newClients (hr : udpRequest recvBuf = some r) (now : ℕ) {cs : List SocketAddr}
    (hnodup : cs.Nodup) (hsocket : socket ∈ s.listening)
    (hnew : ∀ c ∈ cs, s.clientSessions.lookup c = none) :
    ∃ t, Run.exec socks5UdpStep s (cs.map fun c => .datagram socket c recvBuf now) = some t ∧
      t.listening = s.listening ∧ t.nextAssocId = s.nextAssocId + UInt16.ofNat cs.length ∧
      ∀ c ∉ cs, t.clientSessions.lookup c = s.clientSessions.lookup c := by
  induction cs generalizing s with
  | nil => exact ⟨s, rfl, rfl, by simp, fun _ _ => rfl⟩
  | cons c cs ih =>
    obtain ⟨hc, hnodup⟩ := List.nodup_cons.mp hnodup
    have hfresh := hnew c List.mem_cons_self
    obtain ⟨-, hsessions, -, -⟩ := datagram_new socket now hr hfresh
    obtain ⟨hnext, hlistening⟩ := datagram_next socket now hr hfresh
    have hother : ∀ c' ≠ c, (s.datagram socket c recvBuf now).clientSessions.lookup c' =
        s.clientSessions.lookup c' := fun c' hne => by
      rw [hsessions, AList.lookup_insert_ne hne]
    have hstep : socks5UdpStep s (.datagram socket c recvBuf now) =
        some (s.datagram socket c recvBuf now) := if_pos hsocket
    obtain ⟨t, ht, htlistening, htnext, htother⟩ := ih hnodup (hlistening ▸ hsocket) fun c' hc' => by
      rw [hother c' (ne_of_mem_of_not_mem hc' hc)]
      exact hnew c' (List.mem_cons_of_mem _ hc')
    refine ⟨t, (Run.exec_cons_of_step hstep _).trans ht, htlistening.trans hlistening, ?_, fun c' hc' => ?_⟩
    · rw [htnext, hnext, List.length_cons, UInt16.add_assoc, UInt16.ofNat_add, UInt16.add_comm 1]
      rfl
    · simp only [List.mem_cons, not_or] at hc'
      obtain ⟨hne, hc'⟩ := hc'
      rw [htother c' hc', hother c' hne]

/-- **65,537 clients on one socket**: the last one is given the number of the first. -/
theorem wrap_shares (hr : udpRequest recvBuf = some r) (now : ℕ) {c' : SocketAddr} {cs : List SocketAddr}
    (hnodup : (c :: (cs ++ [c'])).Nodup) (hlength : cs.length = 65535) :
    ∃ t, Run.exec socks5UdpStep start
        (.associate :: (c :: (cs ++ [c'])).map fun c => .datagram 0 c recvBuf now) = some t ∧
      t.clientSessions.lookup c = some 1 ∧ t.holder 1 = some (c', 0) := by
  obtain ⟨hc, hrest⟩ := List.nodup_cons.mp hnodup
  obtain ⟨hcs, -, hdisjoint⟩ := List.nodup_append.mp hrest
  have hne : c ≠ c' := fun h => hc (by simp [h])
  have hccs : c ∉ cs := fun h => hc (List.mem_append_left _ h)
  have hc'cs : c' ∉ cs := fun h => hdisjoint c' h c' (by simp) rfl
  obtain ⟨opened, hopened⟩ : ∃ s, s = { start with sockets := 1, listening := [0] } := ⟨_, rfl⟩
  have hnone : ∀ c, opened.clientSessions.lookup c = none := fun c => hopened ▸ rfl
  -- the first client gets the number 1
  obtain ⟨-, hfirst, -, -⟩ := datagram_new 0 now hr (hnone c)
  obtain ⟨hfirstNext, hfirstListening⟩ := datagram_next 0 now hr (hnone c)
  -- the next 65,535 bring the counter back to it
  obtain ⟨t, ht, hlistening, hnext, hother⟩ := exec_newClients (s := opened.datagram 0 c recvBuf now)
    hr now hcs (by rw [hfirstListening, hopened]; exact List.mem_singleton_self 0) fun c₁ hc₁ => by
      rw [hfirst, AList.lookup_insert_ne (ne_of_mem_of_not_mem hc₁ hccs)]
      exact hnone c₁
  have hback : t.nextAssocId = 1 := by
    rw [hnext, hfirstNext, hlength, hopened]
    rfl
  have hlast : t.clientSessions.lookup c' = none := by
    rw [hother c' hc'cs, hfirst, AList.lookup_insert_ne (Ne.symm hne)]
    exact hnone c'
  obtain ⟨hholder, hsessions, -, -⟩ := datagram_new 0 now hr hlast
  refine ⟨t.datagram 0 c' recvBuf now, ?_, ?_, ?_⟩
  · have hstep : socks5UdpStep opened (.datagram 0 c recvBuf now) =
        some (opened.datagram 0 c recvBuf now) := if_pos (by simp [hopened])
    have hstep' : socks5UdpStep t (.datagram 0 c' recvBuf now) =
        some (t.datagram 0 c' recvBuf now) :=
      if_pos (by rw [hlistening, hfirstListening, hopened]; exact List.mem_singleton_self 0)
    rw [Run.exec_cons_of_step (show socks5UdpStep start .associate = some opened from hopened ▸ rfl),
      List.map_cons, Run.exec_cons_of_step hstep, List.map_append, Run.exec_append, ht]
    exact Run.exec_cons_of_step hstep' []
  · rw [hsessions, AList.lookup_insert_ne hne, hother c hccs, hfirst, AList.lookup_insert, hopened]
    rfl
  · rw [hholder, if_pos hback.symm]

end Wrap

/-- The clients on this machine, 50,000 on each of its addresses. -/
def nthClient (n : ℕ) : SocketAddr :=
  ⟨.v4 (.new 127 0 0 (UInt8.ofNat (1 + n / 50000))), UInt16.ofNat (10000 + n % 50000)⟩

theorem nthClient_inj {n m : ℕ} (hn : n < 65537) (hm : m < 65537) (h : nthClient n = nthClient m) :
    n = m := by
  simp only [nthClient, SocketAddr.mk.injEq, IpAddr.v4.injEq, Ipv4Addr.new, Ipv4Addr.mk.injEq] at h
  obtain ⟨hip, hport⟩ := h
  have hip := congrArg (fun v : Vector UInt8 4 => (v.get 3).toNat) hip
  have hport := congrArg UInt16.toNat hport
  simp at hip hport
  omega

def manyClients : List SocketAddr :=
  nthClient 0 :: ((List.range 65535).map (fun n => nthClient (n + 1)) ++ [nthClient 65536])

theorem manyClients_nodup : manyClients.Nodup := by
  have hmap : manyClients = (List.range 65537).map nthClient := by
    rw [List.range_succ_eq_map, List.range_succ]
    simp [manyClients, Function.comp_def]
  rw [hmap]
  refine List.nodup_range.map_on fun n hn m hm h => ?_
  exact nthClient_inj (List.mem_range.mp hn) (List.mem_range.mp hm) h

/-- One association is opened, and each of the clients sends a datagram to its socket. -/
def manyDatagrams : List Socks5UdpAct :=
  .associate :: manyClients.map fun c => .datagram 0 c nameServerDatagram 100

/-- **Two clients share a number**: the session of the first client names the association of the last. -/
theorem wrapped_number_shared : ∃ s, Run.exec socks5UdpStep start manyDatagrams = some s ∧
    s.clientSessions.lookup (nthClient 0) = some 1 ∧ s.holder 1 = some (nthClient 65536, 0) ∧
    ¬ s.Integrity := by
  obtain ⟨r, hr⟩ : ∃ r, udpRequest nameServerDatagram = some r := Option.isSome_iff_exists.mp (by decide)
  obtain ⟨s, hs, hfirst, hlast⟩ := wrap_shares hr 100 manyClients_nodup (by simp)
  refine ⟨s, hs, hfirst, hlast, fun h => ?_⟩
  obtain ⟨socket, hholder⟩ := h.owner _ _ hfirst
  rw [hlast] at hholder
  simp only [Option.some.injEq, Prod.mk.injEq] at hholder
  have heq := nthClient_inj (by decide) (by decide) hholder.1
  cases heq

end Socks5Udp

end RXCore
