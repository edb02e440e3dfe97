import RXCore.Inbound.Chain
import RXCore.Outbound.Wire

/-!
# The tunnel for datagrams across its connections

The packets of all clients go through one queue into one tunnel. When its connection ends, the next one is made, and the
packets that wait are written to that.

* `TunnelConnection`, `GlobalTunnel`, `globalTunnelStep`: the queue, the upstream task and the connections, in any
  order of what happens;
* `exists_whole`: what has arrived of a sequence is whole pieces of it and a part of the next one;
* `frameRead_cut`, **`reads_taken`**: what the server makes of what arrives;
* `GlobalTunnel.Kept`, `globalTunnelStep_kept`;
* **`tunnel_delivers`**: no packet is made up, sent twice or out of order, and a connection that ends loses at most the
  one in hand of what it has taken.
-/

set_option autoImplicit false

namespace RXCore

open Arrivals Dialogue Encoding Run

/-! ## The tunnel -/

/-- A connection of the tunnel, as `run_global_vless_udp_tunnel` uses it. -/
structure TunnelConnection where
  server : SocketAddr
  header : List UInt8
  /-- The packets that were taken off the queue for it. -/
  taken : List UdpUpstreamPacket
  /-- What it has taken behind the header. -/
  written : List UInt8
  /-- What is left to write of the packet in hand. -/
  sendBuf : List UInt8

structure GlobalTunnel where
  queue : List UdpUpstreamPacket
  connection : Option TunnelConnection
  /-- The connections that have ended, the first one first. -/
  ended : List TunnelConnection
  /-- The packets that `try_send` has accepted. -/
  accepted : List UdpUpstreamPacket

def GlobalTunnel.start : GlobalTunnel := ⟨[], none, [], []⟩

def GlobalTunnel.connections (t : GlobalTunnel) : List TunnelConnection := t.ended ++ t.connection.toList

inductive TunnelAct where
  /-- A datagram of a client, which fits into the buffer of the inbound, and the number of its association. -/
  | datagram (assocId : UInt16) (recvBuf : List UInt8) (h : recvBuf.length ≤ 65535)
  /-- `connect_to_vless` is tried. -/
  | connect (engineState : EngineState) (c : Connect)
  /-- The upstream task takes a packet. -/
  | recv
  /-- The connection takes so many bytes of `write_all`. -/
  | write (n : ℕ)
  /-- The downstream task ends, or a write fails. -/
  | disconnect

/-- A datagram is put into the queue, if it can be read and there is room. -/
def GlobalTunnel.offer (t : GlobalTunnel) (assocId : UInt16) (recvBuf : List UInt8) : GlobalTunnel :=
  match udpRequest recvBuf with
  | none => t
  | some (target, payload) =>
    if t.queue.length < upstreamCapacity then
      { t with
        queue := t.queue ++ [⟨assocId, target, payload⟩]
        accepted := t.accepted ++ [⟨assocId, target, payload⟩] }
    else t

/-- `None`: this cannot happen here. -/
def globalTunnelStep (X : Crates) (t : GlobalTunnel) : TunnelAct → Option GlobalTunnel
  | .datagram assocId recvBuf _ => some (t.offer assocId recvBuf)
  | .connect engineState c => match t.connection with
    | some _ => none
    | none => match connectToVless X engineState c ⟨"0.0.0.0", 0⟩ with
      -- the loop sleeps and tries again
      | .error _ => some t
      | .ok (server, header) => some { t with connection := some ⟨server, header, [], [], []⟩ }
  | .recv => match t.connection, t.queue with
    | some c, packet :: queue =>
      if c.sendBuf = [] then
        some { t with
          queue := queue
          connection := some { c with taken := c.taken ++ [packet], sendBuf := upstreamFrame packet } }
      else none
    | _, _ => none
  | .write n => match t.connection with
    | some c => some { t with
        connection := some { c with written := c.written ++ c.sendBuf.take n, sendBuf := c.sendBuf.drop n } }
    | none => none
  | .disconnect => match t.connection with
    | some c => some { t with connection := none, ended := t.ended ++ [c] }
    | none => none

/-! ## What arrives of a connection -/

/-- What has arrived of a sequence: whole pieces, and a part of the next one if there is one. -/
theorem exists_whole {α β : Type} (g : α → List β) {l : List α} {got : List β} (h : got <+: l.flatMap g) :
    ∃ whole more part, l = whole ++ more ∧ got = whole.flatMap g ++ part ∧
      (more = [] ∧ part = [] ∨ ∃ a rest, more = a :: rest ∧ part <+: g a ∧ part.length < (g a).length) := by
  induction l generalizing got with
  | nil => exact ⟨[], [], [], rfl, List.prefix_nil.mp h, .inl ⟨rfl, rfl⟩⟩
  | cons a l ih =>
    rw [List.flatMap_cons] at h
    by_cases hle : (g a).length ≤ got.length
    · obtain ⟨got, rfl⟩ := List.prefix_of_prefix_length_le (List.prefix_append _ _) h hle
      obtain ⟨whole, more, part, rfl, rfl, hpart⟩ := ih ((List.prefix_append_right_inj _).mp h)
      exact ⟨a :: whole, more, part, rfl, by rw [List.flatMap_cons, List.append_assoc], hpart⟩
    · have hlt : got.length < (g a).length := Nat.lt_of_not_le hle
      have hpre := List.prefix_of_prefix_length_le h (List.prefix_append _ _) hlt.le
      exact ⟨[], a :: l, got, rfl, rfl, .inr ⟨a, l, rfl, hpre, hlt⟩⟩

/-- There is no more to read than has arrived. -/
theorem recvExact_short {n : ℕ} {stream : List (Arrival UInt8)} (h : (content stream).length < n) :
    ∃ stream', recvExact n stream = (none, stream') := by
  cases hr : recvExact n stream with
  | mk got stream' =>
    cases got with
    | none => exact ⟨stream', rfl⟩
    | some bs =>
      obtain ⟨hlen, hcontent⟩ := recvExact_spec hr
      rw [hcontent, List.length_append] at h
      omega

section

variable {τ : Type} {decode : Decode τ} {stream : List (Arrival UInt8)} {payloadBuf : List UInt8}

/-- **A frame that is cut off is not read.** -/
theorem frameRead_cut {frame : UInt16 × List UInt8} (hfits : 2 + frame.2.length ≤ 65535)
    (hroom : payloadBuf.length = payloadRoom) (hpre : content stream <+: wireFrame frame)
    (hlt : (content stream).length < (wireFrame frame).length) : frameRead decode stream payloadBuf = .ok none := by
  obtain ⟨assocId, body⟩ := frame
  replace hfits : 2 + body.length ≤ 65535 := hfits
  have hwire : wireFrame (assocId, body) = (u16Bytes (2 + body.length) ++ u16Bytes assocId.toNat) ++ body := by
    rw [wireFrame, List.append_assoc]
  rw [hwire] at hpre hlt
  have hfour : (u16Bytes (2 + body.length) ++ u16Bytes assocId.toNat).length = 4 := rfl
  by_cases hshort : (content stream).length < 4
  · obtain ⟨stream', hr⟩ := recvExact_short hshort
    rw [frameRead, hr]
  · -- the length is there, and less of the body than it says
    obtain ⟨part, hpart⟩ := List.prefix_of_prefix_length_le (List.prefix_append _ _) hpre (by omega)
    obtain ⟨stream₁, hr, hrest⟩ := recvExact_eq hpart.symm
    have hlen := u16At_header hfits assocId
    have hless : (content stream₁).length < 2 + body.length - 2 := by
      have hpartLt : part.length < body.length := by
        rw [← hpart] at hlt
        simpa using hlt
      rw [hrest]
      omega
    obtain ⟨stream₂, hr'⟩ := recvExact_short hless
    rw [payloadRoom] at hroom
    rw [hfour] at hr
    rw [frameRead, hr]
    simp only [hlen]
    rw [if_neg (by omega), if_neg (by omega), hr']

/-- What the server reads of a stream: the packets, and then no more. -/
def Reads (ipv4Only : Bool) (stream : List (Arrival UInt8)) (payloadBuf : List UInt8) (packets : List UdpUpstreamPacket) :
    Prop :=
  ∃ stream' payloadBuf', framesRead (frameTarget ipv4Only) packets.length stream payloadBuf =
      .ok (some (stream', payloadBuf', packets.map (·.sent ipv4Only))) ∧
    frameRead (frameTarget ipv4Only) stream' payloadBuf' = .ok none

/-- **What the server makes of what arrives**, in whatever pieces: whole packets, and no more than one is missing of
what all bytes but those of the last one are there. -/
theorem reads_taken (ipv4Only : Bool) {packets : List UdpUpstreamPacket} (haccepted : ∀ p ∈ packets, p.Accepted)
    (hroom : payloadBuf.length = payloadRoom) (h : content stream <+: packets.flatMap upstreamFrame) :
    ∃ whole, whole <+: packets ∧ Reads ipv4Only stream payloadBuf whole ∧
      (packets.dropLast.flatMap upstreamFrame <+: content stream → packets.length ≤ whole.length + 1) := by
  let wire : UdpUpstreamPacket → UInt16 × List UInt8 := fun p => (p.assocId, p.target.header ++ p.payload)
  obtain ⟨whole, more, part, rfl, hgot, hpart⟩ := exists_whole upstreamFrame h
  have hwhole : ∀ p ∈ whole, p.Accepted := fun p hp => haccepted p (List.mem_append_left more hp)
  have hfits : ∀ f ∈ whole.map wire, 2 + f.2.length ≤ 65535 := by
    intro f hf
    obtain ⟨p, hp, rfl⟩ := List.mem_map.mp hf
    exact (hwhole p hp).fits.1
  have hcontent : content stream = (whole.map wire).flatMap wireFrame ++ part := by
    rw [hgot, List.flatMap_map]
    exact congrArg (· ++ part) (List.flatMap_congr fun p _ => upstreamFrame_wire p)
  obtain ⟨stream', payloadBuf', hrest, hroom', hread⟩ :=
    framesRead_wire (frameTarget_finds ipv4Only) _ hfits hroom hcontent
  rw [List.length_map, List.map_map] at hread
  have hsent : whole.map (isolated (bodyTarget ipv4Only) ∘ wire) = whole.map (·.sent ipv4Only) :=
    List.map_congr_left fun p hp => isolated_sent ipv4Only (hwhole p hp).fits.2
  rw [hsent] at hread
  refine ⟨whole, List.prefix_append _ _, ⟨stream', payloadBuf', hread, ?_⟩, ?_⟩
  · obtain ⟨-, rfl⟩ | ⟨p, rest, rfl, hpre, hlt⟩ := hpart
    · have hempty : (content stream').length < 4 := by rw [hrest]; decide
      obtain ⟨stream'', hr⟩ := recvExact_short hempty
      rw [frameRead, hr]
    · have hp := (haccepted p (by simp)).fits.1
      rw [upstreamFrame_wire, ← hrest] at hpre hlt
      exact frameRead_cut hp hroom' hpre hlt
  · intro hall
    obtain ⟨rfl, -⟩ | ⟨p, rest, rfl, -, hlt⟩ := hpart
    · simp
    · cases rest with
      | nil => simp
      | cons q rest =>
        -- a whole packet would be missing before the last one
        have hlen := hall.length_le
        rw [hgot, List.dropLast_append_of_ne_nil (by simp), List.flatMap_append, List.length_append, List.length_append,
          List.dropLast_cons_of_ne_nil (by simp), List.flatMap_cons, List.length_append] at hlen
        omega

end

/-! ## The runs of the tunnel -/

variable {X : Crates}

/-- A connection has its header, and what it has taken are frames of packets that were accepted, of which no more than
the last one is in hand. -/
structure TunnelConnection.Sound (c : TunnelConnection) : Prop where
  header : ∃ uuid, c.header = tunnelRequestHeader uuid ⟨"0.0.0.0", 0⟩
  accepted : ∀ p ∈ c.taken, p.Accepted
  frames : c.written ++ c.sendBuf = c.taken.flatMap upstreamFrame
  finished : c.taken.dropLast.flatMap upstreamFrame <+: c.written

/-- The invariant: every packet that was accepted is where it belongs. -/
structure GlobalTunnel.Kept (t : GlobalTunnel) : Prop where
  waiting : ∀ p ∈ t.queue, p.Accepted
  sound : ∀ c ∈ t.connections, c.Sound
  order : t.accepted = t.connections.flatMap (·.taken) ++ t.queue

theorem GlobalTunnel.start_kept : GlobalTunnel.start.Kept :=
  ⟨fun _ h => absurd h List.not_mem_nil, fun _ h => absurd h List.not_mem_nil, rfl⟩

theorem GlobalTunnel.Kept.offer {t : GlobalTunnel} (h : t.Kept) (assocId : UInt16) {recvBuf : List UInt8}
    (hlen : recvBuf.length ≤ 65535) : (t.offer assocId recvBuf).Kept := by
  unfold GlobalTunnel.offer
  split
  · exact h
  · next target payload hrequest =>
    split_ifs
    · refine ⟨?_, h.sound, ?_⟩
      · intro p hp
        rcases List.mem_append.mp hp with hp | hp
        · exact h.waiting p hp
        · obtain rfl := List.mem_singleton.mp hp
          exact ⟨recvBuf, hlen, hrequest⟩
      · show t.accepted ++ _ = _ ++ (t.queue ++ _)
        rw [h.order, List.append_assoc]
        rfl
    · exact h

/-- A new connection has taken nothing. -/
theorem connectToVless_sound {engineState : EngineState} {c : Connect} {server : SocketAddr} {header : List UInt8}
    (h : connectToVless X engineState c ⟨"0.0.0.0", 0⟩ = .ok (server, header)) :
    (⟨server, header, [], [], []⟩ : TunnelConnection).Sound := by
  refine ⟨?_, fun _ h => absurd h List.not_mem_nil, rfl, List.prefix_rfl⟩
  simp only [connectToVless, bind_ok] at h
  obtain ⟨addr, -, cfg, -, uuid, -, response, -, u, -, h⟩ := h
  exact ⟨uuid, (Prod.mk.inj (Except.ok.inj h)).2.symm⟩

theorem TunnelConnection.Sound.recv {c : TunnelConnection} (h : c.Sound) (hdone : c.sendBuf = [])
    {packet : UdpUpstreamPacket} (hpacket : packet.Accepted) :
    ({ c with taken := c.taken ++ [packet], sendBuf := upstreamFrame packet } : TunnelConnection).Sound := by
  have hall : c.written = c.taken.flatMap upstreamFrame := by
    have hframes := h.frames
    rwa [hdone, List.append_nil] at hframes
  refine ⟨h.header, ?_, ?_, ?_⟩
  · intro p hp
    rcases List.mem_append.mp hp with hp | hp
    · exact h.accepted p hp
    · exact List.mem_singleton.mp hp ▸ hpacket
  · show c.written ++ upstreamFrame packet = (c.taken ++ [packet]).flatMap upstreamFrame
    rw [hall, List.flatMap_append, List.flatMap_singleton]
  · show (c.taken ++ [packet]).dropLast.flatMap upstreamFrame <+: c.written
    rw [List.dropLast_concat, hall]

theorem TunnelConnection.Sound.write {c : TunnelConnection} (h : c.Sound) (n : ℕ) :
    ({ c with written := c.written ++ c.sendBuf.take n, sendBuf := c.sendBuf.drop n } : TunnelConnection).Sound := by
  refine ⟨h.header, h.accepted, ?_, h.finished.trans (List.prefix_append _ _)⟩
  show c.written ++ c.sendBuf.take n ++ c.sendBuf.drop n = _
  rw [List.append_assoc, List.take_append_drop, h.frames]

section

variable {queue : List UdpUpstreamPacket} {ended : List TunnelConnection} {accepted : List UdpUpstreamPacket}

theorem GlobalTunnel.kept_none : (⟨queue, none, ended, accepted⟩ : GlobalTunnel).Kept ↔
    (∀ p ∈ queue, p.Accepted) ∧ (∀ c ∈ ended, c.Sound) ∧ accepted = ended.flatMap (·.taken) ++ queue := by
  have hconnections : connections ⟨queue, none, ended, accepted⟩ = ended := List.append_nil _
  constructor
  · rintro ⟨hwaiting, hsound, horder⟩
    rw [hconnections] at hsound horder
    exact ⟨hwaiting, hsound, horder⟩
  · rintro ⟨hwaiting, hsound, horder⟩
    refine ⟨hwaiting, ?_, ?_⟩
    · rwa [hconnections]
    · rwa [hconnections]

theorem GlobalTunnel.kept_some {c : TunnelConnection} : (⟨queue, some c, ended, accepted⟩ : GlobalTunnel).Kept ↔
    (∀ p ∈ queue, p.Accepted) ∧ (∀ c' ∈ ended, c'.Sound) ∧ c.Sound ∧
      accepted = ended.flatMap (·.taken) ++ (c.taken ++ queue) := by
  have hconnections : connections ⟨queue, some c, ended, accepted⟩ = ended ++ [c] := rfl
  have hflat : (ended ++ [c]).flatMap (·.taken) ++ queue = ended.flatMap (·.taken) ++ (c.taken ++ queue) := by simp
  constructor
  · rintro ⟨hwaiting, hsound, horder⟩
    rw [hconnections] at hsound horder
    obtain ⟨hended, hc⟩ := List.forall_mem_append.mp hsound
    exact ⟨hwaiting, hended, hc c (List.mem_singleton_self c), horder.trans hflat⟩
  · rintro ⟨hwaiting, hended, hc, horder⟩
    refine ⟨hwaiting, ?_, ?_⟩
    · rw [hconnections]
      exact List.forall_mem_append.mpr ⟨hended, List.forall_mem_singleton.mpr hc⟩
    · rw [hconnections]
      exact horder.trans hflat.symm

end

/-- **Every step keeps the invariant.** -/
theorem globalTunnelStep_kept (t : GlobalTunnel) (a : TunnelAct) (t' : GlobalTunnel) (h : t.Kept)
    (hstep : globalTunnelStep X t a = some t') : t'.Kept := by
  obtain ⟨queue, connection, ended, accepted⟩ := t
  cases a with
  | datagram assocId recvBuf hlen =>
    obtain rfl := Option.some.inj hstep
    exact h.offer assocId hlen
  | connect engineState c =>
    cases connection with
    | some c' => cases hstep
    | none =>
      cases hconnect : connectToVless X engineState c ⟨"0.0.0.0", 0⟩ with
      | error e =>
        simp only [globalTunnelStep, hconnect, Option.some.injEq] at hstep
        exact hstep ▸ h
      | ok p =>
        simp only [globalTunnelStep, hconnect, Option.some.injEq] at hstep
        subst hstep
        obtain ⟨hwaiting, hended, horder⟩ := GlobalTunnel.kept_none.mp h
        exact GlobalTunnel.kept_some.mpr ⟨hwaiting, hended, connectToVless_sound hconnect, horder⟩
  | recv =>
    cases connection with
    | none => cases hstep
    | some c =>
      cases queue with
      | nil => cases hstep
      | cons packet queue =>
        simp only [globalTunnelStep] at hstep
        split_ifs at hstep with hdone
        obtain rfl := Option.some.inj hstep
        obtain ⟨hwaiting, hended, hc, horder⟩ := GlobalTunnel.kept_some.mp h
        obtain ⟨hpacket, hrest⟩ := List.forall_mem_cons.mp hwaiting
        -- the first of the queue is the last one that is taken
        have hmove : c.taken ++ packet :: queue = c.taken ++ [packet] ++ queue := by simp
        exact GlobalTunnel.kept_some.mpr ⟨hrest, hended, hc.recv hdone hpacket, hmove ▸ horder⟩
  | write n =>
    cases connection with
    | none => cases hstep
    | some c =>
      obtain rfl := Option.some.inj hstep
      obtain ⟨hwaiting, hended, hc, horder⟩ := GlobalTunnel.kept_some.mp h
      exact GlobalTunnel.kept_some.mpr ⟨hwaiting, hended, hc.write n, horder⟩
  | disconnect =>
    cases connection with
    | none => cases hstep
    | some c =>
      obtain rfl := Option.some.inj hstep
      obtain ⟨hwaiting, hended, hc, horder⟩ := GlobalTunnel.kept_some.mp h
      refine GlobalTunnel.kept_none.mpr ⟨hwaiting, ?_, ?_⟩
      · exact List.forall_mem_append.mpr ⟨hended, List.forall_mem_singleton.mpr hc⟩
      · rw [horder, List.flatMap_append, List.flatMap_singleton, List.append_assoc]

/-- A server that knows the account takes up the header of a connection and reads the packets behind it. -/
theorem TunnelConnection.Sound.served {c : TunnelConnection} (h : c.Sound) {uuid : Uuid}
    (hheader : c.header = tunnelRequestHeader uuid ⟨"0.0.0.0", 0⟩) {far : EngineState} {now : ℤ} (ipv4Only : Bool)
    {stream : List (Arrival UInt8)} {got payloadBuf : List UInt8} (hallowed : (far.authenticateClient now uuid).isSome)
    (hroom : payloadBuf.length = payloadRoom) (hstream : content stream = c.header ++ got) (hgot : got <+: c.written) :
    ∃ rest whole, parseVlessInbound far now true stream = ⟨.ok ⟨"0.0.0.0", 0, uuid, 2⟩, rest, [0, 0]⟩ ∧
      whole <+: c.taken ∧ Reads ipv4Only rest payloadBuf whole ∧
      (got = c.written → c.taken.length ≤ whole.length + 1) := by
  -- the header
  have hdest : (parseIpAddr "0.0.0.0").isSome ∨ (utf8 "0.0.0.0").length ≤ 255 := .inr (by decide)
  have hcanonical : canonicalDest "0.0.0.0" = "0.0.0.0" := by decide
  have htaken := vlessInbound_takes () () (.tunnel : WritesHeader uuid ⟨"0.0.0.0", 0⟩ 2 _) hdest hallowed
  rw [hheader] at hstream
  obtain ⟨rest, hrest, hserve⟩ := Party.serve_takes "read" htaken hstream
  rw [vlessInbound_serve, hcanonical] at hserve
  obtain ⟨hresult, hleft, hwritten⟩ := Served.mk.inj hserve
  -- the packets
  have hframes : content rest <+: c.taken.flatMap upstreamFrame := by
    rw [hrest, ← h.frames]
    exact hgot.trans (List.prefix_append _ _)
  obtain ⟨whole, hwhole, hreads, hall⟩ := reads_taken ipv4Only h.accepted hroom hframes
  refine ⟨rest, whole, ?_, hwhole, hreads, fun heq => hall ?_⟩
  · exact (VlessOutcome.mk.injEq _ _ _ _ _ _).mpr ⟨hresult, hleft, hwritten⟩
  · rw [hrest, heq]
    exact h.finished

/-- **The packets of the tunnel, across its connections.** What was accepted is what the connections have taken, one
after the other, and what waits. Of what a connection has written a server takes up the header and reads whole packets,
the first ones that were taken, up to the last one or the one before it when all has arrived. -/
theorem tunnel_delivers {acts : List TunnelAct} {t : GlobalTunnel}
    (h : exec (globalTunnelStep X) .start acts = some t) :
    t.accepted = t.connections.flatMap (·.taken) ++ t.queue ∧
    (∀ c ∈ t.connections, ∃ uuid, c.header = tunnelRequestHeader uuid ⟨"0.0.0.0", 0⟩) ∧
    ∀ c ∈ t.connections, ∀ (uuid : Uuid) (far : EngineState) (now : ℤ) (ipv4Only : Bool) (stream : List (Arrival UInt8))
        (got payloadBuf : List UInt8),
      c.header = tunnelRequestHeader uuid ⟨"0.0.0.0", 0⟩ → (far.authenticateClient now uuid).isSome →
      payloadBuf.length = payloadRoom → content stream = c.header ++ got → got <+: c.written →
      ∃ rest whole, parseVlessInbound far now true stream = ⟨.ok ⟨"0.0.0.0", 0, uuid, 2⟩, rest, [0, 0]⟩ ∧
        whole <+: c.taken ∧ Reads ipv4Only rest payloadBuf whole ∧
        (got = c.written → c.taken.length ≤ whole.length + 1) := by
  have hkept : t.Kept := exec_invariant globalTunnelStep_kept GlobalTunnel.start_kept h
  refine ⟨hkept.order, fun c hc => (hkept.sound c hc).header, ?_⟩
  intro c hc uuid far now ipv4Only stream got payloadBuf hheader hallowed hroom hstream hgot
  exact (hkept.sound c hc).served hheader ipv4Only hallowed hroom hstream hgot

/-- The run of a connection that ends when it has taken three bytes of its second packet. -/
def tunnelCut : List TunnelAct :=
  [.datagram 1 [0, 0, 0, 1, 8, 8, 8, 8, 0, 53, 65] (by decide), .connect forwardingEngine sampleConnect, .recv, .write 7,
    .datagram 1 [0, 0, 0, 1, 8, 8, 8, 8, 0, 53, 66] (by decide), .write 20, .recv, .write 3, .disconnect]

def cutPacket (letter : UInt8) : UdpUpstreamPacket := ⟨1, .ip (.v4 (.new 8 8 8 8)) 53, [letter]⟩

def cutConnection : TunnelConnection where
  server := ⟨.v4 (.new 192 0 2 7), 443⟩
  header := tunnelRequestHeader fiveBytes.uuid ⟨"0.0.0.0", 0⟩
  taken := [cutPacket 65, cutPacket 66]
  written := upstreamFrame (cutPacket 65) ++ [0, 10, 0]
  sendBuf := (upstreamFrame (cutPacket 66)).drop 3

theorem tunnelCut_exec : exec (globalTunnelStep Sample.crates) .start tunnelCut =
    some ⟨[], none, [cutConnection], [cutPacket 65, cutPacket 66]⟩ := by
  rfl

/-- The theorem on that run: of the two packets the server reads one at least. -/
theorem tunnel_delivers_cut :
    ∃ rest whole, parseVlessInbound fiveBytesEngine 0 true [.data cutConnection.header, .data cutConnection.written] =
        ⟨.ok ⟨"0.0.0.0", 0, fiveBytes.uuid, 2⟩, rest, [0, 0]⟩ ∧
      whole <+: [cutPacket 65, cutPacket 66] ∧ Reads false rest (List.replicate payloadRoom 0) whole ∧
      2 ≤ whole.length + 1 := by
  have hallowed : (fiveBytesEngine.authenticateClient 0 fiveBytes.uuid).isSome := by decide +kernel
  obtain ⟨rest, whole, hparsed, hwhole, hreads, hall⟩ := (tunnel_delivers tunnelCut_exec).2.2 cutConnection
    (List.mem_singleton_self _) fiveBytes.uuid fiveBytesEngine 0 false
    [.data cutConnection.header, .data cutConnection.written] cutConnection.written (List.replicate payloadRoom 0) rfl
    hallowed List.length_replicate (by simp [content]) List.prefix_rfl
  exact ⟨rest, whole, hparsed, hwhole, hreads, hall rfl⟩

end RXCore
