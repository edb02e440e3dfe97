import RXCore.Lib.Run
import RXCore.Net.Text
import RXCore.Outbound.Contacts
import RXCore.Outbound.Frames

/-!
# Sockets and address families

The associations of `handle_multiplexed` over whole uploads. The socket of an association is made for one of
its frames, has the address family of what is found for that frame, and sends every later frame of the
association until the session has been idle.

* `UdpTarget.first`, `createOutboundUdp_iff`: what a socket is made for;
* `Uplink`, `Uplink.step`: a handler with its tasks, the frames still to come and those that opened sessions;
* `Uplink.SendsOwn`: a frame goes to its own target, from a socket of its family or through the proxy;
* `UdpRelay.sendsAs_iff`: one turn; `Uplink.Fit.step`: sessions and the frames that opened them;
* **`uplink_families_iff`**: every frame goes out so if and only if every one has the family of the frame that
  opened its session.
-/

set_option autoImplicit false

namespace RXCore

open Encoding Tables

/-! ## What a socket is made for -/

/-- The address that is found first for a target. -/
def UdpTarget.first (A : Answers) : UdpTarget → Option SocketAddr
  | .ip addr port => some ⟨addr, port⟩
  | .domain name port => match parseIpAddr name with
    | some addr => some ⟨addr, port⟩
    | none => (A.lookupHost name port).toOption.bind List.head?

/-- The address that a new socket is made for: that of the target, or that of the relay of the proxy. -/
def UdpOutbound.socketTarget (u : UdpOutbound) (A : Answers) (target : UdpTarget) : Option SocketAddr :=
  match u.outboundProxy with
  | none => target.first A
  | some proxy => (socks5UdpAssociate A false proxy u.bindAddress).toOption

/-- The family of its socket: `create_outbound_udp` binds it by the address that it has found. -/
def UdpPeer.socketIpv4 (p : UdpPeer) : Bool := p.sendTarget.ip.isIpv4

section

variable {A : Answers} {target : UdpTarget} {host : String} {port : UInt16} {addr : SocketAddr}

/-- The text of an address is found to be the address. -/
theorem udpTargetAddr_locate (h : target.locate A = some (host, port, addr)) :
    (udpTargetAddr A false host port).toOption = target.first A := by
  cases target with
  | ip ip port' =>
    simp only [UdpTarget.locate, Option.some.injEq, Prod.mk.injEq] at h
    obtain ⟨rfl, rfl, -⟩ := h
    simp [udpTargetAddr, parseIpAddr_display, UdpTarget.first, Except.toOption]
  | domain name port' =>
    simp only [UdpTarget.locate] at h
    split at h
    · simp only [Option.some.injEq, Prod.mk.injEq] at h
      obtain ⟨rfl, rfl, -⟩ := h
      simp only [udpTargetAddr, UdpTarget.first]
      cases parseIpAddr name with
      | some ip => rfl
      | none =>
        simp only [Bool.false_eq_true, if_false]
        rcases A.lookupHost name port' with e | _ | ⟨addr', l⟩ <;> rfl
    · cases h

/-- **What a new socket is made for**, and when it is made. -/
theorem createOutboundUdp_iff (u : UdpOutbound) (h : target.locate A = some (host, port, addr)) (peer : UdpPeer) :
    createOutboundUdp A false host port u.outboundProxy u.bindAddress = .ok peer ↔
      A.bindUdp = .ok () ∧ u.socketTarget A target = some peer.sendTarget ∧ peer.relay = u.outboundProxy := by
  obtain ⟨proxy, bindIp⟩ := u
  have hfound : ∀ {e : Except String SocketAddr} {a : SocketAddr}, e.toOption = some a → e = .ok a := by
    intro e a ha
    cases e with
    | error e => cases ha
    | ok b => rw [Option.some.inj ha]
  unfold UdpOutbound.socketTarget
  cases proxy with
  | none =>
    simp only [← udpTargetAddr_locate h]
    constructor
    · intro hpeer
      simp only [createOutboundUdp, bind_ok] at hpeer
      obtain ⟨a, ha, ⟨⟩, hbind, hpeer⟩ := hpeer
      obtain rfl := Except.ok.inj hpeer
      rw [ha]
      exact ⟨hbind, rfl, rfl⟩
    · rintro ⟨hbind, ha, hrelay⟩
      simp only [createOutboundUdp, bind_ok]
      exact ⟨_, hfound ha, (), hbind, by rw [← hrelay]; rfl⟩
  | some proxy =>
    simp only
    constructor
    · intro hpeer
      simp only [createOutboundUdp, bind_ok] at hpeer
      obtain ⟨a, ha, -, -, ⟨⟩, hbind, hpeer⟩ := hpeer
      obtain rfl := Except.ok.inj hpeer
      rw [ha]
      exact ⟨hbind, rfl, rfl⟩
    · rintro ⟨hbind, ha, hrelay⟩
      have hv6 : ¬ (peer.sendTarget.ip.isIpv6 ∧ false = true) := fun hc => absurd hc.2 Bool.false_ne_true
      simp only [createOutboundUdp, bind_ok]
      exact ⟨_, hfound ha, (), refuseIf_ok.mpr hv6, (), hbind, by rw [← hrelay]; rfl⟩

end

/-! ## One turn -/

/-- The session that sends the next frame. -/
def UdpRelay.sender (r : UdpRelay) (A : Answers) : Option UdpPeer :=
  (r.frame A false).bind fun f => (r.session A false f).map (·.1)

/-- The address of the session of an association, or of the one that it would get. -/
def UdpRelay.assocTarget (r : UdpRelay) (A : Answers) (f : RawFrame UdpTarget) : Option SocketAddr :=
  match r.sessions.lookup (.assoc f.assocId) with
  | some s => some s.peer.sendTarget
  | none => r.outbound.socketTarget A f.found

/-- There is a session for a frame, or the operating system lets there be one. -/
def UdpRelay.CanSend (r : UdpRelay) (A : Answers) (f : RawFrame UdpTarget) : Prop :=
  (r.sessions.lookup (.assoc f.assocId)).isSome ∨
    A.bindUdp = .ok () ∧ (r.outbound.socketTarget A f.found).isSome

/-- A frame by itself as a datagram: to its own target, or to a relay with its own header. -/
def RawFrame.own (u : UdpOutbound) (f : RawFrame UdpTarget) (addr : SocketAddr) (peer : UdpPeer) : Datagram :=
  match u.outboundProxy with
  | none => ⟨none, addr, f.payload, f.payload⟩
  | some proxy => ⟨some proxy, peer.sendTarget, [0, 0, 0] ++ f.header ++ f.payload, f.payload⟩

/-- A turn sends a frame, whose target has the given address, as its own datagram, and from a socket of the
family of that address if there is no proxy. -/
structure UdpRelay.SendsAs (r : UdpRelay) (t : UdpTurn) (f : RawFrame UdpTarget) (addr : SocketAddr) : Prop where
  leaves : (r.sender t.answers).isSome ↔ r.CanSend t.answers f
  sent : (r.turn false t).map (·.2) =
    some (if t.sendOk then (r.sender t.answers).map (f.own r.outbound addr) else none)
  assoc : ∀ peer ∈ r.sender t.answers, r.assocTarget t.answers f = some peer.sendTarget
  family : r.outbound.outboundProxy = none → ∀ peer ∈ r.sender t.answers, peer.socketIpv4 = addr.ip.isIpv4

section

variable {r r' : UdpRelay} {A : Answers} {ipv4Only : Bool} {t : UdpTurn}

/-- A session is the one there is, or a new one. -/
theorem UdpRelay.session_cases {f : Frame} {peer : UdpPeer} (h : r.session A ipv4Only f = some (peer, r')) :
    (r' = r ∧ ∃ s, r.sessions.lookup f.key = some s ∧ s.peer = peer) ∨
      (r.sessions.lookup f.key = none ∧ r' = { r with sessions := r.sessions.insert f.key ⟨peer, true⟩ } ∧
        createOutboundUdp A ipv4Only f.host f.port r.outbound.outboundProxy r.outbound.bindAddress = .ok peer) := by
  unfold UdpRelay.session at h
  split at h
  · next s hs =>
    obtain ⟨rfl, rfl⟩ := Prod.mk.inj (Option.some.inj h)
    exact .inl ⟨rfl, s, hs, rfl⟩
  · next hnone =>
    split at h
    · cases h
    · next peer' hpeer =>
      obtain ⟨rfl, rfl⟩ := Prod.mk.inj (Option.some.inj h)
      exact .inr ⟨hnone, rfl, hpeer⟩

theorem UdpRelay.session_outbound {f : Frame} {peer : UdpPeer} (h : r.session A ipv4Only f = some (peer, r')) :
    r'.outbound = r.outbound := by
  rcases UdpRelay.session_cases h with ⟨rfl, -⟩ | ⟨-, rfl, -⟩ <;> rfl

/-- What a turn sends. -/
theorem UdpRelay.turn_sent {f : Frame} (h : r.frame t.answers ipv4Only = some f) :
    (r.turn ipv4Only t).map (·.2) = some (if t.sendOk then
      (r.session t.answers ipv4Only f).map fun s => r.outbound.datagram s.1 f else none) := by
  obtain ⟨⟨reader', f'⟩, hnext, hf⟩ := Option.bind_eq_some_iff.mp h
  obtain ⟨reader, hreader, hnext⟩ := Option.bind_eq_some_iff.mp hnext
  obtain rfl : f' = some f := hf
  rw [UdpRelay.turn, hreader]
  simp only [hnext]
  cases hs : r.session t.answers ipv4Only f with
  | none => simp
  | some s =>
    obtain ⟨peer, r₁⟩ := s
    simp only [Option.map_some, UdpRelay.session_outbound hs]

/-- The frame of the loop that a frame of the client becomes. -/
theorem RawFrame.toFrame_eq {f : RawFrame UdpTarget} {host : String} {port : UInt16} {addr : SocketAddr}
    (h : f.found.locate A = some (host, port, addr)) :
    f.toFrame A = some ⟨.assoc f.assocId, host, port, some addr, f.header, f.payload⟩ := by
  rw [RawFrame.toFrame, h]
  rfl

/-- What a turn does: the loop ends, the frame is skipped, or it is sent and idle sessions are closed. -/
theorem UdpRelay.turn_cases {sent : Option Datagram} (h : r.turn ipv4Only t = some (r', sent)) :
    ∃ reader, r.reader = some reader ∧ ((reader.next r.outbound t.answers ipv4Only = none ∧ r' = r.finish) ∨
      ∃ reader' f, reader.next r.outbound t.answers ipv4Only = some (reader', f) ∧
        (r' = { r with reader := some reader' } ∨
          ∃ f' ∈ f, ∃ peer r₁, r.session t.answers ipv4Only f' = some (peer, r₁) ∧
            r' = { r₁ with reader := some reader'.sent }.cleanup t.idle)) := by
  unfold UdpRelay.turn at h
  split at h
  · cases h
  · next reader hreader =>
    refine ⟨reader, hreader, ?_⟩
    split at h
    · next hnext =>
      obtain ⟨rfl, -⟩ := Prod.mk.inj (Option.some.inj h)
      exact .inl ⟨hnext, rfl⟩
    · next reader' hnext =>
      obtain ⟨rfl, -⟩ := Prod.mk.inj (Option.some.inj h)
      exact .inr ⟨reader', none, hnext, .inl rfl⟩
    · next reader' f hnext =>
      split at h
      · obtain ⟨rfl, -⟩ := Prod.mk.inj (Option.some.inj h)
        exact .inr ⟨reader', some f, hnext, .inl rfl⟩
      · next peer r₁ hs =>
        obtain ⟨rfl, -⟩ := Prod.mk.inj (Option.some.inj h)
        exact .inr ⟨reader', some f, hnext, .inr ⟨f, rfl, peer, r₁, hs, rfl⟩⟩

/-- A receive task leaves every session its socket. -/
theorem UdpRelay.receive_peers {key : SessionKey} {udpBuf : List UInt8} {remoteAddr : SocketAddr} {writeOk : Bool}
    {e : Option Egress} {n : ℕ} (h : r.receive key udpBuf remoteAddr writeOk = some (r', e, n)) :
    r'.outbound = r.outbound ∧ r'.reader = r.reader ∧
      ∀ k, (r'.sessions.lookup k).map (·.peer) = (r.sessions.lookup k).map (·.peer) := by
  unfold UdpRelay.receive at h
  split at h
  · cases h
  · next s hs =>
    have hstop : ∀ k, ((r.stopReceiving key s).sessions.lookup k).map (·.peer) = (r.sessions.lookup k).map (·.peer) := by
      intro k
      by_cases hk : k = key
      · subst hk
        simp [UdpRelay.stopReceiving, hs]
      · simp [UdpRelay.stopReceiving, AList.lookup_insert_ne hk]
    split_ifs at h
    · obtain ⟨rfl, -⟩ := by simpa using h
      exact ⟨rfl, rfl, hstop⟩
    · split at h
      · obtain ⟨rfl, -⟩ := by simpa using h
        exact ⟨rfl, rfl, fun _ => rfl⟩
      · next src payload _ =>
        obtain rfl : (r.deliver key s src payload writeOk).1 = r' := congrArg Prod.fst (Option.some.inj h)
        unfold UdpRelay.deliver
        split_ifs
        · exact ⟨rfl, rfl, fun _ => rfl⟩
        · exact ⟨rfl, rfl, hstop⟩
        · exact ⟨rfl, rfl, hstop⟩
        · exact ⟨rfl, rfl, fun _ => rfl⟩
        · exact ⟨rfl, rfl, fun _ => rfl⟩

theorem UdpRelay.write_peers {writeOk : Bool} {e : Option Egress} (h : r.write writeOk = some (r', e)) :
    r'.outbound = r.outbound ∧ r'.reader = r.reader ∧ r'.sessions = r.sessions := by
  unfold UdpRelay.write at h
  split at h
  · cases h
  · split_ifs at h
    · obtain ⟨rfl, -⟩ := Prod.mk.inj (Option.some.inj h)
      exact ⟨rfl, rfl, rfl⟩
    · obtain ⟨rfl, -⟩ := Prod.mk.inj (Option.some.inj h)
      exact ⟨rfl, rfl, rfl⟩

variable {f : RawFrame UdpTarget} {host : String} {port : UInt16} {addr : SocketAddr}

/-- **Who sends a frame**: the session of its association, or else a new one. -/
theorem UdpRelay.mem_sender_iff (hlocate : f.found.locate A = some (host, port, addr))
    (hframe : r.frame A false = f.toFrame A) (peer : UdpPeer) : peer ∈ r.sender A ↔
      (∃ s, r.sessions.lookup (.assoc f.assocId) = some s ∧ s.peer = peer) ∨
        (r.sessions.lookup (.assoc f.assocId) = none ∧ A.bindUdp = .ok () ∧
          r.outbound.socketTarget A f.found = some peer.sendTarget ∧ peer.relay = r.outbound.outboundProxy) := by
  rw [RawFrame.toFrame_eq hlocate] at hframe
  simp only [UdpRelay.sender, hframe, Option.bind_some, UdpRelay.session, ← createOutboundUdp_iff r.outbound hlocate]
  cases r.sessions.lookup (.assoc f.assocId) with
  | some s => simp
  | none =>
    cases createOutboundUdp A false host port r.outbound.outboundProxy r.outbound.bindAddress <;> simp

/-- The datagram of a frame is its own. -/
theorem UdpOutbound.datagram_own (u : UdpOutbound) {peer : UdpPeer} (hpeer : peer.relay = u.outboundProxy)
    (f : RawFrame UdpTarget) (host : String) (port : UInt16) (addr : SocketAddr) :
    u.datagram peer ⟨.assoc f.assocId, host, port, some addr, f.header, f.payload⟩ = f.own u addr peer := by
  rw [UdpOutbound.datagram, RawFrame.own, hpeer]
  cases u.outboundProxy <;> rfl

/-- **One turn.** A frame is always sent as its own datagram; only the family of the socket is in question. -/
theorem UdpRelay.sendsAs_iff (hr : r.Through r.outbound.outboundProxy)
    (hlocate : f.found.locate t.answers = some (host, port, addr))
    (hframe : r.frame t.answers false = f.toFrame t.answers) : r.SendsAs t f addr ↔
      (r.outbound.outboundProxy = none → ∀ peer ∈ r.sender t.answers, peer.socketIpv4 = addr.ip.isIpv4) := by
  have hsender := UdpRelay.mem_sender_iff hlocate hframe
  refine ⟨fun h => h.family, fun h => ⟨?_, ?_, ?_, h⟩⟩
  · rw [UdpRelay.CanSend, Option.isSome_iff_exists, Option.isSome_iff_exists, Option.isSome_iff_exists]
    constructor
    · rintro ⟨peer, hpeer⟩
      rcases (hsender peer).mp hpeer with ⟨s, hs, -⟩ | ⟨-, hbind, htarget, -⟩
      · exact .inl ⟨s, hs⟩
      · exact .inr ⟨hbind, _, htarget⟩
    · intro hcan
      cases hs : r.sessions.lookup (.assoc f.assocId) with
      | some s => exact ⟨s.peer, (hsender _).mpr (.inl ⟨s, hs, rfl⟩)⟩
      | none =>
        rcases hcan with ⟨s, hs'⟩ | ⟨hbind, a, ha⟩
        · rw [hs] at hs'
          cases hs'
        · exact ⟨⟨r.outbound.outboundProxy, a⟩, (hsender _).mpr (.inr ⟨hs, hbind, ha, rfl⟩)⟩
  · have hf := hframe.trans (RawFrame.toFrame_eq hlocate)
    rw [UdpRelay.turn_sent hf, UdpRelay.sender, hf, Option.bind_some, Option.map_map]
    cases hs : r.session t.answers false ⟨.assoc f.assocId, host, port, some addr, f.header, f.payload⟩ with
    | none => rfl
    | some s =>
      obtain ⟨peer, r₁⟩ := s
      simp only [Option.map_some, Function.comp_apply, r.outbound.datagram_own (hr.session hs).1]
  · intro peer hpeer
    unfold UdpRelay.assocTarget
    rcases (hsender peer).mp hpeer with ⟨s, hs, rfl⟩ | ⟨hs, -, htarget, -⟩
    · rw [hs]
    · rw [hs]
      exact htarget

end

/-! ## Uploads -/

/-- What a handler or one of its tasks does next. -/
inductive UdpEvent where
  | turn (t : UdpTurn)
  | receive (key : SessionKey) (udpBuf : List UInt8) (remoteAddr : SocketAddr) (writeOk : Bool)
  | write (writeOk : Bool)

/-- An upload in the middle. -/
structure Uplink where
  relay : UdpRelay
  /-- The frames of the client that are still to come. -/
  coming : List (UInt16 × List UInt8)
  /-- The target of the frame that has opened a session, as long as there is the session. -/
  opener : SessionKey → Option SocketAddr

/-- The next frame, if it has a target, and the address of the target. -/
def Uplink.next (s : Uplink) (A : Answers) : Option (RawFrame UdpTarget × SocketAddr) :=
  (s.coming.head?.bind (isolated (bodyTarget false))).bind fun f =>
    (f.found.locate A).map fun (_, _, addr) => (f, addr)

/-- The frames that have opened the sessions that there are after a turn. -/
def Uplink.openers (s : Uplink) (A : Answers) (r : UdpRelay) (k : SessionKey) : Option SocketAddr :=
  if (r.sessions.lookup k).isSome then
    (s.opener k).or (((s.next A).filter fun x => SessionKey.assoc x.1.assocId = k).map (·.2))
  else none

/-- A step of the handler or of one of its tasks. -/
def Uplink.step (s : Uplink) : UdpEvent → Option Uplink
  | .turn t => (s.relay.turn false t).map fun (r, _) => ⟨r, s.coming.tail, s.openers t.answers r⟩
  | .receive key udpBuf remoteAddr writeOk =>
    (s.relay.receive key udpBuf remoteAddr writeOk).map fun (r, _, _) => { s with relay := r }
  | .write writeOk => (s.relay.write writeOk).map fun (r, _) => { s with relay := r }

/-- Every frame with a target is sent as its own datagram, from a socket of its family or through the proxy. -/
def Uplink.SendsOwn (s : Uplink) : UdpEvent → Prop
  | .turn t => ∀ x ∈ s.next t.answers, s.relay.SendsAs t x.1 x.2
  | _ => True

/-- Without a proxy, a frame has a target of the same family as the frame that has opened the session of its
association; and where it opens the session, the address that is found first for it has the family of its target. -/
def Uplink.OneFamily (s : Uplink) : UdpEvent → Prop
  | .turn t => s.relay.outbound.outboundProxy = none → ∀ x ∈ s.next t.answers,
    match s.opener (.assoc x.1.assocId) with
    | some addr => addr.ip.isIpv4 = x.2.ip.isIpv4
    | none => t.answers.bindUdp = .ok () → ∀ addr ∈ x.1.found.first t.answers, addr.ip.isIpv4 = x.2.ip.isIpv4
  | _ => True

/-! ## Sessions and the frames that opened them -/

/-- The loop reads the frames of the client to the last one. -/
structure Uplink.Reads (s : Uplink) : Prop where
  reader : ∀ reader ∈ s.relay.reader, ∃ buf, reader = .multiplexed (s.coming.flatMap wireFrame) buf
  fits : ∀ frame ∈ s.coming, 2 + frame.2.length ≤ 65535
  ended : s.relay.reader = none → s.coming = []

/-- A session has a socket of the family of the frame that has opened it. -/
structure Uplink.Fit (s : Uplink) : Prop where
  reads : s.Reads
  through : s.relay.Through s.relay.outbound.outboundProxy
  opened : ∀ k session, s.relay.sessions.lookup k = some session → ∃ addr, s.opener k = some addr ∧
    (s.relay.outbound.outboundProxy = none → session.peer.socketIpv4 = addr.ip.isIpv4)
  closed : ∀ k, s.relay.sessions.lookup k = none → s.opener k = none

section

variable {s s' : Uplink} {A : Answers} {reader : UdpReader}

/-- The loop reads the frames of the client in turn. -/
theorem Uplink.Reads.next_eq (h : s.Reads) (hreader : s.relay.reader = some reader) (u : UdpOutbound) (A : Answers) :
    ∃ buf, reader.next u A false = s.coming.head?.map fun frame =>
      (.multiplexed (s.coming.tail.flatMap wireFrame) buf, (isolated (bodyTarget false) frame).bind (·.toFrame A)) := by
  obtain ⟨buf, rfl⟩ := h.reader reader hreader
  cases hcoming : s.coming with
  | nil => exact ⟨[], rfl⟩
  | cons frame coming =>
    have hwire := multiplexedFrame_wire A false frame (h.fits frame (by rw [hcoming]; exact List.mem_cons_self)) buf
      (coming.flatMap wireFrame)
    refine ⟨frame.2 ++ buf.drop frame.2.length, ?_⟩
    simp only [UdpReader.next, List.flatMap_cons, hwire]
    rfl

theorem Uplink.Reads.frame_eq (h : s.Reads) (hreader : s.relay.reader = some reader) (A : Answers) :
    s.relay.frame A false = (s.coming.head?.bind (isolated (bodyTarget false))).bind (·.toFrame A) := by
  obtain ⟨buf, hnext⟩ := h.next_eq hreader s.relay.outbound A
  rw [UdpRelay.frame, hreader, Option.bind_some, hnext]
  cases s.coming.head? <;> rfl

theorem Uplink.next_some {x : RawFrame UdpTarget × SocketAddr} (h : s.next A = some x) :
    s.coming.head?.bind (isolated (bodyTarget false)) = some x.1 ∧
      ∃ host port, x.1.found.locate A = some (host, port, x.2) := by
  obtain ⟨f, hf, h⟩ := Option.bind_eq_some_iff.mp h
  obtain ⟨⟨host, port, addr⟩, hlocate, rfl⟩ := Option.map_eq_some_iff.mp h
  exact ⟨hf, host, port, hlocate⟩

/-- What opens a session has a target. -/
theorem Uplink.next_of_toFrame {frame : Frame}
    (h : (s.coming.head?.bind (isolated (bodyTarget false))).bind (·.toFrame A) = some frame) :
    ∃ f host port addr, s.next A = some (f, addr) ∧ f.found.locate A = some (host, port, addr) ∧
      frame = ⟨.assoc f.assocId, host, port, some addr, f.header, f.payload⟩ := by
  obtain ⟨f, hf, h⟩ := Option.bind_eq_some_iff.mp h
  obtain ⟨⟨host, port, addr⟩, hlocate, rfl⟩ := Option.map_eq_some_iff.mp h
  refine ⟨f, host, port, addr, ?_, hlocate, rfl⟩
  rw [Uplink.next, hf, Option.bind_some, hlocate]
  rfl

theorem Uplink.Reads.turn {t : UdpTurn} {r : UdpRelay} {sent : Option Datagram} (h : s.Reads)
    (ht : s.relay.turn false t = some (r, sent)) : Uplink.Reads ⟨r, s.coming.tail, s.openers t.answers r⟩ := by
  have hfits : ∀ frame ∈ s.coming.tail, 2 + frame.2.length ≤ 65535 :=
    fun frame hframe => h.fits frame (List.mem_of_mem_tail hframe)
  obtain ⟨reader, hreader, hcases⟩ := UdpRelay.turn_cases ht
  obtain ⟨buf, hnext⟩ := h.next_eq hreader s.relay.outbound t.answers
  rcases hcases with ⟨hnext', rfl⟩ | ⟨reader', f, hnext', hcases⟩
  · have hlast : s.coming = [] := List.head?_eq_none_iff.mp (Option.map_eq_none_iff.mp (hnext.symm.trans hnext'))
    refine ⟨fun _ hr => (nomatch hr), hfits, fun _ => ?_⟩
    show s.coming.tail = []
    rw [hlast, List.tail_nil]
  · obtain ⟨frame, -, hpair⟩ := Option.map_eq_some_iff.mp (hnext.symm.trans hnext')
    obtain ⟨rfl, -⟩ := Prod.mk.inj hpair
    rcases hcases with rfl | ⟨f, -, peer, r₁, -, rfl⟩
    · exact ⟨fun _ hr => ⟨buf, (Option.some.inj hr).symm⟩, hfits, fun hr => (nomatch hr)⟩
    · exact ⟨fun _ hr => ⟨buf, (Option.some.inj hr).symm⟩, hfits, fun hr => (nomatch hr)⟩

theorem Uplink.Reads.step {e : UdpEvent} (h : s.Reads) (hs : s.step e = some s') : s'.Reads := by
  cases e with
  | turn t =>
    obtain ⟨⟨r, sent⟩, ht, rfl⟩ := Option.map_eq_some_iff.mp hs
    exact h.turn ht
  | receive key udpBuf remoteAddr writeOk =>
    obtain ⟨⟨r, e, n⟩, hr, rfl⟩ := Option.map_eq_some_iff.mp hs
    have hreader := (UdpRelay.receive_peers hr).2.1
    exact ⟨by rw [hreader]; exact h.reader, h.fits, by rw [hreader]; exact h.ended⟩
  | write writeOk =>
    obtain ⟨⟨r, e⟩, hw, rfl⟩ := Option.map_eq_some_iff.mp hs
    have hreader := (UdpRelay.write_peers hw).2.1
    exact ⟨by rw [hreader]; exact h.reader, h.fits, by rw [hreader]; exact h.ended⟩

/-- **The sessions after a turn.** -/
theorem Uplink.Fit.turn {t : UdpTurn} {r : UdpRelay} {sent : Option Datagram} (h : s.Fit)
    (hfamily : s.OneFamily (.turn t)) (ht : s.relay.turn false t = some (r, sent)) :
    Uplink.Fit ⟨r, s.coming.tail, s.openers t.answers r⟩ := by
  have hreads := h.reads.turn ht
  have hclosed : ∀ k, r.sessions.lookup k = none → s.openers t.answers r k = none := by
    intro k hk
    rw [Uplink.openers, hk]
    rfl
  have hthrough := (UdpRelay.turn_through h.through ht).1
  have hproxy := hthrough.outbound
  rw [← hproxy] at hthrough
  have hold : ∀ {k : SessionKey} {session : OutboundSession}, r.sessions.lookup k = some session →
      s.relay.sessions.lookup k = some session → ∃ addr, s.openers t.answers r k = some addr ∧
        (r.outbound.outboundProxy = none → session.peer.socketIpv4 = addr.ip.isIpv4) := by
    intro k session hk hk'
    obtain ⟨addr, hopener, hsocket⟩ := h.opened k session hk'
    rw [hproxy]
    exact ⟨addr, by rw [Uplink.openers, hk, hopener]; rfl, hsocket⟩
  obtain ⟨reader, hreader, hcases⟩ := UdpRelay.turn_cases ht
  obtain ⟨buf, hnext⟩ := h.reads.next_eq hreader s.relay.outbound t.answers
  rcases hcases with ⟨-, rfl⟩ | ⟨reader', f, hnext', hcases⟩
  · exact ⟨hreads, hthrough, fun k session hk => (nomatch hk), hclosed⟩
  obtain ⟨frame, hframe, hpair⟩ := Option.map_eq_some_iff.mp (hnext.symm.trans hnext')
  obtain ⟨rfl, rfl⟩ := Prod.mk.inj hpair
  rcases hcases with rfl | ⟨f, hf, peer, r₁, hsession, rfl⟩
  · exact ⟨hreads, hthrough, fun k session hk => hold hk hk, hclosed⟩
  refine ⟨hreads, hthrough, fun k session hk => ?_, hclosed⟩
  have hk₁ : r₁.sessions.lookup k = some session := lookup_of_lookup_foldl_erase hk
  rcases UdpRelay.session_cases hsession with ⟨rfl, -⟩ | ⟨hnone, rfl, hpeer⟩
  · exact hold hk hk₁
  rcases lookup_insert_cases hk₁ with ⟨rfl, rfl⟩ | ⟨-, hk'⟩
  · -- the frame opens the session
    obtain ⟨f', host, port, addr, hx, hlocate, rfl⟩ := Uplink.next_of_toFrame (by rw [hframe]; exact hf)
    have hopener := h.closed _ hnone
    refine ⟨addr, ?_, fun hdirect => ?_⟩
    · show s.openers t.answers _ _ = some addr
      rw [Uplink.openers, hk, hopener, hx]
      simp
    · have hdirect' := hproxy.symm.trans hdirect
      obtain ⟨hbind, htarget, -⟩ := (createOutboundUdp_iff s.relay.outbound hlocate peer).mp hpeer
      have hfirst := hfamily hdirect' (f', addr) hx
      simp only [hopener] at hfirst
      rw [UdpOutbound.socketTarget, hdirect'] at htarget
      exact hfirst hbind peer.sendTarget htarget
  · exact hold hk hk'

/-- Tasks leave the sockets alone. -/
theorem Uplink.Fit.of_peers {r : UdpRelay} (h : s.Fit) (hreads : Uplink.Reads { s with relay := r })
    (houtbound : r.outbound = s.relay.outbound)
    (hpeers : ∀ k, (r.sessions.lookup k).map (·.peer) = (s.relay.sessions.lookup k).map (·.peer)) :
    Uplink.Fit { s with relay := r } := by
  have hfind : ∀ {k : SessionKey} {session : OutboundSession}, r.sessions.lookup k = some session →
      ∃ session', s.relay.sessions.lookup k = some session' ∧ session'.peer = session.peer := by
    intro k session hk
    have hk' := hpeers k
    rw [hk, Option.map_some] at hk'
    exact Option.map_eq_some_iff.mp hk'.symm
  refine ⟨hreads, ⟨rfl, fun k session hk => ?_⟩, fun k session hk => ?_, fun k hk => ?_⟩
  · obtain ⟨session', hk', hpeer⟩ := hfind hk
    rw [← hpeer, houtbound]
    exact h.through.sessions k session' hk'
  · obtain ⟨session', hk', hpeer⟩ := hfind hk
    rw [← hpeer, houtbound]
    exact h.opened k session' hk'
  · have hk' := hpeers k
    rw [hk, Option.map_none] at hk'
    exact h.closed k (Option.map_eq_none_iff.mp hk'.symm)

/-- **A step keeps the sockets in their families**, if the next frame has the family of its session. -/
theorem Uplink.Fit.step {e : UdpEvent} (h : s.Fit) (hfamily : s.OneFamily e) (hs : s.step e = some s') : s'.Fit := by
  have hreads := h.reads.step hs
  cases e with
  | turn t =>
    obtain ⟨⟨r, sent⟩, ht, rfl⟩ := Option.map_eq_some_iff.mp hs
    exact h.turn hfamily ht
  | receive key udpBuf remoteAddr writeOk =>
    obtain ⟨⟨r, e, n⟩, hr, rfl⟩ := Option.map_eq_some_iff.mp hs
    obtain ⟨houtbound, -, hpeers⟩ := UdpRelay.receive_peers hr
    exact h.of_peers hreads houtbound hpeers
  | write writeOk =>
    obtain ⟨⟨r, e⟩, hw, rfl⟩ := Option.map_eq_some_iff.mp hs
    obtain ⟨houtbound, -, hsessions⟩ := UdpRelay.write_peers hw
    exact h.of_peers hreads houtbound fun k => by rw [hsessions]

/-- **One step.** The frame goes out as it should exactly when it has the family of its session. -/
theorem Uplink.Fit.sendsOwn_iff {e : UdpEvent} (h : s.Fit) (hs : s.step e = some s') :
    s.SendsOwn e ↔ s.OneFamily e := by
  cases e with
  | receive _ _ _ _ => exact Iff.rfl
  | write _ => exact Iff.rfl
  | turn t =>
    obtain ⟨⟨r, sent⟩, ht, -⟩ := Option.map_eq_some_iff.mp hs
    obtain ⟨reader, hreader, -⟩ := UdpRelay.turn_cases ht
    have hturn : ∀ x ∈ s.next t.answers, (s.relay.SendsAs t x.1 x.2 ↔ (s.relay.outbound.outboundProxy = none →
        match s.opener (.assoc x.1.assocId) with
        | some addr => addr.ip.isIpv4 = x.2.ip.isIpv4
        | none => t.answers.bindUdp = .ok () → ∀ addr ∈ x.1.found.first t.answers, addr.ip.isIpv4 = x.2.ip.isIpv4)) := by
      intro x hx
      obtain ⟨hf, host, port, hlocate⟩ := Uplink.next_some hx
      have hframe : s.relay.frame t.answers false = x.1.toFrame t.answers := by
        rw [h.reads.frame_eq hreader, hf, Option.bind_some]
      rw [UdpRelay.sendsAs_iff h.through hlocate hframe]
      refine imp_congr_right fun hdirect => ?_
      have hsender := UdpRelay.mem_sender_iff hlocate hframe
      cases hlookup : s.relay.sessions.lookup (.assoc x.1.assocId) with
      | some session =>
        obtain ⟨addr, hopener, hsocket⟩ := h.opened _ session hlookup
        simp only [hopener, ← hsocket hdirect]
        constructor
        · intro hall
          exact hall session.peer ((hsender _).mpr (.inl ⟨session, hlookup, rfl⟩))
        · intro hone peer hpeer
          rcases (hsender peer).mp hpeer with ⟨session', hlookup', rfl⟩ | ⟨hnone, -⟩
          · rw [hlookup] at hlookup'
            rwa [← Option.some.inj hlookup']
          · rw [hlookup] at hnone
            cases hnone
      | none =>
        simp only [h.closed _ hlookup]
        constructor
        · intro hall hbind addr haddr
          refine hall ⟨none, addr⟩ ((hsender _).mpr (.inr ⟨hlookup, hbind, ?_, hdirect.symm⟩))
          rw [UdpOutbound.socketTarget, hdirect]
          exact haddr
        · intro hone peer hpeer
          rcases (hsender peer).mp hpeer with ⟨session', hlookup', -⟩ | ⟨-, hbind, htarget, -⟩
          · rw [hlookup] at hlookup'
            cases hlookup'
          · rw [UdpOutbound.socketTarget, hdirect] at htarget
            exact hone hbind peer.sendTarget htarget
    constructor
    · intro hsends hdirect x hx
      exact (hturn x hx).mp (hsends x hx) hdirect
    · intro hone x hx
      exact (hturn x hx).mpr fun hdirect => hone hdirect x hx

end

/-! ## Whole uploads -/

/-- A multiplexed handler starts without sessions. -/
theorem start_multiplexed {u : UdpOutbound} {A : Answers} {stats : Option ℕ} {bytes : List UInt8} {r : UdpRelay}
    (h : u.start A false "0.0.0.0" 0 bytes stats = .ok r) :
    r = ⟨u, stats, some (.multiplexed bytes []), ∅, [], true⟩ := by
  rw [UdpOutbound.start, if_neg (by decide), if_pos ⟨rfl, rfl⟩] at h
  exact (Except.ok.inj h).symm

theorem Uplink.start_fit {u : UdpOutbound} {A : Answers} {stats : Option ℕ} {frames : List (UInt16 × List UInt8)}
    {r : UdpRelay} (hfits : ∀ frame ∈ frames, 2 + frame.2.length ≤ 65535)
    (h : u.start A false "0.0.0.0" 0 (frames.flatMap wireFrame) stats = .ok r) : Uplink.Fit ⟨r, frames, fun _ => none⟩ := by
  obtain rfl := start_multiplexed h
  refine ⟨⟨fun _ hr => ⟨[], (Option.some.inj hr).symm⟩, hfits, fun hr => (nomatch hr)⟩, ⟨rfl, ?_⟩, ?_, fun _ _ => rfl⟩
  · exact fun k session hk => (nomatch hk)
  · exact fun k session hk => (nomatch hk)

/-- **Sockets and families.** In every upload every frame gets its turn; and every frame is sent as its own
datagram, from a socket of the family of its target or to the relay of the proxy, if and only if, where there is
no proxy, every frame has the family of the frame that has opened the session of its association. -/
theorem uplink_families_iff (u : UdpOutbound) (A : Answers) (stats : Option ℕ) (frames : List (UInt16 × List UInt8))
    (hfits : ∀ frame ∈ frames, 2 + frame.2.length ≤ 65535) (r : UdpRelay)
    (hstart : u.start A false "0.0.0.0" 0 (frames.flatMap wireFrame) stats = .ok r) (es : List UdpEvent) :
    Run.Always Uplink.step (fun s => s.relay.reader = none → s.coming = []) ⟨r, frames, fun _ => none⟩ es ∧
      (Run.Meets Uplink.step Uplink.SendsOwn ⟨r, frames, fun _ => none⟩ es ↔
        Run.Meets Uplink.step Uplink.OneFamily ⟨r, frames, fun _ => none⟩ es) := by
  have hfit := Uplink.start_fit hfits hstart
  constructor
  · exact Run.always_of_meets (C := fun _ _ => True) (fun s e s' hs _ h => Uplink.Reads.step hs h) (fun s hs => hs.ended)
      hfit.reads (Run.meets_of_forall (fun _ _ _ _ => trivial) _ es)
  · exact Run.meets_iff_of_meets (fun s e s' hs hfamily h => hs.step hfamily h) (fun s e s' hs h => hs.sendsOwn_iff h) hfit es

/-! ## Two families under one association -/

/-- A network in which every name has one address. -/
def steadyNetwork : Answers where
  resolve _ port _ := .ok [(.new 8 8 8 8, port)]
  lookupHost _ port := .ok [⟨.v4 (.new 8 8 8 8), port⟩]
  accepts _ := .ok ()
  connect _ _ _ := .ok ()
  deadline _ := false
  socksConnect _ := .ok ()
  socksAssociate _ _ := .ok ⟨.v4 .localhost, 40001⟩
  bindUdp := .ok ()
  udpConnect _ := .ok ()

/-- A name server by its IPv4 address, and then another by its IPv6 address. -/
def bothFamilies : List (UInt16 × List UInt8) :=
  [(1, [1, 8, 8, 8, 8, 0, 53, 7]), (1, [4, 0x20, 1, 0x48, 0x60, 0x48, 0x60, 0, 0, 0, 0, 0, 0, 0, 0, 0x88, 0x88, 0, 53, 7])]

/-- The handler of a multiplexed connection without a proxy. -/
def bothRelay : UdpRelay := ⟨⟨none, none⟩, none, some (.multiplexed (bothFamilies.flatMap wireFrame) []), ∅, [], true⟩

/-- The first frame is sent; the socket refuses the second. -/
def bothTurns : List UdpEvent := [.turn ⟨steadyNetwork, true, fun _ => false⟩, .turn ⟨steadyNetwork, false, fun _ => false⟩]

theorem bothFamilies_iff :
    Run.Always Uplink.step (fun s => s.relay.reader = none → s.coming = []) ⟨bothRelay, bothFamilies, fun _ => none⟩ bothTurns ∧
      (Run.Meets Uplink.step Uplink.SendsOwn ⟨bothRelay, bothFamilies, fun _ => none⟩ bothTurns ↔
        Run.Meets Uplink.step Uplink.OneFamily ⟨bothRelay, bothFamilies, fun _ => none⟩ bothTurns) :=
  uplink_families_iff ⟨none, none⟩ steadyNetwork none bothFamilies (by decide) bothRelay rfl bothTurns

/-- **The IPv6 frame is sent from the IPv4 socket** that its association has. -/
theorem bothFamilies_mixed : (⟨none, none⟩ : UdpOutbound).start steadyNetwork false "0.0.0.0" 0
      (bothFamilies.flatMap wireFrame) none = .ok bothRelay ∧
    ¬ Run.Meets Uplink.step Uplink.SendsOwn ⟨bothRelay, bothFamilies, fun _ => none⟩ bothTurns := by
  refine ⟨rfl, fun h => ?_⟩
  obtain ⟨-, h⟩ := (Run.meets_cons rfl).mp h
  obtain ⟨h, -⟩ := (Run.meets_cons rfl).mp h
  have hfamily := (h _ rfl).family rfl _ rfl
  exact absurd hfamily (by decide)

end RXCore
