import RXCore.Outbound.Families

/-!
# Receive loops

The receive tasks of the three UDP handlers over whole runs: what they do with a datagram, and what ends them.

* `UdpOutbound.Malformed`, `downlink_none_iff`: the packets of a proxy that are skipped;
* `UdpRelay.Handled`: a datagram is passed on, or dropped for one of two reasons, and its session goes on;
* `UdpRelay.Lively`: a datagram that has bytes, for a client that can be written to;
* `UdpRelay.handled_iff`: one datagram;
* **`receive_loops_iff`**: all datagrams are handled so if and only if all of them are lively.
-/

set_option autoImplicit false

namespace RXCore

open Encoding Tables

/-! ## Datagrams -/

/-- What `parse_socks5_udp` refuses: a header that is cut off, or one without an address. -/
def UdpOutbound.Malformed (u : UdpOutbound) (udpBuf : List UInt8) : Prop :=
  u.outboundProxy.isSome ∧ (udpBuf.length < 4 ∨ (udpBuf.getD 3 0 = 1 ∧ udpBuf.length < 10) ∨
    (udpBuf.getD 3 0 = 4 ∧ udpBuf.length < 22) ∨ (udpBuf.getD 3 0 ≠ 1 ∧ udpBuf.getD 3 0 ≠ 4))

theorem parseSocks5Udp_error_iff (buf : List UInt8) : (parseSocks5Udp buf).toOption = none ↔
    buf.length < 4 ∨ (buf.getD 3 0 = 1 ∧ buf.length < 10) ∨ (buf.getD 3 0 = 4 ∧ buf.length < 22) ∨
      (buf.getD 3 0 ≠ 1 ∧ buf.getD 3 0 ≠ 4) := by
  have h14 : (1 : UInt8) ≠ 4 := by decide
  simp only [parseSocks5Udp]
  generalize buf.getD 3 0 = atyp
  split_ifs with h4 h1 h10 h6 h22
  · simp [h4, Except.toOption]
  · simp [h1, h10, Except.toOption]
  · subst h1
    simp [h4, h10, h14, Except.toOption]
  · simp [h6, h22, Except.toOption]
  · subst h6
    simp [h4, h22, Except.toOption]
  · simp [h1, h6, Except.toOption]

/-- **The packets that are skipped.** -/
theorem UdpOutbound.downlink_none_iff (u : UdpOutbound) (udpBuf : List UInt8) (remoteAddr : SocketAddr) :
    u.downlink udpBuf remoteAddr = none ↔ u.Malformed udpBuf := by
  rw [UdpOutbound.downlink, UdpOutbound.Malformed]
  by_cases hproxy : u.outboundProxy.isSome = true
  · rw [if_pos hproxy, Option.map_eq_none_iff, parseSocks5Udp_error_iff]
    exact (and_iff_right hproxy).symm
  · rw [if_neg hproxy]
    exact iff_of_false (Option.some_ne_none _) fun h => hproxy h.1

/-- What a handler, one of its tasks or one of its sockets does next. -/
inductive DownlinkEvent where
  | turn (t : UdpTurn)
  | datagram (key : SessionKey) (udpBuf : List UInt8) (remoteAddr : SocketAddr) (writeOk : Bool)
  /-- `recv` or `recv_from` fails. -/
  | error (key : SessionKey)
  | write (writeOk : Bool)

/-- A step of a handler or of one of its tasks. -/
def UdpRelay.downlinkStep (ipv4Only : Bool) (r : UdpRelay) : DownlinkEvent → Option UdpRelay
  | .turn t => (r.turn ipv4Only t).map (·.1)
  | .datagram key udpBuf remoteAddr writeOk => (r.receive key udpBuf remoteAddr writeOk).map (·.1)
  | .error key => if (r.sessions.lookup key).any (·.receiving) then some r else none
  | .write writeOk => (r.write writeOk).map (·.1)

/-- The receive loops of all sessions run. -/
def UdpRelay.AllReceiving (r : UdpRelay) : Prop := ∀ k s, r.sessions.lookup k = some s → s.receiving = true

/-- A datagram has been passed to the client, or to the queue to it. -/
def UdpRelay.PassedOn (r r' : UdpRelay) (key : SessionKey) (udpBuf : List UInt8) (remoteAddr : SocketAddr)
    (sent : Option Egress) : Prop :=
  ∃ src payload, r.outbound.downlink udpBuf remoteAddr = some (src, payload) ∧
    if key = .only then r' = r ∧ sent = some (.client (standardReply payload) payload)
    else r' = { r with queue := r.queue ++ [(sessionReply key src payload, payload)] } ∧ sent = none

/-- A datagram has been dropped: the queue is full, or the header of the proxy is malformed. -/
def UdpRelay.Dropped (r r' : UdpRelay) (key : SessionKey) (udpBuf : List UInt8) (sent : Option Egress) : Prop :=
  r' = r ∧ sent = none ∧
    ((key ≠ .only ∧ downlinkCapacity ≤ r.queue.length) ∨ r.outbound.Malformed udpBuf)

/-- A datagram is passed on, or dropped for one of the two reasons. -/
def UdpRelay.Handled (r : UdpRelay) : DownlinkEvent → Prop
  | .datagram key udpBuf remoteAddr writeOk => ∀ r' sent n, r.receive key udpBuf remoteAddr writeOk = some (r', sent, n) →
    r.PassedOn r' key udpBuf remoteAddr sent ∨ r.Dropped r' key udpBuf sent
  | _ => True

/-- The client can be written to: a handler without a queue writes by itself, the others need their writer task. -/
def UdpRelay.Writable (r : UdpRelay) (key : SessionKey) (writeOk : Bool) : Bool :=
  if key = .only then writeOk else r.writing

/-- A datagram is not empty, and the client can be written to if there is something to write. -/
def UdpRelay.Lively (r : UdpRelay) : DownlinkEvent → Prop
  | .datagram key udpBuf _ writeOk => udpBuf ≠ [] ∧ (r.outbound.Malformed udpBuf ∨ r.Writable key writeOk = true)
  | _ => True

section

variable {ipv4Only : Bool} {r r' : UdpRelay} {key : SessionKey} {udpBuf : List UInt8} {remoteAddr : SocketAddr}
  {sent : Option Egress}

theorem UdpRelay.PassedOn.sessions (h : r.PassedOn r' key udpBuf remoteAddr sent) : r'.sessions = r.sessions := by
  obtain ⟨src, payload, -, h⟩ := h
  split_ifs at h
  · rw [h.1]
  · rw [h.1]

theorem UdpRelay.Dropped.sessions (h : r.Dropped r' key udpBuf sent) : r'.sessions = r.sessions := by
  rw [h.1]

/-- A loop that ends is seen in the table. -/
theorem UdpRelay.stopReceiving_sessions {s : OutboundSession} (hs : r.sessions.lookup key = some s)
    (hrun : s.receiving = true) : (r.stopReceiving key s).sessions ≠ r.sessions := by
  intro hsame
  have hlookup : (r.stopReceiving key s).sessions.lookup key = some { s with receiving := false } := by
    simp [UdpRelay.stopReceiving]
  rw [hsame, hs] at hlookup
  have hfalse := congrArg OutboundSession.receiving (Option.some.inj hlookup)
  rw [hrun] at hfalse
  cases hfalse

/-- A client that cannot be written to ends the loop. -/
theorem UdpRelay.deliver_unwritable {s : OutboundSession} {writeOk : Bool} (h : r.Writable key writeOk = false)
    (src : SocketAddr) (payload : List UInt8) :
    r.deliver key s src payload writeOk = (r.stopReceiving key s, none, 0) := by
  unfold UdpRelay.Writable at h
  unfold UdpRelay.deliver
  by_cases hkey : key = .only
  · rw [if_pos hkey] at h ⊢
    rw [if_neg (by simp [h])]
  · rw [if_neg hkey] at h ⊢
    rw [if_pos h]

/-- One that can be gets the payload, or the queue is full. -/
theorem UdpRelay.deliver_writable {s : OutboundSession} {writeOk : Bool} (h : r.Writable key writeOk = true)
    {src : SocketAddr} {payload : List UInt8} (hdown : r.outbound.downlink udpBuf remoteAddr = some (src, payload)) :
    r.PassedOn (r.deliver key s src payload writeOk).1 key udpBuf remoteAddr (r.deliver key s src payload writeOk).2.1 ∨
      r.Dropped (r.deliver key s src payload writeOk).1 key udpBuf (r.deliver key s src payload writeOk).2.1 := by
  unfold UdpRelay.Writable at h
  unfold UdpRelay.deliver
  by_cases hkey : key = .only
  · rw [if_pos hkey] at h ⊢
    rw [if_pos h]
    exact .inl ⟨src, payload, hdown, by rw [if_pos hkey]; exact ⟨rfl, rfl⟩⟩
  · rw [if_neg hkey] at h ⊢
    rw [if_neg (by simp [h])]
    by_cases hroom : r.queue.length < downlinkCapacity
    · rw [if_pos hroom]
      exact .inl ⟨src, payload, hdown, by rw [if_neg hkey]; exact ⟨rfl, rfl⟩⟩
    · rw [if_neg hroom]
      exact .inr ⟨rfl, rfl, .inl ⟨hkey, not_lt.mp hroom⟩⟩

/-- **One datagram** of a session whose loop runs is passed on or dropped, and the loop goes on, exactly when
the datagram is lively. -/
theorem UdpRelay.handled_iff {e : DownlinkEvent} (hr : r.AllReceiving) (hs : r.downlinkStep ipv4Only e = some r') :
    r.Handled e ↔ r.Lively e := by
  cases e with
  | turn t => exact Iff.rfl
  | error key => exact Iff.rfl
  | write writeOk => exact Iff.rfl
  | datagram key udpBuf remoteAddr writeOk =>
    obtain ⟨⟨r₁, sent, n⟩, hreceive, rfl⟩ := Option.map_eq_some_iff.mp hs
    have hone : r.Handled (.datagram key udpBuf remoteAddr writeOk) ↔
        r.PassedOn r₁ key udpBuf remoteAddr sent ∨ r.Dropped r₁ key udpBuf sent := by
      constructor
      · intro h
        exact h r₁ sent n hreceive
      · intro h r₂ sent₂ n₂ h₂
        obtain ⟨rfl, rfl, rfl⟩ := by simpa using hreceive.symm.trans h₂
        exact h
    have hstays : r.PassedOn r₁ key udpBuf remoteAddr sent ∨ r.Dropped r₁ key udpBuf sent → r₁.sessions = r.sessions :=
      fun h => h.elim (·.sessions) (·.sessions)
    rw [hone, UdpRelay.Lively]
    unfold UdpRelay.receive at hreceive
    split at hreceive
    · cases hreceive
    · next s hlookup =>
      have hrun := hr key s hlookup
      have hstop := UdpRelay.stopReceiving_sessions hlookup hrun
      rw [if_neg (by simp [hrun])] at hreceive
      by_cases hempty : udpBuf = []
      · rw [if_pos hempty] at hreceive
        obtain ⟨rfl, -⟩ := by simpa using hreceive
        exact iff_of_false (fun h => hstop (hstays h)) fun h => h.1 hempty
      rw [if_neg hempty] at hreceive
      cases hdown : r.outbound.downlink udpBuf remoteAddr with
      | none =>
        -- a malformed header
        have hbad := (r.outbound.downlink_none_iff udpBuf remoteAddr).mp hdown
        rw [hdown] at hreceive
        obtain ⟨rfl, rfl, -⟩ := by simpa using hreceive
        exact iff_of_true (.inr ⟨rfl, rfl, .inr hbad⟩) ⟨hempty, .inl hbad⟩
      | some d =>
        obtain ⟨src, payload⟩ := d
        have hgood : ¬ r.outbound.Malformed udpBuf := by
          rw [← r.outbound.downlink_none_iff udpBuf remoteAddr, hdown]
          exact Option.some_ne_none _
        rw [hdown] at hreceive
        have hdeliver : r.deliver key s src payload writeOk = (r₁, sent, n) := Option.some.inj hreceive
        cases hw : r.Writable key writeOk with
        | true =>
          have hout := UdpRelay.deliver_writable (s := s) hw hdown
          rw [hdeliver] at hout
          exact iff_of_true hout ⟨hempty, .inr rfl⟩
        | false =>
          rw [UdpRelay.deliver_unwritable hw] at hdeliver
          obtain ⟨rfl, -⟩ := by simpa using hdeliver
          exact iff_of_false (fun h => hstop (hstays h)) fun h => h.2.elim hgood (by simp)

/-- **All loops go on.** -/
theorem UdpRelay.AllReceiving.step {e : DownlinkEvent} (hr : r.AllReceiving) (he : r.Lively e)
    (hs : r.downlinkStep ipv4Only e = some r') : r'.AllReceiving := by
  have hhandled := (UdpRelay.handled_iff hr hs).mpr he
  cases e with
  | turn t =>
    obtain ⟨⟨r₁, sent⟩, ht, rfl⟩ := Option.map_eq_some_iff.mp hs
    obtain ⟨reader, -, ⟨-, rfl⟩ | ⟨reader', f, -, rfl | ⟨f', -, peer, r₂, hsession, rfl⟩⟩⟩ := UdpRelay.turn_cases ht
    · exact fun k s hk => (nomatch hk)
    · exact hr
    · intro k s hk
      have hk₂ : r₂.sessions.lookup k = some s := lookup_of_lookup_foldl_erase hk
      rcases UdpRelay.session_cases hsession with ⟨rfl, -⟩ | ⟨-, rfl, -⟩
      · exact hr k s hk₂
      · rcases lookup_insert_cases hk₂ with ⟨-, rfl⟩ | ⟨-, hk'⟩
        · rfl
        · exact hr k s hk'
  | datagram key udpBuf remoteAddr writeOk =>
    obtain ⟨⟨r₁, sent, n⟩, hreceive, rfl⟩ := Option.map_eq_some_iff.mp hs
    have hsame : r₁.sessions = r.sessions := (hhandled r₁ sent n hreceive).elim (·.sessions) (·.sessions)
    intro k s hk
    exact hr k s (by rwa [hsame] at hk)
  | error key =>
    simp only [UdpRelay.downlinkStep] at hs
    split_ifs at hs
    obtain rfl := Option.some.inj hs
    exact hr
  | write writeOk =>
    obtain ⟨⟨r₁, e⟩, hw, rfl⟩ := Option.map_eq_some_iff.mp hs
    obtain ⟨-, -, hsessions⟩ := UdpRelay.write_peers hw
    intro k s hk
    exact hr k s (by rwa [hsessions] at hk)

/-- A handler starts with its loops running. -/
theorem UdpOutbound.start_receiving {u : UdpOutbound} {A : Answers} {destAddr : String} {destPort : UInt16}
    {reader : List UInt8} {stats : Option ℕ} (h : u.start A ipv4Only destAddr destPort reader stats = .ok r) :
    r.AllReceiving := by
  unfold UdpOutbound.start at h
  split_ifs at h
  · obtain rfl := Except.ok.inj h
    exact fun k s hk => (nomatch hk)
  · obtain rfl := Except.ok.inj h
    exact fun k s hk => (nomatch hk)
  · simp only [bind_ok] at h
    obtain ⟨peer, -, -, -, h⟩ := h
    obtain rfl := Except.ok.inj h
    intro k s hk
    rcases lookup_insert_cases hk with ⟨-, rfl⟩ | ⟨-, hk'⟩
    · rfl
    · cases hk'

end

/-- **Receive loops.** In every run of a UDP handler of any framing, all receive loops keep running, and every
datagram is passed to the client or dropped for a full queue or a malformed header, if and only if no datagram is
empty and every other one with a good header finds a client that can be written to. -/
theorem receive_loops_iff (u : UdpOutbound) (A : Answers) (ipv4Only : Bool) (destAddr : String) (destPort : UInt16)
    (reader : List UInt8) (stats : Option ℕ) (r : UdpRelay)
    (hstart : u.start A ipv4Only destAddr destPort reader stats = .ok r) (es : List DownlinkEvent) :
    (Run.Always (UdpRelay.downlinkStep ipv4Only) UdpRelay.AllReceiving r es ∧
      Run.Meets (UdpRelay.downlinkStep ipv4Only) UdpRelay.Handled r es) ↔
        Run.Meets (UdpRelay.downlinkStep ipv4Only) UdpRelay.Lively r es := by
  have hr := UdpOutbound.start_receiving hstart
  have hiff : Run.Meets (UdpRelay.downlinkStep ipv4Only) UdpRelay.Handled r es ↔
      Run.Meets (UdpRelay.downlinkStep ipv4Only) UdpRelay.Lively r es :=
    Run.meets_iff_of_meets (I := UdpRelay.AllReceiving) (fun _ _ _ hr he hs => hr.step he hs)
      (fun _ _ _ hr hs => UdpRelay.handled_iff hr hs) hr es
  constructor
  · rintro ⟨-, h⟩
    exact hiff.mp h
  · intro h
    exact ⟨Run.always_of_meets (I := UdpRelay.AllReceiving) (fun _ _ _ hr he hs => hr.step he hs) (fun _ hr => hr) hr h,
      hiff.mpr h⟩

/-- A handler for one name server, and a datagram of its own from it. -/
def dnsRelay : UdpRelay := ⟨⟨none, none⟩, none, some (.standard "8.8.8.8" 53 []),
  (∅ : AList fun _ : SessionKey => OutboundSession).insert .only ⟨⟨none, ⟨.v4 (.new 8 8 8 8), 53⟩⟩, true⟩, [], false⟩

def dnsDatagram (bytes : List UInt8) : DownlinkEvent := .datagram .only bytes ⟨.v4 (.new 8 8 8 8), 53⟩ true

theorem dnsDatagrams_handled :
    (Run.Always (UdpRelay.downlinkStep false) UdpRelay.AllReceiving dnsRelay [dnsDatagram [7], .error .only, dnsDatagram [8]] ∧
      Run.Meets (UdpRelay.downlinkStep false) UdpRelay.Handled dnsRelay [dnsDatagram [7], .error .only, dnsDatagram [8]]) ↔
        Run.Meets (UdpRelay.downlinkStep false) UdpRelay.Lively dnsRelay
          [dnsDatagram [7], .error .only, dnsDatagram [8]] :=
  receive_loops_iff ⟨none, none⟩ steadyNetwork false "8.8.8.8" 53 [] none dnsRelay rfl _

/-- **An empty datagram silences a session.** -/
theorem emptyDatagram_silences :
    (⟨none, none⟩ : UdpOutbound).start steadyNetwork false "8.8.8.8" 53 [] none = .ok dnsRelay ∧
      ¬ Run.Always (UdpRelay.downlinkStep false) UdpRelay.AllReceiving dnsRelay [dnsDatagram []] := by
  refine ⟨rfl, fun h => ?_⟩
  have hstopped := h.last rfl .only ⟨⟨none, ⟨.v4 (.new 8 8 8 8), 53⟩⟩, false⟩ rfl
  cases hstopped

end RXCore
