import RXCore.Outbound.Wire

/-!
# What the relay socket of an association takes in

Every host may send to the relay socket; the loop looks at the datagram and at nothing else.

* `IsRequest`: the reserved bytes, a zero FRAG byte, the header of a target, and a payload;
* **`udpRequest_iff`**: the loop reads exactly these datagrams, and finds in them what they were made of;
* `Socks5Udp.TakenIn`: what a datagram may do to the queue and to the sessions;
* **`ingress_exact`**: what every datagram of every run does;
* **`foreign_relayed`**: a host that is not the peer of the control connection gets a session.
-/

set_option autoImplicit false

namespace RXCore

open Encoding Tables Socks5Udp

/-! ## The datagram -/

/-- The datagram of a client for a target: two reserved bytes, FRAG 0, the header, and the payload. -/
def IsRequest (recvBuf : List UInt8) (target : UdpTarget) (payload : List UInt8) : Prop :=
  target.Short ∧ ∃ rsv₀ rsv₁, recvBuf = rsv₀ :: rsv₁ :: 0 :: (target.header ++ payload)

/-- Behind its first three bytes, a datagram is read like the body of a frame. -/
theorem udpRequest_body (rsv₀ rsv₁ : UInt8) (body : List UInt8) : udpRequest (rsv₀ :: rsv₁ :: 0 :: body) =
    (bodyTarget false body).map fun (target, offset) => (target, body.drop offset) := by
  have hslice : ∀ n, slice (rsv₀ :: rsv₁ :: 0 :: body) 5 n = slice body 2 n := fun n => rfl
  have hport : ∀ i, portAt (rsv₀ :: rsv₁ :: 0 :: body) (i + 3) = portAt body i := fun i => rfl
  have hdrop : ∀ i, (rsv₀ :: rsv₁ :: 0 :: body).drop (i + 3) = body.drop i := fun i => rfl
  have hatyp : (rsv₀ :: rsv₁ :: 0 :: body).getD 3 0 = body.getD 0 0 := rfl
  have hlen : (rsv₀ :: rsv₁ :: 0 :: body).getD 4 0 = body.getD 1 0 := rfl
  have hfrag : (rsv₀ :: rsv₁ :: 0 :: body).getD 2 0 = 0 := rfl
  have hcount : (rsv₀ :: rsv₁ :: 0 :: body).length = body.length + 3 := rfl
  have hname : 5 + (body.getD 1 0).toNat = 2 + (body.getD 1 0).toNat + 3 := by omega
  have hend : 2 + (body.getD 1 0).toNat + 3 + 2 = 2 + (body.getD 1 0).toNat + 2 + 3 := by omega
  simp only [udpRequest, bodyTarget, hcount, hfrag, hatyp, hlen, hname, hend, hport, hslice, hdrop]
  by_cases hempty : body = []
  · subst hempty
    rfl
  have hpos := List.length_pos_of_ne_nil hempty
  rw [if_neg (by omega), if_neg (by simp)]
  by_cases h1 : body.getD 0 0 = 1
  · by_cases h7 : 7 ≤ body.length
    · rw [if_pos h1, if_neg (by omega), if_pos ⟨h1, h7⟩]
      rfl
    · rw [if_pos h1, if_pos (by omega), if_neg (fun h => h7 h.2), h1]
      rfl
  have h1' : ¬ (body.getD 0 0 = 1 ∧ 7 ≤ body.length) := fun h => h1 h.1
  rw [if_neg h1, if_neg h1']
  by_cases h4 : body.getD 0 0 = 4
  · by_cases h19 : 19 ≤ body.length
    · rw [if_pos h4, if_neg (by omega), if_pos ⟨h4, trivial, h19⟩]
      rfl
    · rw [if_pos h4, if_pos (by omega), if_neg (fun h => h19 h.2.2), h4]
      rfl
  have h4' : ¬ (body.getD 0 0 = 4 ∧ True ∧ 19 ≤ body.length) := fun h => h4 h.1
  rw [if_neg h4, if_neg h4']
  by_cases h3 : body.getD 0 0 = 3
  · by_cases hroom : 2 + (body.getD 1 0).toNat + 2 ≤ body.length
    · rw [if_pos h3, if_neg (by omega), if_neg (by omega), if_pos ⟨h3, hroom⟩, Option.map_map]
      rfl
    · have h3' : ¬ (body.getD 0 0 = 3 ∧ 2 + (body.getD 1 0).toNat + 2 ≤ body.length) := fun h => hroom h.2
      have hshort : body.length + 3 < 2 + (body.getD 1 0).toNat + 2 + 3 := by omega
      rw [if_pos h3, if_neg h3', if_pos hshort, ite_self]
      rfl
  · rw [if_neg h3, if_neg (fun h => h3 h.1)]
    rfl

/-- What is read has four bytes at least, and no fragment. -/
theorem udpRequest_unfragmented {recvBuf : List UInt8} {r : UdpTarget × List UInt8} (h : udpRequest recvBuf = some r) :
    4 ≤ recvBuf.length ∧ recvBuf.getD 2 0 = 0 := by
  simp only [udpRequest] at h
  split_ifs at h with hlen hfrag
  all_goals exact ⟨not_lt.mp hlen, not_not.mp hfrag⟩

/-- Without the filter of `ipv4_only`, every target is let through. -/
theorem UdpTarget.refused_false (target : UdpTarget) : target.refused false = false := by
  cases target with
  | ip addr port => cases addr <;> rfl
  | domain name port => rfl

/-- **The loop reads exactly the requests**, and finds in them what they were made of. -/
theorem udpRequest_iff {recvBuf payload : List UInt8} {target : UdpTarget} :
    udpRequest recvBuf = some (target, payload) ↔ IsRequest recvBuf target payload := by
  constructor
  · intro h
    obtain ⟨hheader, hshort⟩ := udpRequest_header h
    obtain ⟨hlen, hfrag⟩ := udpRequest_unfragmented h
    have hthird : 0 :: recvBuf.drop 3 = recvBuf.drop 2 := by
      rw [← getD_cons_drop (show 2 < recvBuf.length by omega), hfrag]
    refine ⟨hshort, recvBuf.getD 0 0, recvBuf.getD 1 0, ?_⟩
    rw [hheader, hthird, getD_cons_drop (by omega), getD_cons_drop (by omega), List.drop_zero]
  · rintro ⟨hshort, rsv₀, rsv₁, rfl⟩
    rw [udpRequest_body, bodyTarget_header false hshort, target.refused_false]
    simp

theorem udpRequest_eq_none_iff {recvBuf : List UInt8} :
    udpRequest recvBuf = none ↔ ∀ target payload, ¬ IsRequest recvBuf target payload := by
  simp only [Option.eq_none_iff_forall_ne_some, Prod.forall, ne_eq, udpRequest_iff]

/-! ## The sessions -/

namespace Socks5Udp

variable {s s' : Socks5Udp} {src : SocketAddr} {recvBuf : List UInt8} {socket now : ℕ}

/-- What the datagram `recvBuf` of `src` does between the states `s` and `s'`. -/
structure TakenIn (s : Socks5Udp) (src : SocketAddr) (recvBuf : List UInt8) (s' : Socks5Udp) : Prop where
  /-- It is passed on if and only if it is a request and the queue has room. -/
  relayed : (∃ packet, s'.queue = s.queue ++ [packet]) ↔
    (∃ target payload, IsRequest recvBuf target payload) ∧ s.queue.length < upstreamCapacity
  /-- What is passed on is the target and the payload of the request, under the number of its source. -/
  packet : ∀ packet, s'.queue = s.queue ++ [packet] →
    IsRequest recvBuf packet.target packet.payload ∧ s'.clientSessions.lookup src = some packet.assocId
  /-- What is not passed on leaves the queue as it is. -/
  dropped : (¬ ∃ packet, s'.queue = s.queue ++ [packet]) → s'.queue = s.queue
  /-- What is no request changes nothing at all. -/
  ignored : (∀ target payload, ¬ IsRequest recvBuf target payload) → s' = s
  /-- Every other source keeps its number. -/
  others : ∀ c, c ≠ src → s'.clientSessions.lookup c = s.clientSessions.lookup c
  /-- Every number but the next one to be given out keeps its association. -/
  associations : ∀ id, id ≠ s.nextAssocId → s'.holder id = s.holder id

/-- A session is found or made for the source, and for no other. -/
theorem getOrCreateAssociation_sessions (s : Socks5Udp) (src : SocketAddr) (socket now : ℕ) :
    (s.getOrCreateAssociation src socket now).2.queue = s.queue ∧
      (s.getOrCreateAssociation src socket now).2.clientSessions.lookup src =
        some (s.getOrCreateAssociation src socket now).1 ∧
      ∀ c, c ≠ src →
        (s.getOrCreateAssociation src socket now).2.clientSessions.lookup c = s.clientSessions.lookup c := by
  cases hsrc : s.clientSessions.lookup src with
  | some id =>
    simp only [getOrCreateAssociation, hsrc]
    obtain ⟨hsessions, -, -⟩ := touch_fields s id now
    exact ⟨(s.touch_queue id now).1, by rw [hsessions, hsrc], fun c _ => by rw [hsessions]⟩
  | none =>
    simp only [getOrCreateAssociation, hsrc]
    exact ⟨trivial, AList.lookup_insert _, fun c hc => AList.lookup_insert_ne hc⟩

theorem datagram_holder {r : UdpTarget × List UInt8} (hr : udpRequest recvBuf = some r) {id : UInt16}
    (hid : id ≠ s.nextAssocId) : (s.datagram socket src recvBuf now).holder id = s.holder id := by
  cases hsrc : s.clientSessions.lookup src with
  | some k => exact (datagram_known socket now hr hsrc).1 id
  | none => rw [(datagram_new socket now hr hsrc).1 id, if_neg hid]

/-- **What a datagram does**, in whatever state. -/
theorem datagram_takenIn (s : Socks5Udp) (src : SocketAddr) (recvBuf : List UInt8) (socket now : ℕ) :
    s.TakenIn src recvBuf (s.datagram socket src recvBuf now) := by
  have hgrown : ∀ packet : UdpUpstreamPacket, s.queue ≠ s.queue ++ [packet] := fun packet h => by
    have := congrArg List.length h
    simp at this
  cases hr : udpRequest recvBuf with
  | none =>
    have hsame : s.datagram socket src recvBuf now = s := by rw [datagram, hr]
    have hnone := udpRequest_eq_none_iff.mp hr
    rw [hsame]
    have hrefused : ¬ ∃ target payload, IsRequest recvBuf target payload := by
      rintro ⟨t, p, h⟩
      exact hnone t p h
    refine ⟨iff_of_false (not_exists.mpr hgrown) fun h => hrefused h.1, fun p hp => (hgrown p hp).elim, fun _ => rfl,
      fun _ => rfl, fun _ _ => rfl, fun _ _ => rfl⟩
  | some r =>
    obtain ⟨target, payload⟩ := r
    have hrequest := udpRequest_iff.mp hr
    obtain ⟨hqueue, hown, hothers⟩ := s.getOrCreateAssociation_sessions src socket now
    have hsessions : (s.datagram socket src recvBuf now).clientSessions =
        (s.getOrCreateAssociation src socket now).2.clientSessions := by rw [datagram, hr]
    have hafter : (s.datagram socket src recvBuf now).queue = if s.queue.length < upstreamCapacity then
        s.queue ++ [⟨(s.getOrCreateAssociation src socket now).1, target, payload⟩] else s.queue := by
      rw [datagram, hr]
      simp only [hqueue]
    rw [← hsessions] at hown hothers
    have hignored : (∀ target payload, ¬ IsRequest recvBuf target payload) →
      s.datagram socket src recvBuf now = s := fun h => (h _ _ hrequest).elim
    by_cases hroom : s.queue.length < upstreamCapacity
    · rw [if_pos hroom] at hafter
      refine ⟨iff_of_true ⟨_, hafter⟩ ⟨⟨_, _, hrequest⟩, hroom⟩, fun packet hp => ?_, fun h => (h ⟨_, hafter⟩).elim,
        hignored, hothers, fun id hid => datagram_holder hr hid⟩
      rw [hafter, List.append_right_inj, List.singleton_inj] at hp
      subst hp
      exact ⟨hrequest, hown⟩
    · rw [if_neg hroom] at hafter
      refine ⟨iff_of_false ?_ fun h => hroom h.2, fun packet hp => ?_, fun _ => hafter, hignored, hothers,
        fun id hid => datagram_holder hr hid⟩
      · rintro ⟨packet, hp⟩
        exact hgrown packet (hafter.symm.trans hp)
      · exact (hgrown packet (hafter.symm.trans hp)).elim

/-- A datagram is taken in on a socket whose control connection is there. -/
theorem step_datagram (h : socks5UdpStep s (.datagram socket src recvBuf now) = some s') :
    s.TakenIn src recvBuf s' := by
  simp only [socks5UdpStep] at h
  split_ifs at h
  obtain rfl := Option.some.inj h
  exact s.datagram_takenIn src recvBuf socket now

end Socks5Udp

/-- **What every datagram of every run does.** -/
theorem ingress_exact {as bs : List Socks5UdpAct} {socket now : ℕ} {src : SocketAddr} {recvBuf : List UInt8}
    {s : Socks5Udp} (hrun : Run.exec socks5UdpStep .start (as ++ .datagram socket src recvBuf now :: bs) = some s) :
    ∃ s₁ s₂, Run.exec socks5UdpStep .start as = some s₁ ∧ s₁.TakenIn src recvBuf s₂ ∧
      Run.exec socks5UdpStep s₂ bs = some s := by
  rw [Run.exec_append] at hrun
  obtain ⟨s₁, hs₁, hrun⟩ := Option.bind_eq_some_iff.mp hrun
  obtain ⟨s₂, hs₂, hrun⟩ := Run.exec_cons_some hrun
  exact ⟨s₁, s₂, hs₁, Socks5Udp.step_datagram hs₂, hrun⟩

/-- A host elsewhere. -/
def foreignHost : SocketAddr := ⟨.v4 (.new 203 0 113 9), 4000⟩

/-- A fragment for the name server. -/
def fragmentDatagram : List UInt8 := [0, 0, 1, 1, 8, 8, 8, 8, 0, 53, 7]

/-- **A request of a client, and a fragment from elsewhere.** -/
theorem ingress_exact_fragment : ∃ s s₁ s₂, Run.exec socks5UdpStep .start ([.associate,
      .datagram 0 localClient nameServerDatagram 100] ++ .datagram 0 foreignHost fragmentDatagram 101 :: [.hangUp 0]) =
        some s ∧ Run.exec socks5UdpStep .start [.associate, .datagram 0 localClient nameServerDatagram 100] = some s₁ ∧
      s₁.TakenIn foreignHost fragmentDatagram s₂ ∧ Run.exec socks5UdpStep s₂ [.hangUp 0] = some s := by
  obtain ⟨s, hs⟩ : ∃ s, Run.exec socks5UdpStep .start ([.associate, .datagram 0 localClient nameServerDatagram 100] ++
    .datagram 0 foreignHost fragmentDatagram 101 :: [.hangUp 0]) = some s := Option.isSome_iff_exists.mp (by decide)
  obtain ⟨s₁, s₂, h⟩ := ingress_exact hs
  exact ⟨s, s₁, s₂, hs, h⟩

/-- Every control connection comes from the client on this host. -/
def controlPeer (_socket : ℕ) : IpAddr := localClient.ip

/-- **A host that is not the peer of the control connection** sends a request to its relay socket: it is passed on, and
the host has a session. -/
theorem foreign_relayed : ∃ s₁ s₂, Run.exec socks5UdpStep .start [.associate] = some s₁ ∧
    socks5UdpStep s₁ (.datagram 0 foreignHost nameServerDatagram 100) = some s₂ ∧
      foreignHost.ip ≠ controlPeer 0 ∧ s₂.queue = s₁.queue ++ [⟨1, .ip (.v4 (.new 8 8 8 8)) 53, [7]⟩] ∧
        s₁.clientSessions.lookup foreignHost = none ∧ s₂.clientSessions.lookup foreignHost = some 1 :=
  ⟨_, _, rfl, rfl, by decide, by decide, by decide, by decide⟩

end RXCore
