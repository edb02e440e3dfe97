import RXCore.Inbound.Ingress

/-!
# The two parsers of the SOCKS5 UDP header

`parse_socks5_udp` reads the replies of a proxy, the loop of the inbound the requests of a client, and
`wrap_socks5_udp_host` writes what a proxy reads.

* `wrapSocks5UdpHost`: the packet for a host; `hostTarget`: what it is to be read as;
* `wrapSocks5UdpHost_request`: it is a request for the host;
* `parseSocks5Udp_ok_iff`: in a packet that is no fragment, both parsers find the same addresses;
* `parseSocks5Udp_domain`: names are for requests only;
* **`headers_agree`**: where the parsers agree, and what they read of a packet that was written here;
* **`name_refused`**: a packet for a name.
-/

set_option autoImplicit false

namespace RXCore

open Encoding Tables Socks5Udp

/-- `wrap_socks5_udp_host`: no reserved byte is used, and nothing is fragmented. -/
def wrapSocks5UdpHost (destHost : String) (destPort : UInt16) (payload : List UInt8) : List UInt8 :=
  [0, 0, 0] ++ socks5Address destHost destPort ++ payload

/-- A host as a target: the address that it is the text of, or else the name. -/
def hostTarget (destHost : String) (destPort : UInt16) : UdpTarget :=
  match parseIpAddr destHost with
  | some ip => .ip ip destPort
  | none => .domain destHost destPort

/-- What `parse_socks5_udp` says of an address type that it does not know. -/
def unsupportedType : String := "Unsupported SOCKS5 UDP address type"

section

variable {buf payload : List UInt8} {host : String} {ip : IpAddr} {port : UInt16} {offset : ℕ}

theorem socks5Address_header (host : String) (port : UInt16) :
    socks5Address host port = (hostTarget host port).header := by
  rw [socks5Address, hostTarget]
  cases parseIpAddr host <;> rfl

theorem hostTarget_short (h : (utf8 host).length ≤ 255) (port : UInt16) : (hostTarget host port).Short := by
  rw [hostTarget]
  cases parseIpAddr host with
  | some ip => trivial
  | none => exact h

/-- **The packet for a host is a request for it.** -/
theorem wrapSocks5UdpHost_request (h : (utf8 host).length ≤ 255) (port : UInt16) (payload : List UInt8) :
    IsRequest (wrapSocks5UdpHost host port payload) (hostTarget host port) payload :=
  ⟨hostTarget_short h port, 0, 0, by rw [wrapSocks5UdpHost, socks5Address_header]; rfl⟩

theorem drop_left_inj {i j : ℕ} (hi : i ≤ buf.length) (hj : j ≤ buf.length) : buf.drop i = buf.drop j ↔ i = j := by
  constructor
  · intro h
    have hlen := congrArg List.length h
    rw [List.length_drop, List.length_drop] at hlen
    omega
  · rintro rfl
    rfl

/-- An address and the place of its payload, as one parser and as the other finds them. -/
theorem found_iff {a : IpAddr} {p : UInt16} {n : ℕ} (hn : n ≤ buf.length) :
    (Except.ok (a, p, n) : Except String (IpAddr × UInt16 × ℕ)) = .ok (ip, port, offset) ↔
      offset ≤ buf.length ∧ some (UdpTarget.ip a p, buf.drop n) = some (.ip ip port, buf.drop offset) := by
  simp only [Except.ok.injEq, Option.some.injEq, Prod.mk.injEq, UdpTarget.ip.injEq]
  constructor
  · rintro ⟨rfl, rfl, rfl⟩
    exact ⟨hn, ⟨rfl, rfl⟩, rfl⟩
  · rintro ⟨hoffset, ⟨rfl, rfl⟩, hdrop⟩
    exact ⟨rfl, rfl, (drop_left_inj hn hoffset).mp hdrop⟩

/-- **In a packet that is no fragment, both parsers find the same addresses**, ports and payloads. -/
theorem parseSocks5Udp_ok_iff (hfrag : buf.getD 2 0 = 0) : parseSocks5Udp buf = .ok (ip, port, offset) ↔
    offset ≤ buf.length ∧ udpRequest buf = some (.ip ip port, buf.drop offset) := by
  have hnone : ∀ e : String, (Except.error e : Except String (IpAddr × UInt16 × ℕ)) = .ok (ip, port, offset) ↔
      offset ≤ buf.length ∧ (none : Option (UdpTarget × List UInt8)) = some (.ip ip port, buf.drop offset) :=
    fun e => iff_of_false (fun h => by cases h) (fun h => by cases h.2)
  rw [parseSocks5Udp, udpRequest, if_neg (not_not.mpr hfrag)]
  by_cases h4 : buf.length < 4
  · rw [if_pos h4, if_pos h4]
    exact hnone _
  rw [if_neg h4, if_neg h4]
  dsimp only
  by_cases h1 : buf.getD 3 0 = 1
  · rw [if_pos h1, if_pos h1]
    by_cases h10 : buf.length < 10
    · rw [if_pos h10, if_pos h10]
      exact hnone _
    · rw [if_neg h10, if_neg h10]
      exact found_iff (not_lt.mp h10)
  rw [if_neg h1, if_neg h1]
  by_cases h6 : buf.getD 3 0 = 4
  · rw [if_pos h6, if_pos h6]
    by_cases h22 : buf.length < 22
    · rw [if_pos h22, if_pos h22]
      exact hnone _
    · rw [if_neg h22, if_neg h22]
      exact found_iff (not_lt.mp h22)
  rw [if_neg h6, if_neg h6]
  -- a name is a request, and nothing that the other parser knows
  refine iff_of_false (fun h => by cases h) fun h => ?_
  have h := h.2
  split_ifs at h
  obtain ⟨name, -, hname⟩ := Option.map_eq_some_iff.mp h
  cases (Prod.mk.inj hname).1

/-- **Names are for requests only.** -/
theorem parseSocks5Udp_domain {name : String} (h : udpRequest buf = some (.domain name port, payload)) :
    parseSocks5Udp buf = .error unsupportedType := by
  obtain ⟨hlen, -⟩ := udpRequest_unfragmented h
  obtain ⟨-, rsv₀, rsv₁, rfl⟩ := udpRequest_iff.mp h
  rw [parseSocks5Udp, if_neg (not_lt.mpr hlen)]
  rfl

end

/-- **Where the parsers agree.** In a packet that is no fragment they find the same addresses, ports and payloads; names
are for requests only. Of a packet that was written here, a request has the host, the port and the payload back, and so
has a reply whose host is an address. -/
theorem headers_agree :
    (∀ buf : List UInt8, buf.getD 2 0 = 0 → ∀ ip port offset, parseSocks5Udp buf = .ok (ip, port, offset) ↔
      offset ≤ buf.length ∧ udpRequest buf = some (.ip ip port, buf.drop offset)) ∧
    (∀ buf name port payload, udpRequest buf = some (.domain name port, payload) →
      parseSocks5Udp buf = .error unsupportedType) ∧
    ∀ host : String, (utf8 host).length ≤ 255 → ∀ port payload,
      udpRequest (wrapSocks5UdpHost host port payload) = some (hostTarget host port, payload) ∧
        match parseIpAddr host with
        | some ip => ∃ offset, parseSocks5Udp (wrapSocks5UdpHost host port payload) = .ok (ip, port, offset) ∧
            (wrapSocks5UdpHost host port payload).drop offset = payload
        | none => parseSocks5Udp (wrapSocks5UdpHost host port payload) = .error unsupportedType := by
  refine ⟨fun buf hfrag ip port offset => parseSocks5Udp_ok_iff hfrag,
    fun buf name port payload => parseSocks5Udp_domain, fun host h port payload => ?_⟩
  have hrequest := udpRequest_iff.mpr (wrapSocks5UdpHost_request h port payload)
  refine ⟨hrequest, ?_⟩
  rw [hostTarget] at hrequest
  cases hip : parseIpAddr host with
  | none =>
    rw [hip] at hrequest
    exact parseSocks5Udp_domain hrequest
  | some ip =>
    rw [hip] at hrequest
    have hpacket : wrapSocks5UdpHost host port payload = ([0, 0, 0] ++ socks5Address host port) ++ payload := rfl
    have hdrop : (wrapSocks5UdpHost host port payload).drop ([0, 0, 0] ++ socks5Address host port).length =
        payload := by
      rw [hpacket, List.drop_left]
    refine ⟨_, (parseSocks5Udp_ok_iff rfl).mpr ⟨?_, ?_⟩, hdrop⟩
    · have hlen := congrArg List.length hpacket
      rw [List.length_append] at hlen
      omega
    · rw [hrequest, hdrop]

/-- A packet for a name. -/
def namePacket : List UInt8 := [0, 0, 0, 3, 1, 97, 1, 187]

/-- **A reply of a name server, and a packet for a name.** -/
theorem headers_agree_packets : parseSocks5Udp nameServerDatagram = .ok (.v4 (.new 8 8 8 8), 53, 10) ∧
    parseSocks5Udp namePacket = .error unsupportedType ∧
      udpRequest (wrapSocks5UdpHost "a" 443 []) = some (hostTarget "a" 443, []) :=
  ⟨(headers_agree.1 nameServerDatagram rfl _ _ _).mpr ⟨by decide, by decide⟩,
    headers_agree.2.1 namePacket "a" 443 [] (by decide), (headers_agree.2.2 "a" (by decide) 443 []).1⟩

/-- **A packet for a name**, as it is written here, is read by one parser and refused by the other. -/
theorem name_refused : wrapSocks5UdpHost "a" 443 [] = namePacket ∧
    udpRequest namePacket = some (.domain "a" 443, []) ∧ (parseSocks5Udp namePacket).toOption = none := by
  refine ⟨?_, ?_, rfl⟩ <;> decide

end RXCore
