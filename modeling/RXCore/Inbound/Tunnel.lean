import RXCore.Outbound.Contacts

/-!
# The tunnel of the SOCKS5 inbound

What the SOCKS5 inbound sends over a VLESS outbound goes through connections of its own, made from the
first VLESS outbound of the configuration.

* `tunnelConfig`, `establishRawVlessStream`, `tunnelRequestHeader`, `connectToVless`;
* `tunnelContacts`: the addresses that a tunnel tries; `establishRawVlessStream_tried`.
-/

set_option autoImplicit false

namespace RXCore

open Encoding

/-- The settings of the first VLESS outbound. -/
def tunnelConfig (s : EngineState) : Except String VlessClientConfig :=
  match (s.config.outbounds.find? (·.protocol == "vless")).bind fun o => o.settings.bind (·.vless) with
  | some cfg => .ok cfg
  | none => .error "VLESS config missing"

/-- `establish_raw_vless_stream`: the address of the server that it connects to. -/
def establishRawVlessStream (s : EngineState) (c : Connect) : Except String SocketAddr := do
  let cfg ← tunnelConfig s
  refuseIf c.timedOut "deadline has elapsed"
  let addr ← c.answers.tcpConnect cfg.server cfg.port
  let tls := if cfg.tls.isSome then c.tls else .ok ()
  tls.map fun _ => addr

/-- The request header of `connect_to_vless`, which asks for UDP. -/
def tunnelRequestHeader (uuid : Uuid) (t : Target) : List UInt8 :=
  [0] ++ uuid.toList ++ [0] ++ [2] ++ u16Bytes t.destPort.toNat ++
    match parseIpAddr t.destAddr with
    | some (.v4 ipv4) => [1] ++ ipv4.octets.toList
    | some (.v6 ipv6) => [3] ++ ipv6.octets
    | none => [2] ++ [UInt8.ofNat (utf8 t.destAddr).length] ++ utf8 t.destAddr

/-- `connect_to_vless`: the address of the server and the header that is sent to it. -/
def connectToVless (X : Crates) (s : EngineState) (c : Connect) (t : Target) :
    Except String (SocketAddr × List UInt8) := do
  let addr ← establishRawVlessStream s c
  let cfg ← tunnelConfig s
  let uuid ← parseUuidOrErr X cfg.uuid
  let response ← c.response
  refuseIf (response.getD 0 0 ≠ 0) "Invalid response protocol version"
  return (addr, tunnelRequestHeader uuid t)

/-- The addresses that a tunnel tries. -/
def tunnelContacts (A : Answers) (s : EngineState) : List SocketAddr :=
  match tunnelConfig s with
  | .ok cfg => A.textTried (hostPort cfg.server cfg.port)
  | .error _ => []

/-- **A tunnel is a connection to an address that is tried for it.** -/
theorem establishRawVlessStream_tried {s : EngineState} {c : Connect} {addr : SocketAddr}
    (h : establishRawVlessStream s c = .ok addr) : addr ∈ tunnelContacts c.answers s := by
  simp only [establishRawVlessStream, bind_ok] at h
  obtain ⟨cfg, hcfg, -, -, a, ha, h⟩ := h
  simp only [tunnelContacts, hcfg]
  have haddr : a = addr := by
    split_ifs at h
    · cases htls : c.tls with
      | error e =>
        rw [htls] at h
        cases h
      | ok u =>
        rw [htls] at h
        exact Except.ok.inj h
    · exact Except.ok.inj h
  subst haddr
  exact connectText_tried ha

end RXCore
