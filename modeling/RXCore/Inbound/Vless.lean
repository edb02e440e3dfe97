import RXCore.Inbound.Tunnel
import RXCore.State.Limited
import RXCore.Lib.Arrivals

/-!
# The VLESS inbound

The request header that a client sends, as the inbound reads it off its stream, and the three places that
write one.

* `parseVlessInbound`, reading through `VlessReader.readExactToBuf`;
* `desktopRequestHeader`: the header of the desktop client, next to `vlessRequestHeader` and
  `tunnelRequestHeader`; `requestHeader_eq`: they have one layout;
* **`parseVlessInbound_written`**: what any of them writes is read back, in whatever pieces it arrives, and
  nothing after it is touched.
-/

set_option autoImplicit false

namespace RXCore

open Arrivals Encoding

/-- `EngineState::is_user_allowed`. -/
def EngineState.isUserAllowed (s : EngineState) (now : ℤ) (id : Uuid) : Bool :=
  (s.authenticateClient now id).isSome

/-! ## Reading -/

/-- What `parse_vless_inbound` returns. -/
structure VlessRequest where
  destAddr : String
  destPort : UInt16
  uuid : Uuid
  cmd : UInt8
deriving DecidableEq

/-- A result, the rest of the stream, and what was written to it. -/
structure VlessOutcome where
  result : Except String VlessRequest
  stream : List (Arrival UInt8)
  written : List UInt8

structure VlessReader where
  stream : List (Arrival UInt8)
  buf : List UInt8

/-- `read_exact_to_buf(..).await?` and what follows it; the text of a reading error is not kept. -/
def VlessReader.readExactToBuf (s : VlessReader) (needed : ℕ) (next : VlessReader → VlessOutcome) :
    VlessOutcome :=
  if s.buf.length < needed then
    match recvExact (needed - s.buf.length) s.stream with
    | (some bytes, stream) => next ⟨stream, s.buf ++ bytes⟩
    | (none, stream) => ⟨.error "read", stream, []⟩
  else next s

def VlessReader.refuse (s : VlessReader) (e : String) : VlessOutcome := ⟨.error e, s.stream, []⟩

/-- The response is written and the request returned; the text of a writing error is not kept. -/
def VlessReader.respond (s : VlessReader) (writeOk : Bool) (q : VlessRequest) : VlessOutcome :=
  if writeOk then ⟨.ok q, s.stream, [0, 0]⟩ else ⟨.error "write", s.stream, []⟩

/-- The destination of a request whose address starts at `destAddrStart`. -/
def VlessReader.readDestAddr (s : VlessReader) (addrType : UInt8) (destAddrStart : ℕ)
    (next : VlessReader → String → VlessOutcome) : VlessOutcome :=
  if addrType = 1 then
    s.readExactToBuf (destAddrStart + 4) fun s =>
      next s (IpAddr.v4 (.ofOctets (slice s.buf destAddrStart 4))).display
  else if addrType = 2 then
    s.readExactToBuf (destAddrStart + 1) fun s =>
      let domainLen := (s.buf.getD destAddrStart 0).toNat
      s.readExactToBuf (destAddrStart + 1 + domainLen) fun s =>
        match fromUtf8 (slice s.buf (destAddrStart + 1) domainLen) with
        | some domain => next s domain
        | none => s.refuse "invalid utf-8 sequence"
  else if addrType = 3 then
    s.readExactToBuf (destAddrStart + 16) fun s =>
      next s (IpAddr.v6 (.ofOctets (slice s.buf destAddrStart 16))).display
  else s.refuse "Invalid VLESS target address type"

/-- `parse_vless_inbound` at the time `now`. -/
def parseVlessInbound (engineState : EngineState) (now : ℤ) (writeOk : Bool)
    (stream : List (Arrival UInt8)) : VlessOutcome :=
  VlessReader.readExactToBuf ⟨stream, []⟩ 18 fun s =>
    let version := s.buf.getD 0 0
    if version ≠ 0 then s.refuse "Unsupported VLESS version"
    else
      let uuid : Uuid := Vector.ofFn fun i => s.buf.getD (1 + i) 0
      if engineState.isUserAllowed now uuid = false then s.refuse "Invalid client UUID"
      else
        let addonLen := (s.buf.getD 17 0).toNat
        s.readExactToBuf (18 + addonLen + 4) fun s =>
          let cmdPortTypeStart := 18 + addonLen
          let cmd := s.buf.getD cmdPortTypeStart 0
          if cmd ≠ 1 ∧ cmd ≠ 2 then s.refuse "Invalid VLESS request command"
          else
            let port := portAt s.buf (cmdPortTypeStart + 1)
            let addrType := s.buf.getD (cmdPortTypeStart + 3) 0
            s.readDestAddr addrType (cmdPortTypeStart + 4) fun s destAddr =>
              s.respond writeOk ⟨destAddr, port, uuid, cmd⟩

/-! ## Writing -/

/-- `str::parse::<Ipv4Addr>`. -/
def parseIpv4Addr (s : String) : Option Ipv4Addr :=
  match readIpv4Addr s.toList with
  | some (a, []) => some a
  | _ => none

/-- `str::parse::<Ipv6Addr>`. -/
def parseIpv6Addr (s : String) : Option Ipv6Addr :=
  match readIpv6Addr s.toList with
  | some (a, []) => some a
  | _ => none

/-- The header of the desktop client, which asks for TCP. -/
def desktopRequestHeader (uuid : Uuid) (destHost : String) (port : UInt16) : List UInt8 :=
  let (vlessAtyp, addrPayload) : UInt8 × List UInt8 := match parseIpv4Addr destHost with
    | some ipv4 => (1, ipv4.octets.toList)
    | none => match parseIpv6Addr destHost with
      | some ipv6 => (3, ipv6.octets)
      | none => (2, UInt8.ofNat (utf8 destHost).length :: utf8 destHost)
  [0] ++ uuid.toList ++ [0] ++ [1] ++ u16Bytes port.toNat ++ [vlessAtyp] ++ addrPayload

/-! ## One layout -/

/-- The type of a destination and its bytes. -/
def vlessAddress (destAddr : String) : UInt8 × List UInt8 :=
  match parseIpAddr destAddr with
  | some (.v4 ipv4) => (1, ipv4.octets.toList)
  | some (.v6 ipv6) => (3, ipv6.octets)
  | none => (2, UInt8.ofNat (utf8 destAddr).length :: utf8 destAddr)

/-- The layout of a request header. -/
def requestHeader (uuid : Uuid) (cmd : UInt8) (t : Target) : List UInt8 :=
  (0 :: uuid.toList ++ [0]) ++ (cmd :: u16Bytes t.destPort.toNat ++ [(vlessAddress t.destAddr).1]) ++
    (vlessAddress t.destAddr).2

/-- What starts with an IPv4 address and goes on is no IPv6 address either. -/
theorem parseIpAddr_eq (s : String) :
    parseIpAddr s = ((parseIpv4Addr s).map IpAddr.v4).or ((parseIpv6Addr s).map IpAddr.v6) := by
  unfold parseIpAddr parseIpv4Addr parseIpv6Addr
  cases h4 : readIpv4Addr s.toList with
  | none =>
    cases readIpv6Addr s.toList with
    | none => rfl
    | some p =>
      obtain ⟨a, rest⟩ := p
      cases rest <;> rfl
  | some p =>
    obtain ⟨a, rest⟩ := p
    cases rest with
    | nil => rfl
    | cons c rest =>
      have h6 : readIpv6Addr s.toList = none := by
        simp [readIpv6Addr, readGroups, readSeparator, h4, ipv4Groups]
      simp [h6]

/-- A header as one of the three places writes it. -/
inductive WritesHeader (uuid : Uuid) (t : Target) : UInt8 → List UInt8 → Prop where
  | outbound {isUdp ipv4Only : Bool} {header : List UInt8}
      (h : vlessRequestHeader uuid isUdp ipv4Only t = .ok header) :
      WritesHeader uuid t (if isUdp then 2 else 1) header
  | tunnel : WritesHeader uuid t 2 (tunnelRequestHeader uuid t)
  | desktop : WritesHeader uuid t 1 (desktopRequestHeader uuid t.destAddr t.destPort)

variable {uuid : Uuid} {t : Target} {cmd : UInt8} {header : List UInt8}

/-- **The three places write the same layout.** -/
theorem requestHeader_eq (h : WritesHeader uuid t cmd header) : header = requestHeader uuid cmd t := by
  cases h with
  | outbound h =>
    unfold vlessRequestHeader at h
    unfold requestHeader vlessAddress
    cases hip : parseIpAddr t.destAddr with
    | none => simp [hip] at h; simp [← h]
    | some ip =>
      cases ip with
      | v4 ipv4 => simp [hip] at h; simp [← h]
      | v6 ipv6 =>
        simp only [hip] at h
        split_ifs at h
        · obtain rfl := Except.ok.inj h
          simp [*]
        · obtain rfl := Except.ok.inj h
          simp [*]
  | tunnel =>
    unfold tunnelRequestHeader requestHeader vlessAddress
    cases parseIpAddr t.destAddr with
    | none => simp
    | some ip => cases ip <;> simp
  | desktop =>
    unfold desktopRequestHeader requestHeader vlessAddress
    rw [parseIpAddr_eq]
    cases parseIpv4Addr t.destAddr with
    | some ipv4 => simp
    | none => cases parseIpv6Addr t.destAddr <;> simp

/-! ## Round trip -/

/-- A destination as it is read back: a literal in canonical form, a name as it is. -/
def canonicalDest (destAddr : String) : String :=
  match parseIpAddr destAddr with
  | some ip => ip.display
  | none => destAddr

/-- A read of what is there, in whatever pieces it arrives. -/
theorem VlessReader.readExactToBuf_eq {s : VlessReader} {bytes rest : List UInt8} {n : ℕ}
    (h : content s.stream = bytes ++ rest) (hn : n = s.buf.length + bytes.length) :
    ∃ stream, content stream = rest ∧ ∀ next, s.readExactToBuf n next = next ⟨stream, s.buf ++ bytes⟩ := by
  subst hn
  unfold readExactToBuf
  by_cases hnil : bytes = []
  · subst hnil
    exact ⟨s.stream, h, by simp⟩
  · obtain ⟨stream, hr, hrest⟩ := recvExact_eq h
    have hpos := List.length_pos_iff.mpr hnil
    refine ⟨stream, hrest, fun next => ?_⟩
    rw [if_pos (by omega), Nat.add_sub_cancel_left, hr]

/-- The fields after the first 18 bytes of a header. -/
theorem requestFields {pre : List UInt8} (hpre : pre.length = 18) (cmd addrType : UInt8) (port : UInt16) :
    (pre ++ (cmd :: u16Bytes port.toNat ++ [addrType])).length = 22 ∧
      (pre ++ (cmd :: u16Bytes port.toNat ++ [addrType])).getD 18 0 = cmd ∧
      portAt (pre ++ (cmd :: u16Bytes port.toNat ++ [addrType])) 19 = port ∧
      (pre ++ (cmd :: u16Bytes port.toNat ++ [addrType])).getD 21 0 = addrType := by
  have hport := portAt_append (pre ++ [cmd]) [addrType] port
  refine ⟨by simp [hpre], ?_, ?_, ?_⟩
  · rw [List.getD_append_right _ _ _ _ (by omega)]
    simp [hpre]
  · rw [List.length_append, hpre, List.append_assoc, List.append_assoc] at hport
    exact hport
  · rw [List.getD_append_right _ _ _ _ (by omega)]
    simp [hpre, u16Bytes]

/-- **A destination is read back.** -/
theorem VlessReader.readDestAddr_eq {s : VlessReader} {destAddr : String} {rest : List UInt8}
    (h : content s.stream = (vlessAddress destAddr).2 ++ rest)
    (hlen : (parseIpAddr destAddr).isSome ∨ (utf8 destAddr).length ≤ 255) :
    ∃ s', content s'.stream = rest ∧ ∀ next,
      s.readDestAddr (vlessAddress destAddr).1 s.buf.length next = next s' (canonicalDest destAddr) := by
  have hslice : ∀ bytes, slice (s.buf ++ bytes) s.buf.length bytes.length = bytes := fun bytes => by
    simpa using slice_append s.buf bytes []
  unfold canonicalDest
  cases hip : parseIpAddr destAddr with
  | some ip =>
    cases ip with
    | v4 ipv4 =>
      have haddr : vlessAddress destAddr = (1, ipv4.octets.toList) := by simp [vlessAddress, hip]
      rw [haddr] at h ⊢
      have h4 := hslice ipv4.octets.toList
      rw [Vector.length_toList] at h4
      obtain ⟨stream, hrest, hr⟩ := s.readExactToBuf_eq h (n := s.buf.length + 4) (by simp)
      refine ⟨⟨stream, s.buf ++ ipv4.octets.toList⟩, hrest, fun next => ?_⟩
      rw [readDestAddr, if_pos rfl, hr, h4, Ipv4Addr.ofOctets_octets]
    | v6 ipv6 =>
      have haddr : vlessAddress destAddr = (3, ipv6.octets) := by simp [vlessAddress, hip]
      rw [haddr] at h ⊢
      have h6 := hslice ipv6.octets
      rw [Ipv6Addr.octets_length] at h6
      obtain ⟨stream, hrest, hr⟩ := s.readExactToBuf_eq h (n := s.buf.length + 16) (by simp)
      refine ⟨⟨stream, s.buf ++ ipv6.octets⟩, hrest, fun next => ?_⟩
      rw [readDestAddr, if_neg (by simp), if_neg (by simp), if_pos rfl, hr, h6, Ipv6Addr.ofOctets_octets]
  | none =>
    simp only [hip, Option.isSome_none, Bool.false_eq_true, false_or] at hlen
    have haddr : vlessAddress destAddr = (2, UInt8.ofNat (utf8 destAddr).length :: utf8 destAddr) := by
      simp [vlessAddress, hip]
    rw [haddr] at h ⊢
    have hbyte : (UInt8.ofNat (utf8 destAddr).length).toNat = (utf8 destAddr).length := by
      rw [UInt8.toNat_ofNat']
      omega
    -- the length byte first, then the name
    generalize hlenByte : UInt8.ofNat (utf8 destAddr).length = lenByte at h hbyte
    obtain ⟨stream, hname, hr⟩ := s.readExactToBuf_eq
      (show content s.stream = [lenByte] ++ (utf8 destAddr ++ rest) by simpa using h) (n := s.buf.length + 1) rfl
    obtain ⟨stream', hrest, hr'⟩ := VlessReader.readExactToBuf_eq (s := ⟨stream, s.buf ++ [lenByte]⟩) hname
      (n := s.buf.length + 1 + (utf8 destAddr).length) (by simp)
    have hget : (s.buf ++ [lenByte]).getD s.buf.length 0 = lenByte := by simp
    have hslice' := slice_append (s.buf ++ [lenByte]) (utf8 destAddr) []
    simp only [List.length_append, List.length_singleton, List.append_nil] at hslice'
    refine ⟨⟨stream', s.buf ++ [lenByte] ++ utf8 destAddr⟩, hrest, fun next => ?_⟩
    rw [readDestAddr, if_neg (by simp), if_pos rfl, hr]
    simp only [hget, hbyte, hr', hslice', fromUtf8_utf8]

variable {stream : List (Arrival UInt8)} {payload : List UInt8} {engineState : EngineState} {now : ℤ}

/-- **Header round trip.** What any of the three places writes for a user that is allowed is read back with
the payload left, and for any other user no more than 18 bytes are read and nothing is written. -/
theorem parseVlessInbound_written (hw : WritesHeader uuid t cmd header)
    (hdest : (parseIpAddr t.destAddr).isSome ∨ (utf8 t.destAddr).length ≤ 255)
    (hcontent : content stream = header ++ payload) :
    ((engineState.authenticateClient now uuid).isSome → ∃ rest, content rest = payload ∧
      parseVlessInbound engineState now true stream =
        ⟨.ok ⟨canonicalDest t.destAddr, t.destPort, uuid, cmd⟩, rest, [0, 0]⟩) ∧
    (engineState.authenticateClient now uuid = none → ∀ writeOk, ∃ rest,
      content rest = (header ++ payload).drop 18 ∧
      parseVlessInbound engineState now writeOk stream = ⟨.error "Invalid client UUID", rest, []⟩) := by
  have hcmd : cmd = 1 ∨ cmd = 2 := by
    cases hw with
    | outbound h => split_ifs <;> simp
    | tunnel => exact .inr rfl
    | desktop => exact .inl rfl
  obtain rfl := requestHeader_eq hw
  have huuid : (Vector.ofFn fun i : Fin 16 => (0 :: uuid.toList ++ [0]).getD (1 + i) 0) = uuid := by
    refine Vector.ext fun i hi => ?_
    rw [Vector.getElem_ofFn, Nat.add_comm]
    simp [List.getElem?_append_left, hi]
  have hlast : (0 :: uuid.toList ++ [0]).getD 17 0 = 0 := by simp
  rw [requestHeader, List.append_assoc, List.append_assoc] at hcontent
  obtain ⟨stream₁, h₁, hr₁⟩ := VlessReader.readExactToBuf_eq (s := ⟨stream, []⟩) hcontent (n := 18) (by simp)
  rw [List.nil_append] at hr₁
  simp only [parseVlessInbound, hr₁, huuid, hlast, EngineState.isUserAllowed]
  constructor
  · intro hallowed
    obtain ⟨stream₂, h₂, hr₂⟩ := VlessReader.readExactToBuf_eq (s := ⟨stream₁, 0 :: uuid.toList ++ [0]⟩) h₁
      (n := 22) (by simp)
    obtain ⟨hlen, hcmdAt, hportAt, htypeAt⟩ := requestFields (show (0 :: uuid.toList ++ [0]).length = 18 by simp) cmd
      (vlessAddress t.destAddr).1 t.destPort
    dsimp only at hr₂
    generalize 0 :: uuid.toList ++ [0] ++
      (cmd :: u16Bytes t.destPort.toNat ++ [(vlessAddress t.destAddr).1]) = buf at *
    obtain ⟨s, hrest, hr₃⟩ := VlessReader.readDestAddr_eq (s := ⟨stream₂, buf⟩) h₂ hdest
    rw [hlen] at hr₃
    refine ⟨s.stream, hrest, ?_⟩
    have hzero : (0 : UInt8).toNat = 0 := rfl
    have hcmd' : ¬ (cmd ≠ 1 ∧ cmd ≠ 2) := by tauto
    simp only [hzero, Nat.add_zero, Nat.reduceAdd, hr₂, hcmdAt, htypeAt, hportAt, hr₃, if_neg hcmd']
    simp [hallowed, VlessReader.respond]
  · intro hrefused writeOk
    refine ⟨stream₁, ?_, ?_⟩
    · rw [requestHeader, List.append_assoc, List.append_assoc, List.drop_left' (by simp)]
      exact h₁
    · simp [hrefused, VlessReader.refuse]

/-- A request for a name, which arrives in three pieces with the first byte of the payload in the last. -/
def splitRequest : List (Arrival UInt8) :=
  let header := desktopRequestHeader fiveBytes.uuid "example.com" 443
  [.data (header.take 1), .data ((header.drop 1).take 20), .data (header.drop 21 ++ [9])]

theorem splitRequest_parsed : ∃ rest, content rest = [9] ∧
    parseVlessInbound fiveBytesEngine 0 true splitRequest =
      ⟨.ok ⟨"example.com", 443, fiveBytes.uuid, 1⟩, rest, [0, 0]⟩ := by
  have h := (@parseVlessInbound_written fiveBytes.uuid ⟨"example.com", 443⟩ _ _ splitRequest [9] fiveBytesEngine 0 .desktop
    (.inr (by decide)) (by decide +kernel)).1 (by decide +kernel)
  have hdest : canonicalDest "example.com" = "example.com" := by decide
  rw [hdest] at h
  exact h

end RXCore
