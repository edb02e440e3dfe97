import RXCore.Transport.Reality
import RXCore.Lib.Tls

/-!
# Server names in plain ClientHello records

`parse_sni_from_bytes`, the second parser of a ClientHello, which walks the first record of a connection by
offsets, and what it and `parse_client_hello` make of a well-formed message.

* `sniffNames`, `sniffExtensions`, `parseSniFromBytes`;
* `parseExtensions_encode`, `sniffExtensions_encode`: the two loops over the extensions;
* **`parse_wellFormed`**: both parsers find the host name of a well-formed message, and
  `parse_client_hello` its session id, random and share for X25519 too.
-/

set_option autoImplicit false

namespace RXCore

open Encoding Tls

/-! ## The parser -/

/-- The loop over the entries of a server name list that ends at `stop`. -/
def sniffNames (payload : List UInt8) (stop inner : ℕ) : Option String :=
  if inner + 3 ≤ stop then
    let nameType := payload.getD inner 0
    let nameLen := u16At payload (inner + 1)
    let inner' := inner + 3
    if stop < inner' + nameLen then none
    else
      let hostname := if nameType = 0 then fromUtf8 (slice payload inner' nameLen) else none
      hostname.or (sniffNames payload stop (inner' + nameLen))
  else none
termination_by stop - inner

/-- The loop over the extensions, which end at `targetEnd`. -/
def sniffExtensions (payload : List UInt8) (targetEnd index : ℕ) : Option String :=
  if index + 4 ≤ targetEnd then
    let extType := u16At payload index
    let extDataLen := u16At payload (index + 2)
    let index' := index + 4
    if targetEnd < index' + extDataLen then none
    else if extType = 0 then
      if extDataLen < 2 ∨ extDataLen < 2 + u16At payload index' then none
      else (sniffNames payload (index' + extDataLen) (index' + 2)).or
        (sniffExtensions payload targetEnd (index' + extDataLen))
    else sniffExtensions payload targetEnd (index' + extDataLen)
  else none
termination_by targetEnd - index

/-- `parse_sni_from_bytes`, from the handshake message of the record on. -/
def sniffPayload (payload : List UInt8) : Option String :=
  if payload.length < 4 then none
  else if payload.getD 0 0 ≠ 1 then none
  else
    let helloLen := (payload.getD 1 0).toNat * 65536 + u16At payload 2
    if payload.length < 4 + helloLen then none
    else if payload.length ≤ 38 then none
    else
      let sessionIdLen := (payload.getD 38 0).toNat
      let index := 38 + (1 + sessionIdLen)
      if payload.length < index + 2 then none
      else
        let cipherSuitesLen := u16At payload index
        let index := index + (2 + cipherSuitesLen)
        if payload.length < index + 1 then none
        else
          let compLen := (payload.getD index 0).toNat
          let index := index + (1 + compLen)
          if payload.length < index + 2 then none
          else
            let extLen := u16At payload index
            let index := index + 2
            let targetEnd := index + extLen
            if payload.length < targetEnd then none
            else sniffExtensions payload targetEnd index

/-- `parse_sni_from_bytes`. -/
def parseSniFromBytes (buf : List UInt8) : Option String :=
  if buf.length < 5 then none
  else if buf.getD 0 0 ≠ 0x16 then none
  else
    let recordLen := u16At buf 3
    if buf.length < 5 + recordLen then none
    else sniffPayload (slice buf 5 recordLen)

/-! ## The lists inside an extension -/

theorem beBytes_two (n : ℕ) : beBytes 2 n = u16Bytes n := by simp [beBytes, u16Bytes]

theorem vec_two (bs : List UInt8) : vec 2 bs = u16Bytes bs.length ++ bs := by rw [vec, beBytes_two]

theorem vec_one (bs : List UInt8) : vec 1 bs = UInt8.ofNat bs.length :: bs := by simp [vec, beBytes]

/-- `parseHostName` at an entry. -/
theorem parseHostName_cons (nameType : UInt8) (data rest : List UInt8) (h : data.length < 65536) :
    parseHostName (nameType :: vec 2 data ++ rest) =
      if nameType = 0 then fromUtf8 data else parseHostName rest := by
  have hlen := u16_ofNat data.length
  rw [Nat.mod_eq_of_lt h] at hlen
  rw [vec_two, u16Bytes]
  simp only [List.cons_append, List.nil_append, parseHostName, hlen, List.take_left, List.drop_left]
  rw [if_neg (by simp)]

theorem parseHostName_encode (names : List ServerName)
    (h : (names.flatMap ServerName.encode).length < 65536) :
    parseHostName (names.flatMap ServerName.encode) = (Extension.serverName names).hostName := by
  induction names with
  | nil => simp [parseHostName, Extension.hostName]
  | cons n names ih =>
    rw [List.flatMap_cons, List.length_append] at h
    rw [List.flatMap_cons]
    cases n with
    | hostName name =>
      simp only [ServerName.encode, List.length_cons, vec_length] at h ⊢
      rw [parseHostName_cons _ _ _ (by omega), if_pos rfl, fromUtf8_utf8]
      rfl
    | other nameType data hne =>
      simp only [ServerName.encode, List.length_cons, vec_length] at h ⊢
      rw [parseHostName_cons _ _ _ (by omega), if_neg hne, ih (by omega)]
      rfl

/-- `parseKeyShares` at an entry. -/
theorem parseKeyShares_cons (e : KeyShareEntry) (rest : List UInt8) (h : e.keyExchange.length < 65536) :
    parseKeyShares (e.encode ++ rest) =
      if e.group = 0x001d then some e.keyExchange else parseKeyShares rest := by
  have hlen := u16_ofNat e.keyExchange.length
  rw [Nat.mod_eq_of_lt h] at hlen
  have hgroup := u16_ofNat e.group.toNat
  rw [Nat.mod_eq_of_lt e.group.toNat_lt] at hgroup
  rw [KeyShareEntry.encode, vec_two, beBytes_two, u16Bytes, u16Bytes]
  simp only [List.cons_append, List.nil_append, parseKeyShares, hlen, hgroup, List.drop_left]
  rw [if_neg (by simp)]
  by_cases hx : e.group = 0x001d
  · have h32 := e.x25519 hx
    rw [if_pos hx, if_pos ⟨by rw [hx]; rfl, h32⟩, ← h32, List.take_left]
  · have hne : e.group.toNat ≠ 0x001d := fun hc => hx (UInt16.toNat_inj.mp hc)
    rw [if_neg hx, if_neg (fun hc => hne hc.1)]

theorem parseKeyShares_encode (shares : List KeyShareEntry)
    (h : (shares.flatMap KeyShareEntry.encode).length < 65536) :
    parseKeyShares (shares.flatMap KeyShareEntry.encode) = (Extension.keyShare shares).x25519Share := by
  induction shares with
  | nil => simp [parseKeyShares, Extension.x25519Share]
  | cons e shares ih =>
    rw [List.flatMap_cons, List.length_append] at h
    have he : e.encode.length = 2 + (2 + e.keyExchange.length) := by simp [KeyShareEntry.encode]
    rw [List.flatMap_cons, parseKeyShares_cons e _ (by omega), ih (by omega)]
    by_cases hx : e.group = 0x001d <;> simp [Extension.x25519Share, hx]

theorem extensionList_vec (list : List UInt8) (h : list.length < 65536) :
    extensionList (vec 2 list) = some list := by
  have hlen := u16_ofNat list.length
  rw [Nat.mod_eq_of_lt h] at hlen
  rw [vec_two, u16Bytes]
  simp only [List.cons_append, List.nil_append, extensionList, hlen]
  simp

/-! ## The extensions, by cursors -/

/-- `parseExtensions` at an extension. -/
theorem parseExtensions_cons (publicKey : Option (List UInt8)) (serverName : Option String) (e : Extension)
    (rest : List UInt8) (h : e.data.length < 65536) :
    parseExtensions publicKey serverName (e.encode ++ rest) =
      let serverName := if e.type = 0 then ((extensionList e.data).bind parseHostName).or serverName
        else serverName
      let publicKey := if e.type = 0x0033 then ((extensionList e.data).bind parseKeyShares).or publicKey
        else publicKey
      if publicKey.isSome && serverName.isSome then (publicKey, serverName)
      else parseExtensions publicKey serverName rest := by
  have hlen := u16_ofNat e.data.length
  rw [Nat.mod_eq_of_lt h] at hlen
  have htype := u16_ofNat e.type.toNat
  rw [Nat.mod_eq_of_lt e.type.toNat_lt] at htype
  have h0 : e.type.toNat = 0x0000 ↔ e.type = 0 := UInt16.toNat_inj (b := 0)
  have h33 : e.type.toNat = 0x0033 ↔ e.type = 0x0033 := UInt16.toNat_inj (b := 0x0033)
  rw [Extension.encode, vec_two, beBytes_two, u16Bytes, u16Bytes]
  simp only [List.cons_append, List.nil_append, parseExtensions, hlen, htype, List.take_left, List.drop_left,
    h0, h33]
  rw [if_neg (by simp)]

theorem extension_hostName (e : Extension) (h : e.data.length < 65536) :
    (if e.type = 0 then (extensionList e.data).bind parseHostName else none) = e.hostName := by
  cases e with
  | serverName names =>
    simp only [Extension.data, vec_length] at h
    rw [Extension.data, extensionList_vec _ (by omega)]
    exact parseHostName_encode names (by omega)
  | keyShare shares => rfl
  | other type data hne => exact if_neg hne.1

theorem extension_x25519Share (e : Extension) (h : e.data.length < 65536) :
    (if e.type = 0x0033 then (extensionList e.data).bind parseKeyShares else none) = e.x25519Share := by
  cases e with
  | serverName names => rfl
  | keyShare shares =>
    simp only [Extension.data, vec_length] at h
    rw [Extension.data, extensionList_vec _ (by omega)]
    exact parseKeyShares_encode shares (by omega)
  | other type data hne => exact if_neg hne.2

theorem findSome?_cons_or {α β : Type} (f : α → Option β) (a : α) (l : List α) :
    (a :: l).findSome? f = (f a).or (l.findSome? f) := by
  rw [List.findSome?_cons]
  cases f a <;> rfl

/-- **The loop of `parse_client_hello`.** Extensions of one type do not come twice, so what is known when
the loop stops early is all there is. -/
theorem parseExtensions_encode {exts : List Extension} (hnodup : (exts.map Extension.type).Nodup)
    (hlen : (exts.flatMap Extension.encode).length < 65536) {publicKey : Option (List UInt8)}
    {serverName : Option String} (hpk : publicKey.isSome → 0x0033 ∉ exts.map Extension.type)
    (hsn : serverName.isSome → 0 ∉ exts.map Extension.type) :
    parseExtensions publicKey serverName (exts.flatMap Extension.encode) =
      (publicKey.or (exts.findSome? Extension.x25519Share),
        serverName.or (exts.findSome? Extension.hostName)) := by
  induction exts generalizing publicKey serverName with
  | nil => simp [parseExtensions]
  | cons e exts ih =>
    rw [List.map_cons, List.nodup_cons] at hnodup
    rw [List.flatMap_cons, List.length_append, Extension.encode, List.length_append, vec_length] at hlen
    have hdata : e.data.length < 65536 := by omega
    have hhost := extension_hostName e hdata
    have hshare := extension_x25519Share e hdata
    -- what is known already is not looked for again
    have hsn' : (if e.type = 0 then ((extensionList e.data).bind parseHostName).or serverName else serverName) =
        serverName.or e.hostName := by
      by_cases h0 : e.type = 0
      · rw [if_pos h0] at hhost
        cases serverName with
        | none => rw [if_pos h0, hhost, Option.or_none, Option.none_or]
        | some n => exact absurd (by simp [h0]) (hsn rfl)
      · rw [if_neg h0] at hhost
        rw [if_neg h0, ← hhost, Option.or_none]
    have hpk' : (if e.type = 0x0033 then ((extensionList e.data).bind parseKeyShares).or publicKey
        else publicKey) = publicKey.or e.x25519Share := by
      by_cases h33 : e.type = 0x0033
      · rw [if_pos h33] at hshare
        cases publicKey with
        | none => rw [if_pos h33, hshare, Option.or_none, Option.none_or]
        | some k => exact absurd (by simp [h33]) (hpk rfl)
      · rw [if_neg h33] at hshare
        rw [if_neg h33, ← hshare, Option.or_none]
    rw [List.flatMap_cons, parseExtensions_cons _ _ _ _ hdata, hsn', hpk', findSome?_cons_or, findSome?_cons_or,
      ← Option.or_assoc, ← Option.or_assoc]
    dsimp only
    by_cases hboth : (publicKey.or e.x25519Share).isSome && (serverName.or e.hostName).isSome
    · rw [if_pos hboth]
      obtain ⟨hk, hn⟩ := (Bool.and_eq_true _ _).mp hboth
      rw [Option.or_of_isSome hk, Option.or_of_isSome hn]
    · rw [if_neg hboth]
      refine ih hnodup.2 (by omega) (fun hk hmem => ?_) (fun hn hmem => ?_)
      · rw [Option.isSome_or, Bool.or_eq_true] at hk
        rcases hk with hk | hk
        · exact hpk hk (List.mem_cons_of_mem _ hmem)
        · exact hnodup.1 (Extension.type_of_x25519Share hk ▸ hmem)
      · rw [Option.isSome_or, Bool.or_eq_true] at hn
        rcases hn with hn | hn
        · exact hsn hn (List.mem_cons_of_mem _ hmem)
        · exact hnodup.1 (Extension.type_of_hostName hn ▸ hmem)

/-! ## The extensions, by offsets -/

theorem u16At_of_eq {buf p q : List UInt8} {n i : ℕ} (h : buf = p ++ u16Bytes n ++ q)
    (hi : i = p.length) (hn : n < 65536) : u16At buf i = n := by
  rw [h, hi, u16At_append, Nat.mod_eq_of_lt hn]

theorem slice_of_eq {buf p mid q : List UInt8} {i n : ℕ} (h : buf = p ++ mid ++ q)
    (hi : i = p.length) (hn : n = mid.length) : slice buf i n = mid := by
  rw [h, hi, hn, slice_append]

theorem byteAt_of_eq {buf p q : List UInt8} {b : UInt8} {i : ℕ} (h : buf = p ++ b :: q)
    (hi : i = p.length) : buf.getD i 0 = b := by
  simp [h, hi]

/-- `sniffNames` at an entry. -/
theorem sniffNames_entry {pre data rest post : List UInt8} {nameType : UInt8} (h : data.length < 65536) :
    sniffNames (pre ++ (nameType :: vec 2 data ++ rest) ++ post)
        (pre.length + (nameType :: vec 2 data ++ rest).length) pre.length =
      (if nameType = 0 then fromUtf8 data else none).or
        (sniffNames ((pre ++ nameType :: vec 2 data) ++ rest ++ post)
          ((pre ++ nameType :: vec 2 data).length + rest.length) (pre ++ nameType :: vec 2 data).length) := by
  have hbuf : pre ++ (nameType :: vec 2 data ++ rest) ++ post = (pre ++ nameType :: vec 2 data) ++ rest ++ post := by
    simp
  have htype : (pre ++ (nameType :: vec 2 data ++ rest) ++ post).getD pre.length 0 = nameType := by simp
  have hlen : u16At (pre ++ (nameType :: vec 2 data ++ rest) ++ post) (pre.length + 1) = data.length :=
    u16At_of_eq (p := pre ++ [nameType]) (q := data ++ rest ++ post) (by simp [vec_two]) (by simp) h
  have hname : slice (pre ++ (nameType :: vec 2 data ++ rest) ++ post) (pre.length + 3) data.length = data :=
    slice_of_eq (p := pre ++ nameType :: u16Bytes data.length) (q := rest ++ post) (by simp [vec_two])
      (by simp) rfl
  rw [sniffNames]
  simp only [htype, hlen, hname]
  simp only [List.length_append, List.length_cons, vec_length]
  rw [if_pos (by omega), if_neg (by omega), hbuf]
  congr 2 <;> omega

theorem sniffNames_encode (names : List ServerName) (h : (names.flatMap ServerName.encode).length < 65536)
    (pre post : List UInt8) :
    sniffNames (pre ++ names.flatMap ServerName.encode ++ post)
        (pre.length + (names.flatMap ServerName.encode).length) pre.length =
      (Extension.serverName names).hostName := by
  induction names generalizing pre with
  | nil =>
    rw [sniffNames, if_neg (by simp)]
    rfl
  | cons n names ih =>
    rw [List.flatMap_cons, List.length_append] at h
    rw [List.flatMap_cons]
    cases n with
    | hostName name =>
      simp only [ServerName.encode, List.length_cons, vec_length] at h ⊢
      rw [sniffNames_entry (by omega), if_pos rfl, fromUtf8_utf8, Option.some_or]
      rfl
    | other nameType data hne =>
      simp only [ServerName.encode, List.length_cons, vec_length] at h ⊢
      rw [sniffNames_entry (by omega), if_neg hne, Option.none_or, ih (by omega)]
      rfl

/-- `sniffExtensions` at an extension. -/
theorem sniffExtensions_entry {pre rest post : List UInt8} (e : Extension) (h : e.data.length < 65536) :
    sniffExtensions (pre ++ (e.encode ++ rest) ++ post) (pre.length + (e.encode ++ rest).length) pre.length =
      e.hostName.or (sniffExtensions ((pre ++ e.encode) ++ rest ++ post) ((pre ++ e.encode).length + rest.length)
        (pre ++ e.encode).length) := by
  have hbuf : pre ++ (e.encode ++ rest) ++ post = (pre ++ e.encode) ++ rest ++ post := by simp
  have htype : u16At (pre ++ (e.encode ++ rest) ++ post) pre.length = e.type.toNat :=
    u16At_of_eq (p := pre) (q := vec 2 e.data ++ rest ++ post) (by simp [Extension.encode, beBytes_two])
      rfl e.type.toNat_lt
  have hlen : u16At (pre ++ (e.encode ++ rest) ++ post) (pre.length + 2) = e.data.length :=
    u16At_of_eq (p := pre ++ u16Bytes e.type.toNat) (q := e.data ++ rest ++ post)
      (by simp [Extension.encode, beBytes_two, vec_two]) (by simp) h
  have hencode : e.encode.length = 4 + e.data.length := by
    simp [Extension.encode]
    omega
  have hnext : pre.length + 4 + e.data.length = (pre ++ e.encode).length := by
    rw [List.length_append, hencode]
    omega
  have hend : pre.length + (e.encode ++ rest).length = (pre ++ e.encode).length + rest.length := by
    simp [Nat.add_assoc]
  rw [sniffExtensions]
  simp only [htype, hlen]
  rw [hend, hnext, if_pos (by rw [← hnext]; omega), if_neg (by omega)]
  cases e with
  | serverName names =>
    -- the list inside is walked within the bounds of the extension
    generalize hL : names.flatMap ServerName.encode = list
    have hdata : (Extension.serverName names).data = vec 2 list := by rw [← hL]; rfl
    have hlist : u16At (pre ++ ((Extension.serverName names).encode ++ rest) ++ post) (pre.length + 4) =
        list.length := by
      refine u16At_of_eq (p := pre ++ u16Bytes (Extension.serverName names).type.toNat ++
        u16Bytes (vec 2 list).length) (q := list ++ rest ++ post) ?_ (by simp) ?_
      · simp [Extension.encode, beBytes_two, vec_two, hdata]
      · rw [hdata, vec_length] at h
        omega
    have hnames := sniffNames_encode names (by rw [hdata, vec_length] at h; rw [hL]; omega)
      (pre ++ u16Bytes (Extension.serverName names).type.toNat ++ u16Bytes (vec 2 list).length ++
        u16Bytes list.length) (rest ++ post)
    have hpayload : pre ++ u16Bytes (Extension.serverName names).type.toNat ++ u16Bytes (vec 2 list).length ++
        u16Bytes list.length ++ list ++ (rest ++ post) =
        pre ++ ((Extension.serverName names).encode ++ rest) ++ post := by
      simp [Extension.encode, beBytes_two, vec_two, hdata]
    rw [hL, hpayload] at hnames
    rw [hdata, vec_length] at hnext
    rw [if_pos (by rfl), hdata, vec_length, hlist, if_neg (by omega), ← hbuf]
    refine congrArg₂ Option.or ?_ rfl
    rw [← hnames]
    refine congrArg₂ (sniffNames _) ?_ ?_
    · rw [← hnext]
      simp
      omega
    · simp
  | keyShare shares =>
    have hne' : (Extension.keyShare shares).type.toNat ≠ 0 := by
      change (0x0033 : UInt16).toNat ≠ 0
      decide
    rw [if_neg hne', hbuf]
    rfl
  | other type data hne =>
    have hne' : (Extension.other type data hne).type.toNat ≠ 0 := fun hc => hne.1 (UInt16.toNat_inj.mp hc)
    rw [if_neg hne', hbuf]
    rfl

theorem sniffExtensions_encode (exts : List Extension)
    (h : (exts.flatMap Extension.encode).length < 65536) (pre post : List UInt8) :
    sniffExtensions (pre ++ exts.flatMap Extension.encode ++ post)
        (pre.length + (exts.flatMap Extension.encode).length) pre.length =
      exts.findSome? Extension.hostName := by
  induction exts generalizing pre with
  | nil =>
    rw [sniffExtensions, if_neg (by simp)]
    rfl
  | cons e exts ih =>
    rw [List.flatMap_cons, List.length_append] at h
    have hencode : e.encode.length = 2 + (2 + e.data.length) := by simp [Extension.encode]
    rw [List.flatMap_cons, sniffExtensions_entry e (by omega), ih (by omega), findSome?_cons_or]

/-! ## The message -/

theorem parseAfterSessionId_encode (h : ClientHello) :
    parseAfterSessionId h.afterSessionId = .ok (h.x25519Share, h.hostName) := by
  have hc := h.cipherSuites_length
  have hclt := h.cipherSuites_lt
  have hm := h.legacyCompressionMethods_lt
  have he := h.extensions_lt
  have hm' : (UInt8.ofNat h.legacyCompressionMethods.length).toNat = h.legacyCompressionMethods.length := by
    rw [UInt8.toNat_ofNat']
    omega
  rw [ClientHello.afterSessionId]
  generalize (h.cipherSuites.flatMap fun c => beBytes 2 c.toNat) = suites at hc ⊢
  have hsuites := u16_ofNat suites.length
  rw [Nat.mod_eq_of_lt (by omega)] at hsuites
  have hexts := u16_ofNat (h.extensions.flatMap Extension.encode).length
  rw [Nat.mod_eq_of_lt (by omega)] at hexts
  simp only [vec_two, vec_one, u16Bytes, List.cons_append, List.nil_append, parseAfterSessionId, hsuites,
    List.drop_left, hm', hexts, List.take_length]
  rw [if_neg (by simp), if_neg (by simp), if_neg (by simp)]
  rw [parseExtensions_encode h.distinct he (by simp) (by simp)]
  simp [ClientHello.x25519Share, ClientHello.hostName]

theorem parseClientHello_encode (h : ClientHello) : parseClientHello h.encode =
    .ok (some ⟨h.legacySessionId, 39, h.random.toList, h.x25519Share, h.hostName⟩) := by
  have hsid := h.legacySessionId_le
  refine parseClientHello_iff.mpr ⟨1 :: beBytes 3 h.body.length ++ ([3, 3] ++ h.random.toList),
    UInt8.ofNat h.legacySessionId.length, h.afterSessionId, ?_, ?_, rfl, ?_, parseAfterSessionId_encode h, rfl, ?_⟩
  · simp [ClientHello.encode, ClientHello.body, vec, beBytes]
  · simp
  · rw [UInt8.toNat_ofNat']
    exact Nat.mod_eq_of_lt (by omega)
  · simp [beBytes]

/-- The message with its lengths spelled out. -/
theorem encode_eq (h : ClientHello) : ∃ head suites, head.length = 38 ∧ head.getD 0 0 = 1 ∧
    (head.getD 1 0).toNat * 65536 + u16At head 2 = h.body.length ∧ suites.length < 65536 ∧
    h.encode = head ++ UInt8.ofNat h.legacySessionId.length :: (h.legacySessionId ++
      (u16Bytes suites.length ++ (suites ++ UInt8.ofNat h.legacyCompressionMethods.length ::
        (h.legacyCompressionMethods ++ (u16Bytes (h.extensions.flatMap Extension.encode).length ++
          h.extensions.flatMap Extension.encode))))) := by
  have hbody := h.body_lt
  have hc := h.cipherSuites_length
  have hclt := h.cipherSuites_lt
  have h3 : vec 3 h.body = beBytes 3 h.body.length ++ h.body := rfl
  refine ⟨1 :: beBytes 3 h.body.length ++ ([3, 3] ++ h.random.toList),
    h.cipherSuites.flatMap fun c => beBytes 2 c.toNat, by simp, rfl, ?_, by omega, ?_⟩
  · have hlow := u16_ofNat h.body.length
    simp only [beBytes, u16At, List.cons_append, List.getD_cons_succ, List.getD_cons_zero, Nat.pow_one, Nat.pow_zero,
      Nat.div_one, hlow, UInt8.toNat_ofNat']
    omega
  · rw [ClientHello.encode, h3]
    simp [ClientHello.body, ClientHello.afterSessionId, vec_one, vec_two]

/-- **The second parser finds the host name too.** -/
theorem sniffPayload_encode (h : ClientHello) : sniffPayload h.encode = h.hostName := by
  have hsid := h.legacySessionId_le
  have hm := h.legacyCompressionMethods_lt
  have he := h.extensions_lt
  have hbody : h.encode.length = 4 + h.body.length := by
    simp [ClientHello.encode]
    omega
  obtain ⟨head, suites, hhead, htype, hlen, hsuites, hbytes⟩ := encode_eq h
  rw [ClientHello.hostName]
  generalize h.encode = p at hbody hbytes ⊢
  generalize hexts : h.extensions.flatMap Extension.encode = exts at he hbytes
  generalize h.legacySessionId = sid at hsid hbytes
  generalize h.legacyCompressionMethods = comp at hm hbytes
  have hplen : p.length = 44 + sid.length + suites.length + comp.length + exts.length := by
    simp [hbytes, hhead]
    omega
  have hsidLen : (UInt8.ofNat sid.length).toNat = sid.length := by
    rw [UInt8.toNat_ofNat']
    exact Nat.mod_eq_of_lt (by omega)
  have hcompLen : (UInt8.ofNat comp.length).toNat = comp.length := by
    rw [UInt8.toNat_ofNat']
    exact Nat.mod_eq_of_lt (by omega)
  -- what is read at each offset
  have h0 : ∀ i < 38, p.getD i 0 = head.getD i 0 := fun i hi => by
    rw [hbytes, List.getD_append _ _ _ _ (by omega)]
  have hhello : (p.getD 1 0).toNat * 65536 + u16At p 2 = h.body.length := by
    rw [← hlen, u16At, u16At, h0 1 (by omega), h0 2 (by omega), h0 3 (by omega)]
  have h38 : p.getD 38 0 = UInt8.ofNat sid.length := byteAt_of_eq hbytes hhead.symm
  have hsuitesAt : u16At p (38 + (1 + sid.length)) = suites.length :=
    u16At_of_eq (p := head ++ UInt8.ofNat sid.length :: sid) (q := suites ++ UInt8.ofNat comp.length ::
      (comp ++ (u16Bytes exts.length ++ exts))) (by simp [hbytes]) (by simp [hhead]; omega) hsuites
  have hcompAt : p.getD (38 + (1 + sid.length) + (2 + suites.length)) 0 = UInt8.ofNat comp.length :=
    byteAt_of_eq (p := head ++ UInt8.ofNat sid.length :: (sid ++ u16Bytes suites.length ++ suites))
      (q := comp ++ (u16Bytes exts.length ++ exts)) (by simp [hbytes]) (by simp [hhead]; omega)
  have hpre : (head ++ UInt8.ofNat sid.length :: (sid ++ u16Bytes suites.length ++ suites ++
      UInt8.ofNat comp.length :: comp)).length = 38 + (1 + sid.length) + (2 + suites.length) + (1 + comp.length) := by
    simp [hhead]
    omega
  generalize hpreBytes : head ++ UInt8.ofNat sid.length :: (sid ++ u16Bytes suites.length ++ suites ++
      UInt8.ofNat comp.length :: comp) = pre at hpre
  have hpbytes : p = pre ++ u16Bytes exts.length ++ exts := by simp [← hpreBytes, hbytes]
  have hextsAt : u16At p (38 + (1 + sid.length) + (2 + suites.length) + (1 + comp.length)) = exts.length :=
    u16At_of_eq (q := exts) hpbytes hpre.symm (by omega)
  have hloop := sniffExtensions_encode h.extensions (by rw [hexts]; omega)
    (pre ++ u16Bytes exts.length) []
  rw [hexts, List.append_nil, ← hpbytes, List.length_append, u16Bytes_length, hpre] at hloop
  rw [sniffPayload, h0 0 (by omega), htype]
  simp only [hhello, h38, hsidLen, hsuitesAt, hcompAt, hcompLen, hextsAt]
  rw [if_neg (by omega), if_neg (by simp), if_neg (by omega), if_neg (by omega), if_neg (by omega),
    if_neg (by omega), if_neg (by omega), if_neg (by omega)]
  exact hloop

/-- **Both parsers agree with the grammar**, and so with each other, on every well-formed message. -/
theorem parse_wellFormed (h : ClientHello) :
    parseClientHello h.encode =
        .ok (some ⟨h.legacySessionId, 39, h.random.toList, h.x25519Share, h.hostName⟩) ∧
      (h.encode.length < 2 ^ 16 → ∀ version rest,
        parseSniFromBytes (record version h.encode ++ rest) = h.hostName) := by
  refine ⟨parseClientHello_encode h, fun hlen version rest => ?_⟩
  have hbytes : record version h.encode ++ rest = (22 :: version.toList) ++ u16Bytes h.encode.length ++
      (h.encode ++ rest) := by simp [record, vec_two]
  have hlenAt : u16At (record version h.encode ++ rest) 3 = h.encode.length :=
    u16At_of_eq hbytes (by simp) hlen
  have hslice : slice (record version h.encode ++ rest) 5 h.encode.length = h.encode :=
    slice_of_eq (p := (22 :: version.toList) ++ u16Bytes h.encode.length) (q := rest)
      (by simp [hbytes]) (by simp) rfl
  have htype : (record version h.encode ++ rest).getD 0 0 = 22 := rfl
  have htotal : (record version h.encode ++ rest).length = 5 + h.encode.length + rest.length := by
    simp [record]
    omega
  rw [parseSniFromBytes, htype, hlenAt, htotal]
  simp only [hslice]
  rw [if_neg (by omega), if_neg (by decide), if_neg (by omega)]
  exact sniffPayload_encode h

/-- A message with reserved values, an unknown entry before the host name, and a share of another group
before the one for X25519. -/
def reservedHello : ClientHello where
  random := Vector.replicate 32 1
  legacySessionId := List.replicate 32 2
  legacySessionId_le := by decide
  cipherSuites := [0x0a0a, 0x1301]
  cipherSuites_lt := by decide
  legacyCompressionMethods := [0]
  legacyCompressionMethods_lt := by decide
  extensions := [.other 0xbaba [] (by decide),
    .keyShare [⟨0x3a3a, [0], by decide⟩, ⟨0x001d, List.replicate 32 7, by decide⟩],
    .serverName [.other 1 [9] (by decide), .hostName "github.com"], .other 0x5a5a [0] (by decide)]
  distinct := by decide
  extensions_lt := by decide

theorem reservedHello_sniffed :
    parseSniFromBytes (record #v[3, 1] reservedHello.encode ++ []) = some "github.com" :=
  (parse_wellFormed reservedHello).2 (by decide +kernel) #v[3, 1] []

end RXCore
