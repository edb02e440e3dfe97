import RXCore.Api.Links
import RXCore.Net.Text
import RXCore.Lib.Form

/-!
# Links that the desktop client imports

The server writes a link as form data; the client takes it apart with a splitter and a percent decoder of its
own.

* `toVlessUri`; `decodePercent`, `parseVlessLink`;
* `decodePercent_byteSerialize`: the decoder reads every byte as a character, and a plus sign as itself;
* `Plain`, with `decodePercent_iff`: the texts that come back as they were;
* **`link_roundtrip_iff`**: the links that the client reads as the server meant them;
* **`spaced_name_altered`**: a name with a space.
-/

set_option autoImplicit false

namespace RXCore

open Encoding Form

/-! ## The server -/

/-- `RealityClientParameters::to_vless_uri`. -/
def RealityClientParameters.toVlessUri (X : Crates) (p : RealityClientParameters) (nameOrEmail : String) : String :=
  let serializer := appendPair [] (utf8 "security") (utf8 "reality")
  let serializer := appendPair serializer (utf8 "sni") (utf8 p.serverName)
  let serializer := appendPair serializer (utf8 "fp") (utf8 p.fingerprint)
  let serializer := appendPair serializer (utf8 "pbk") (utf8 p.publicKey)
  let serializer := appendPair serializer (utf8 "sid") (utf8 p.shortId)
  let serializer := appendPair serializer (utf8 "type") (utf8 "tcp")
  let queryStr := appendPair serializer (utf8 "encryption") (utf8 "none")
  let encodedEmail := byteSerialize (utf8 nameOrEmail)
  String.ofList ("vless://".toList ++ (X.uuidToString p.uuid).toList ++ '@' :: p.serverAddress.toList ++
    ':' :: Nat.toDigits 10 p.serverPort.toNat ++ '?' :: queryStr ++ '#' :: encodedEmail)

/-! ## The client -/

structure ProxyConfig where
  id : String
  name : String
  server : String
  port : UInt16
  uuid : String
  sni : String
  allowInsecure : Option Bool

/-- `u8::from_str_radix(.., 16)` of two characters: two digits, or one behind a plus sign. -/
def hexByte (h1 h2 : Char) : Option ℕ :=
  match toDigit 16 h1, toDigit 16 h2 with
  | some a, some b => some (a * 16 + b)
  | none, some b => if h1 = '+' then some b else none
  | _, none => none

/-- `decode_percent`. A character behind a percent sign that is longer than one byte makes `hex` too long: one of
two bytes is taken as it is, a longer one is looked at again. -/
def decodePercent : List Char → List Char
  | [] => []
  | '%' :: [] => ['%']
  | '%' :: h1 :: r =>
    if h1.utf8Size = 1 then
      match r with
      | [] => ['%', h1]
      | h2 :: r' =>
        if h2.utf8Size = 1 then
          match hexByte h1 h2 with
          | some byte => Char.ofNat byte :: decodePercent r'
          | none => '%' :: h1 :: h2 :: decodePercent r'
        else '%' :: h1 :: h2 :: decodePercent (h2 :: r')
    else if h1.utf8Size = 2 then '%' :: h1 :: decodePercent r
    else '%' :: h1 :: decodePercent (h1 :: r)
  | c :: r => c :: decodePercent r
termination_by s => s.length

/-- The `sni` of a query: that of the last pair with this name. -/
def querySni (query : List Char) : List Char :=
  (query.splitOn '&').foldl (fun sni param => match param.splitOn '=' with
    | [name, value] => if name = "sni".toList then decodePercent value else sni
    | _ => sni) []

/-- `parse_vless_link`; `id` is what `Uuid::new_v4` draws. -/
def parseVlessLink (id : String) (link : String) : Option ProxyConfig :=
  if startsWith link "vless://" = false then none
  else
    let content := link.toList.drop "vless://".toList.length
    let parts := content.splitOn '#'
    let mainPart := parts.headD []
    let name := match parts with
      | _ :: fragment :: _ => decodePercent fragment
      | _ => "VLESS Config".toList
    let mainParts := mainPart.splitOn '?'
    let addressPart := mainParts.headD []
    match addressPart.splitOn '@' with
    | [uuid, hostPort] => match hostPort.splitOn ':' with
      | [server, port] => match parseU16 (String.ofList port) with
        | none => none
        | some port =>
          let sni := match mainParts with
            | _ :: query :: _ => querySni query
            | _ => []
          let sni := if sni = [] then server else sni
          some ⟨id, String.ofList name, String.ofList server, port, String.ofList uuid, String.ofList sni,
            some false⟩
      | _ => none
    | _ => none

/-! ## The percent decoder -/

/-- The character that the client makes of a byte of the server's. -/
def latin (b : UInt8) : Char := if b = 0x20 then '+' else Char.ofNat b.toNat

theorem decodePercent_cons {c : Char} (hc : c ≠ '%') (r : List Char) :
    decodePercent (c :: r) = c :: decodePercent r := by
  rw [decodePercent]
  · exact fun h => absurd h hc
  · exact fun _ _ h => absurd h hc

theorem decodePercent_percent {h1 h2 : Char} {byte : ℕ} (hs1 : h1.utf8Size = 1) (hs2 : h2.utf8Size = 1)
    (hbyte : hexByte h1 h2 = some byte) (r : List Char) :
    decodePercent ('%' :: h1 :: h2 :: r) = Char.ofNat byte :: decodePercent r := by
  rw [decodePercent, if_pos hs1, if_pos hs2, hbyte]

theorem toDigit_hexDigit : ∀ n < 16, (hexDigit n).utf8Size = 1 ∧ toDigit 16 (hexDigit n) = some n := by decide

theorem decodePercent_serializeByte (b : UInt8) (r : List Char) :
    decodePercent (serializeByte b ++ r) = latin b :: decodePercent r := by
  have hb := b.toNat_lt
  unfold serializeByte latin
  split_ifs with hkept hspace hspace
  · subst hspace
    cases hkept
  · refine decodePercent_cons (fun hpercent => ?_) r
    have hcode := congrArg Char.toNat hpercent
    rw [toNat_ofNat] at hcode
    obtain rfl : b = 37 := UInt8.toNat_inj.mp hcode
    cases hkept
  · exact decodePercent_cons (by decide) r
  · obtain ⟨hs1, hd1⟩ := toDigit_hexDigit (b.toNat / 16) (by omega)
    obtain ⟨hs2, hd2⟩ := toDigit_hexDigit (b.toNat % 16) (by omega)
    have hbyte : hexByte (hexDigit (b.toNat / 16)) (hexDigit (b.toNat % 16)) = some b.toNat := by
      rw [hexByte, hd1, hd2]
      exact congrArg some (by omega)
    exact decodePercent_percent hs1 hs2 hbyte r

/-- **The decoder reads byte by byte** what was written from the bytes of a text. -/
theorem decodePercent_byteSerialize (bs : List UInt8) : decodePercent (byteSerialize bs) = bs.map latin := by
  induction bs with
  | nil => rw [byteSerialize, List.flatMap_nil, decodePercent, List.map_nil]
  | cons b bs ih =>
    rw [byteSerialize, List.flatMap_cons, decodePercent_serializeByte, List.map_cons]
    exact congrArg _ ih

/-- A text of ASCII characters without a space. -/
def Plain (s : String) : Prop := ∀ c ∈ s.toList, c.toNat < 128 ∧ c ≠ ' '

theorem utf8Size_eq_one {c : Char} : c.utf8Size = 1 ↔ c.toNat < 128 := by
  rw [Char.utf8Size_eq_one_iff, UInt32.le_iff_toNat_le]
  exact Nat.lt_succ_iff.symm

theorem latin_eq_iff {c : Char} (hc : c.toNat < 128) : latin c.val.toUInt8 = c ↔ c ≠ ' ' := by
  have hcode : c.val.toUInt8.toNat = c.toNat := by
    rw [UInt32.toNat_toUInt8]
    exact Nat.mod_eq_of_lt (show c.toNat < 256 by omega)
  unfold latin
  by_cases hspace : c = ' '
  · subst hspace
    decide
  · have hne : c.val.toUInt8 ≠ 0x20 := by
      intro h
      rw [h] at hcode
      exact hspace (Char.toNat_inj.mp hcode.symm)
    rw [if_neg hne, hcode, Char.ofNat_toNat]
    exact iff_of_true rfl hspace

/-- **The characters that come back as they were.** -/
theorem map_latin_iff (cs : List Char) :
    (cs.flatMap String.utf8EncodeChar).map latin = cs ↔ ∀ c ∈ cs, c.toNat < 128 ∧ c ≠ ' ' := by
  induction cs with
  | nil => simp
  | cons c cs ih =>
    rw [List.flatMap_cons, List.map_append, List.forall_mem_cons, ← ih]
    have hle : ∀ ds : List Char, ds.length ≤ (ds.flatMap String.utf8EncodeChar).length := by
      intro ds
      induction ds with
      | nil => simp
      | cons d ds ihd =>
        have hpos := d.utf8Size_pos
        simp only [List.flatMap_cons, List.length_append, String.length_utf8EncodeChar, List.length_cons]
        omega
    constructor
    · intro h
      -- a longer encoding would make the whole longer
      have hlen := congrArg List.length h
      have hpos := c.utf8Size_pos
      have hcs := hle cs
      simp only [List.length_append, List.length_map, String.length_utf8EncodeChar, List.length_cons] at hlen
      have hsize : c.utf8Size = 1 := by omega
      rw [String.utf8EncodeChar_eq_singleton hsize, List.map_singleton, List.singleton_append] at h
      obtain ⟨hhead, htail⟩ := List.cons.inj h
      have hascii := utf8Size_eq_one.mp hsize
      exact ⟨⟨hascii, (latin_eq_iff hascii).mp hhead⟩, htail⟩
    · rintro ⟨⟨hascii, hspace⟩, htail⟩
      rw [String.utf8EncodeChar_eq_singleton (utf8Size_eq_one.mpr hascii), List.map_singleton, htail,
        (latin_eq_iff hascii).mpr hspace]
      rfl

/-- **The texts that come back as they were.** -/
theorem decodePercent_iff (s : String) : decodePercent (byteSerialize (utf8 s)) = s.toList ↔ Plain s := by
  rw [decodePercent_byteSerialize, utf8_eq_flatMap]
  exact map_latin_iff s.toList

/-! ## The link -/

/-- One pair of a query. -/
def pairText (pair : List UInt8 × List UInt8) : List Char := byteSerialize pair.1 ++ '=' :: byteSerialize pair.2

theorem splitOn_pairText (pair : List UInt8 × List UInt8) :
    (pairText pair).splitOn '=' = [byteSerialize pair.1, byteSerialize pair.2] := by
  have hfree : ∀ bs, '=' ∉ byteSerialize bs := fun bs h => unreserved_of_mem _ h (by decide)
  rw [pairText, List.splitOn_append_cons_self_of_not_mem (hfree _), List.splitOn_eq_singleton (hfree _)]

/-- A query that is written from its pairs is read pair by pair. -/
theorem querySni_pairs {pairs : List (List UInt8 × List UInt8)} (hne : pairs ≠ []) :
    querySni (['&'].intercalate (pairs.map pairText)) = pairs.foldl (fun sni pair =>
      if byteSerialize pair.1 = "sni".toList then decodePercent (byteSerialize pair.2) else sni) [] := by
  have hfree : ∀ text ∈ pairs.map pairText, '&' ∉ text := by
    intro text htext hamp
    obtain ⟨pair, -, rfl⟩ := List.mem_map.mp htext
    rcases List.mem_append.mp hamp with hamp | hamp
    · exact unreserved_of_mem _ hamp (by decide)
    · rcases List.mem_cons.mp hamp with hamp | hamp
      · exact absurd hamp (by decide)
      · exact unreserved_of_mem _ hamp (by decide)
  rw [querySni, List.splitOn_intercalate '&' hfree (by simpa using hne), List.foldl_map]
  simp only [splitOn_pairText]

/-- The pairs of a link's query. -/
def RealityClientParameters.queryPairs (p : RealityClientParameters) : List (List UInt8 × List UInt8) :=
  [(utf8 "security", utf8 "reality"), (utf8 "sni", utf8 p.serverName), (utf8 "fp", utf8 p.fingerprint),
    (utf8 "pbk", utf8 p.publicKey), (utf8 "sid", utf8 p.shortId), (utf8 "type", utf8 "tcp"),
    (utf8 "encryption", utf8 "none")]

/-- The query of a link. -/
def RealityClientParameters.queryText (p : RealityClientParameters) : List Char :=
  ['&'].intercalate (p.queryPairs.map pairText)

theorem querySni_queryText (p : RealityClientParameters) :
    querySni p.queryText = decodePercent (byteSerialize (utf8 p.serverName)) := by
  have hsni : byteSerialize (utf8 "sni") = "sni".toList := by decide
  have hothers : ∀ name ∈ ["security", "fp", "pbk", "sid", "type", "encryption"],
      byteSerialize (utf8 name) ≠ "sni".toList := by decide
  simp only [List.forall_mem_cons] at hothers
  obtain ⟨h1, h2, h3, h4, h5, h6, -⟩ := hothers
  rw [RealityClientParameters.queryText, querySni_pairs (by simp [RealityClientParameters.queryPairs])]
  simp only [RealityClientParameters.queryPairs, List.foldl_cons, List.foldl_nil, if_pos hsni, if_neg h1, if_neg h2,
    if_neg h3, if_neg h4, if_neg h5, if_neg h6]

/-- A query holds nothing that takes a link apart. -/
theorem notMem_queryText (p : RealityClientParameters) : '#' ∉ p.queryText ∧ '?' ∉ p.queryText := by
  have hsharp : ∀ bs, '#' ∉ byteSerialize bs := fun bs h => unreserved_of_mem _ h (by decide)
  have hquestion : ∀ bs, '?' ∉ byteSerialize bs := fun bs h => unreserved_of_mem _ h (by decide)
  constructor <;>
    simp [RealityClientParameters.queryText, RealityClientParameters.queryPairs, pairText,
      List.intercalate_cons_cons, hsharp, hquestion]

/-- The host of a link and its port. -/
def RealityClientParameters.hostPort (p : RealityClientParameters) : List Char :=
  p.serverAddress.toList ++ ':' :: Nat.toDigits 10 p.serverPort.toNat

/-- What stands before the query of a link. -/
def RealityClientParameters.addressText (X : Crates) (p : RealityClientParameters) : List Char :=
  (X.uuidToString p.uuid).toList ++ '@' :: p.hostPort

theorem appendPair_eq (target : List Char) (name value : List UInt8) : appendPair target name value =
    if target = [] then pairText (name, value) else target ++ '&' :: pairText (name, value) := by
  unfold appendPair
  split_ifs with h
  · rfl
  · simp [pairText]

theorem pairText_ne_nil (pair : List UInt8 × List UInt8) : pairText pair ≠ [] := by simp [pairText]

theorem append_ne_nil (target : List Char) (c : Char) (rest : List Char) : ¬ target ++ c :: rest = [] := by simp

/-- The parts of a link. -/
theorem RealityClientParameters.toVlessUri_eq (X : Crates) (p : RealityClientParameters) (name : String) :
    (p.toVlessUri X name).toList =
      "vless://".toList ++ ((p.addressText X ++ '?' :: p.queryText) ++ '#' :: byteSerialize (utf8 name)) := by
  unfold toVlessUri
  simp only [String.toList_ofList, appendPair_eq, append_ne_nil, pairText_ne_nil, if_true, if_false]
  simp only [addressText, hostPort, queryText, queryPairs, List.map_cons, List.map_nil,
    List.intercalate_cons_cons, List.intercalate_singleton, List.append_assoc, List.cons_append, List.nil_append]

/-- The characters that take a link apart. -/
def separators : List Char := ['#', '?', '@', ':']

/-- `Uuid::to_string` writes hyphens and lower-case hexadecimal digits. -/
def Crates.WritesUuids (X : Crates) : Prop :=
  ∀ u, ∀ c ∈ (X.uuidToString u).toList, c = '-' ∨ ∃ n < 16, c = Nat.digitChar n

theorem notMem_separators_of_digit : ∀ n < 16, Nat.digitChar n ∉ separators := by decide

theorem digit_of_mem (port : UInt16) : ∀ c ∈ Nat.toDigits 10 port.toNat, (toDigit 10 c).isSome :=
  isSome_of_mem_toDigits (by decide) (by decide)

theorem toDigit_separator : ∀ c ∈ separators, toDigit 10 c = none := by simp [separators, toDigit]

/-- A port is read as it was written. -/
theorem parseU16_toDigits (port : UInt16) : parseU16 (String.ofList (Nat.toDigits 10 port.toNat)) = some port := by
  have hdigits := digit_of_mem port
  have hplus : ∀ r, Nat.toDigits 10 port.toNat ≠ '+' :: r := by
    intro r h
    have := hdigits '+' (h ▸ List.mem_cons_self)
    revert this
    decide
  have hlt := port.toNat_lt
  rw [parseU16, parseUnsigned]
  simp only [String.toList_ofList]
  rw [foldl_toDigits (by decide) (by decide),
    if_pos ⟨Nat.toDigits_ne_nil, List.all_eq_true.mpr hdigits, by omega⟩, Option.map_some, UInt16.ofNat_toNat]

section

variable {X : Crates} {p : RealityClientParameters} {id name link : String} {cfg : ProxyConfig}

theorem headD_mem_splitOn (sep : Char) (cs : List Char) : (cs.splitOn sep).headD [] ∈ cs.splitOn sep := by
  obtain ⟨first, others, h⟩ := List.exists_cons_of_ne_nil (List.splitOn_ne_nil sep cs)
  rw [h]
  exact List.mem_cons_self

/-- No separator is in the server that the client reads. -/
theorem server_separators (h : parseVlessLink id link = some cfg) : ∀ c ∈ separators, c ∉ cfg.server.toList := by
  unfold parseVlessLink at h
  split_ifs at h
  extract_lets content parts mainPart cname mainParts addressPart at h
  split at h
  · next uuid hostPort haddress =>
    split at h
    · next server port hhost =>
      split at h
      · cases h
      · obtain rfl := Option.some.inj h
        rw [String.toList_ofList]
        have hmain := splitOn_pieces '#' content mainPart (headD_mem_splitOn '#' content)
        have haddr := splitOn_pieces '?' mainPart addressPart (headD_mem_splitOn '?' mainPart)
        have hport := splitOn_pieces '@' addressPart hostPort (by simp [haddress])
        have hserver := splitOn_pieces ':' hostPort server (by simp [hhost])
        simp only [separators, List.forall_mem_cons]
        refine ⟨fun hc => hmain.1 (haddr.2 _ (hport.2 _ (hserver.2 _ hc))),
          fun hc => haddr.1 (hport.2 _ (hserver.2 _ hc)), fun hc => hport.1 (hserver.2 _ hc), hserver.1, nofun⟩
    · cases h
  · cases h

/-- **What the client reads** of a link to a host without separators. -/
theorem parse_toVlessUri (hX : X.WritesUuids) (hhost : ∀ c ∈ separators, c ∉ p.serverAddress.toList) :
    parseVlessLink id (p.toVlessUri X name) = some ⟨id, String.ofList (decodePercent (byteSerialize (utf8 name))),
      p.serverAddress, p.serverPort, X.uuidToString p.uuid,
      if decodePercent (byteSerialize (utf8 p.serverName)) = [] then p.serverAddress
        else String.ofList (decodePercent (byteSerialize (utf8 p.serverName))), some false⟩ := by
  have hfragment : '#' ∉ byteSerialize (utf8 name) := fun h => unreserved_of_mem _ h (by decide)
  have hdigit : ∀ c ∈ separators, c ∉ Nat.toDigits 10 p.serverPort.toNat := by
    intro c hc hmem
    have hsome := digit_of_mem p.serverPort c hmem
    rw [toDigit_separator c hc] at hsome
    cases hsome
  have huuid : ∀ c ∈ separators, c ∉ (X.uuidToString p.uuid).toList := by
    intro c hc hmem
    rcases hX p.uuid c hmem with rfl | ⟨n, hn, rfl⟩
    · revert hc
      decide
    · exact notMem_separators_of_digit n hn hc
  obtain ⟨hu1, hu2, hu3, -⟩ := by simpa only [separators, List.forall_mem_cons] using huuid
  obtain ⟨hh1, hh2, hh3, hh4, -⟩ := by simpa only [separators, List.forall_mem_cons] using hhost
  obtain ⟨hd1, hd2, hd3, hd4, -⟩ := by simpa only [separators, List.forall_mem_cons] using hdigit
  obtain ⟨hq1, hq2⟩ := notMem_queryText p
  have hstart : startsWith (p.toVlessUri X name) "vless://" = true := by
    rw [startsWith, p.toVlessUri_eq]
    exact List.isPrefixOf_iff_prefix.mpr (List.prefix_append _ _)
  unfold parseVlessLink
  rw [if_neg (by rw [hstart]; decide), p.toVlessUri_eq, List.drop_left]
  have hsharp : '#' ∉ p.addressText X ++ '?' :: p.queryText := by
    simp [RealityClientParameters.addressText, RealityClientParameters.hostPort, *]
  have hquestion : '?' ∉ p.addressText X := by
    simp [RealityClientParameters.addressText, RealityClientParameters.hostPort, *]
  have hat : '@' ∉ p.hostPort := by
    simp [RealityClientParameters.hostPort, *]
  simp only [List.splitOn_append_cons_self_of_not_mem hsharp, List.splitOn_eq_singleton hfragment, List.headD_cons,
    List.splitOn_append_cons_self_of_not_mem hquestion, List.splitOn_eq_singleton hq2]
  simp only [RealityClientParameters.addressText, List.splitOn_append_cons_self_of_not_mem hu3, List.splitOn_eq_singleton hat]
  simp only [RealityClientParameters.hostPort, List.splitOn_append_cons_self_of_not_mem hh4, List.splitOn_eq_singleton hd4,
    parseU16_toDigits, String.ofList_toList, querySni_queryText]
  split_ifs <;> simp

/-- A configuration says what a link was made to say. -/
structure ProxyConfig.Means (X : Crates) (p : RealityClientParameters) (name : String) (cfg : ProxyConfig) : Prop where
  server : cfg.server = p.serverAddress
  port : cfg.port = p.serverPort
  uuid : cfg.uuid = X.uuidToString p.uuid
  sni : cfg.sni = p.serverName
  name : cfg.name = name

/-- What a link has to meet: its host holds no separator, its SNI is there unless the host is empty too, and the SNI
and the name are ASCII without spaces. -/
structure RealityClientParameters.Portable (p : RealityClientParameters) (name : String) : Prop where
  host : ∀ c ∈ separators, c ∉ p.serverAddress.toList
  sni : p.serverName ≠ "" ∨ p.serverAddress = ""
  sniPlain : Plain p.serverName
  name : Plain name

theorem ofList_decode_iff (s : String) : String.ofList (decodePercent (byteSerialize (utf8 s))) = s ↔ Plain s := by
  rw [← decodePercent_iff, ← String.toList_inj, String.toList_ofList]

theorem decode_eq_nil_iff (s : String) : decodePercent (byteSerialize (utf8 s)) = [] ↔ s = "" := by
  rw [decodePercent_byteSerialize, List.map_eq_nil_iff, utf8_eq_flatMap]
  constructor
  · intro h
    cases hs : s.toList with
    | nil => exact String.toList_inj.mp hs
    | cons c cs =>
      have hpos := c.utf8Size_pos
      have hlen := congrArg List.length h
      simp only [hs, List.flatMap_cons, List.length_append, String.length_utf8EncodeChar, List.length_nil] at hlen
      omega
  · rintro rfl
    rfl

/-- **The links that the client reads as the server meant them.** -/
theorem link_roundtrip_iff (hX : X.WritesUuids) (p : RealityClientParameters) (name id : String) :
    (∃ cfg, parseVlessLink id (p.toVlessUri X name) = some cfg ∧ cfg.Means X p name) ↔ p.Portable name := by
  constructor
  · rintro ⟨cfg, hcfg, hmeans⟩
    have hhost : ∀ c ∈ separators, c ∉ p.serverAddress.toList := hmeans.server ▸ server_separators hcfg
    rw [parse_toVlessUri hX hhost] at hcfg
    obtain rfl := Option.some.inj hcfg
    have hsni := hmeans.sni
    have hname := (ofList_decode_iff name).mp hmeans.name
    by_cases hempty : p.serverName = ""
    · have hplain : Plain p.serverName := by
        rw [hempty]
        exact nofun
      simp only [if_pos ((decode_eq_nil_iff p.serverName).mpr hempty)] at hsni
      exact ⟨hhost, .inr (hsni.trans hempty), hplain, hname⟩
    · simp only [if_neg fun h => hempty ((decode_eq_nil_iff p.serverName).mp h)] at hsni
      exact ⟨hhost, .inl hempty, (ofList_decode_iff p.serverName).mp hsni, hname⟩
  · rintro ⟨hhost, hsni, hplain, hname⟩
    refine ⟨_, parse_toVlessUri hX hhost, rfl, rfl, rfl, ?_, (ofList_decode_iff name).mpr hname⟩
    by_cases hempty : p.serverName = ""
    · simp only [if_pos ((decode_eq_nil_iff p.serverName).mpr hempty)]
      exact (hsni.resolve_left (not_not.mpr hempty)).trans hempty.symm
    · simp only [if_neg fun h => hempty ((decode_eq_nil_iff p.serverName).mp h)]
      exact (ofList_decode_iff p.serverName).mpr hplain

end

/-! ## Two links -/

theorem Sample.writesUuids : Sample.crates.WritesUuids := by
  intro u c hc
  have hdigit : ∀ c ∈ (hexEncode u.toList).toList, c = '-' ∨ ∃ n < 16, c = Nat.digitChar n := by
    intro c hc
    rw [hexEncode, String.toList_ofList] at hc
    obtain ⟨b, -, hb⟩ := List.mem_flatMap.mp hc
    have hlt := b.toNat_lt
    simp only [List.mem_cons, List.not_mem_nil, or_false] at hb
    rcases hb with rfl | rfl
    · exact .inr ⟨_, by omega, rfl⟩
    · exact .inr ⟨_, by omega, rfl⟩
  have hsub := fun {n m : ℕ} (h : c ∈ (((hexEncode u.toList).toList.drop n).take m)) =>
    hdigit c (List.mem_of_mem_drop (List.mem_of_mem_take h))
  change c ∈ (Sample.uuidToString u).toList at hc
  rw [Sample.uuidToString, String.toList_ofList] at hc
  simp only [List.mem_append, List.mem_singleton] at hc
  rcases hc with ((((((((hc | hc) | hc) | hc) | hc) | hc) | hc) | hc) | hc)
  · exact hdigit c (List.mem_of_mem_take hc)
  · exact .inl hc
  · exact hsub hc
  · exact .inl hc
  · exact hsub hc
  · exact .inl hc
  · exact hsub hc
  · exact .inl hc
  · exact hdigit c (List.mem_of_mem_drop hc)

/-- The parameters of an account on a profile for `aka.ms`. -/
def phoneLink : RealityClientParameters :=
  ⟨"203.0.113.7", 443, "aka.ms", "fchlFHTb06bWaZodNXEQsviLQSzfIh8bP78EP4xqcD4", "da09ebd28dc215c8", "chrome",
    Vector.replicate 16 0xab, "Default Profile"⟩

/-- **A link that works.** -/
theorem link_roundtrip_phone : ∃ cfg, parseVlessLink "7" (phoneLink.toVlessUri Sample.crates "phone+1") = some cfg ∧
    cfg.Means Sample.crates phoneLink "phone+1" :=
  (link_roundtrip_iff Sample.writesUuids phoneLink "phone+1" "7").mpr
    ⟨by simp [separators, phoneLink], by decide, by simp [Plain, phoneLink], by simp [Plain]⟩

/-- **A name with a space** comes back with a plus sign. -/
theorem spaced_name_altered : ¬ ∃ cfg, parseVlessLink "7" (phoneLink.toVlessUri Sample.crates "my phone") = some cfg ∧
    cfg.Means Sample.crates phoneLink "my phone" := by
  rintro ⟨cfg, hcfg, hmeans⟩
  rw [parse_toVlessUri Sample.writesUuids (by simp [separators, phoneLink])] at hcfg
  obtain rfl := Option.some.inj hcfg
  exact absurd ((ofList_decode_iff "my phone").mp hmeans.name) (by simp [Plain])

end RXCore
