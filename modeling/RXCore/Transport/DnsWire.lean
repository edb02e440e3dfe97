import RXCore.Transport.Resolver
import RXCore.Lib.Dns

/-!
# Lookups over TCP

`resolve_dns_over_tcp_socks`, with the message it sends and the reply it reads. The parser of the reply belongs to the
`dns-parser` crate and is a parameter.

* `buildDnsQuery`, `parseDnsResponse`, `resolveDnsOverTcpSocks`: the functions;
* `buildDnsQuery_eq`: the message is one question, whatever the length of its labels;
* **`lookup_asks_iff`**: when the message asks for the name;
* `firsts`: the records whose address has not come before; `collectAnswers_eq`: the loop over the answers;
* **`parseDnsResponse_least_iff`**: when the lifetime is the least of all.
-/

set_option autoImplicit false

namespace RXCore

open Encoding
open SingleFlight (Answer)

/-! ## The query -/

/-- `build_dns_query`, with its random id. -/
def buildDnsQuery (txid : UInt16) (hostname : String) : List UInt8 :=
  u16Bytes txid.toNat ++ [0x01, 0x00] ++ [0x00, 0x01] ++ [0x00, 0x00, 0x00, 0x00, 0x00, 0x00] ++
    (splitAt '.' hostname).flatMap (fun part =>
      if part ≠ "" then UInt8.ofNat (utf8 part).length :: utf8 part else []) ++
    [0] ++ [0x00, 0x01] ++ [0x00, 0x01]

/-! ## The reply -/

/-- `dns_parser::Opcode`. -/
inductive Opcode where
  | standardQuery
  | inverseQuery
  | serverStatusRequest
  | reserved (code : UInt16)
deriving DecidableEq

/-- `dns_parser::ResponseCode`. -/
inductive ResponseCode where
  | noError
  | formatError
  | serverFailure
  | nameError
  | notImplemented
  | refused
  | reserved (code : UInt8)
deriving DecidableEq

/-- How a response code is printed. -/
def ResponseCode.debug : ResponseCode → String
  | noError => "NoError"
  | formatError => "FormatError"
  | serverFailure => "ServerFailure"
  | nameError => "NameError"
  | notImplemented => "NotImplemented"
  | refused => "Refused"
  | reserved code => s!"Reserved({code.toNat})"

/-- `dns_parser::QueryType`, of which only one is asked for. -/
inductive QueryType where
  | A
  | other (code : UInt16)
deriving DecidableEq

/-- `dns_parser::QueryClass`. -/
inductive QueryClass where
  | IN
  | CS
  | CH
  | HS
  | any
deriving DecidableEq

/-- `dns_parser::Class`. -/
inductive DnsClass where
  | IN
  | CS
  | CH
  | HS
deriving DecidableEq

/-- `dns_parser::RData`, of which only addresses are read. -/
inductive RData where
  | A (ip : Ipv4Addr)
  | other (type : UInt16) (data : List UInt8)
deriving DecidableEq

/-- The fields of `dns_parser::Header` that are read. -/
structure DnsHeader where
  id : UInt16
  query : Bool
  opcode : Opcode
  truncated : Bool
  responseCode : ResponseCode

structure DnsQuestion where
  /-- The name as it is printed. -/
  qname : String
  qtype : QueryType
  qclass : QueryClass

structure ResourceRecord where
  cls : DnsClass
  ttl : UInt32
  data : RData

/-- `dns_parser::Packet`. -/
structure Packet where
  header : DnsHeader
  questions : List DnsQuestion
  answers : List ResourceRecord

/-- `trim_end_matches('.')`. -/
def trimEndDots (s : String) : List Char := s.toList.rdropWhile (· == '.')

/-- The loop over the answers: each address once, and the least lifetime so far. -/
def collectAnswers (resolved : List Ipv4Addr) (minTtl : UInt32) : List ResourceRecord → List Ipv4Addr × UInt32
  | [] => (resolved, minTtl)
  | answer :: answers =>
    if answer.cls ≠ .IN then collectAnswers resolved minTtl answers
    else match answer.data with
      | .A ip =>
        if ip ∉ resolved then
          collectAnswers (resolved ++ [ip]) (if answer.ttl < minTtl then answer.ttl else minTtl) answers
        else collectAnswers resolved minTtl answers
      | .other _ _ => collectAnswers resolved minTtl answers

/-- `u32::MAX`. -/
def u32Max : UInt32 := 4294967295

/-- What `parse_dns_response` makes of a packet. -/
def readPacket (packet : Packet) (expectedTxid : UInt16) (expectedHostname : String) : Answer :=
  if packet.header.id ≠ expectedTxid then .error "DNS txid mismatch"
  else if packet.header.query then .error "DNS message is a query, expected response"
  else if packet.header.opcode ≠ .standardQuery then .error "DNS opcode is not StandardQuery"
  else if packet.header.responseCode ≠ .noError then
    .error s!"DNS response error code: {packet.header.responseCode.debug}"
  else if packet.header.truncated then .error "DNS response is truncated"
  else match packet.questions with
    | [] => .error "DNS response has no questions"
    | question :: _ =>
      if trimEndDots question.qname ≠ trimEndDots expectedHostname then .error "DNS question name mismatch"
      else if question.qtype ≠ .A then .error "DNS question type is not A"
      else if question.qclass ≠ .IN then .error "DNS question class is not IN"
      else
        let (resolved, minTtl) := collectAnswers [] u32Max packet.answers
        if resolved = [] then .error "No IPv4 addresses found in DNS answer"
        else .ok (resolved, minTtl.toNat)

/-- `parse_dns_response`, with `Packet::parse` and the texts of its errors. -/
def parseDnsResponse (parse : List UInt8 → Except String Packet) (resp : List UInt8) (expectedTxid : UInt16)
    (expectedHostname : String) : Answer :=
  match parse resp with
  | .error e => .error s!"DNS parse error: {e}"
  | .ok packet => readPacket packet expectedTxid expectedHostname

/-! ## The exchange -/

/-- What the surroundings do in a lookup. -/
structure DnsExchange where
  /-- `dial_tcp` through the proxy, with the server and its port. -/
  dial : String → UInt16 → Except String Unit
  write : Except String Unit
  /-- What arrives until the stream ends. -/
  reply : List UInt8

/-- `resolve_dns_over_tcp_socks`: what it sends, if it comes to that, and its result. -/
def resolveDnsOverTcpSocks (parse : List UInt8 → Except String Packet) (E : DnsExchange) (txid : UInt16)
    (hostname dnsServer : String) : Option (List UInt8) × Answer :=
  match parseEndpoint dnsServer 53 with
  | .error e => (none, .error e)
  | .ok (dnsHost, dnsPort) => match E.dial dnsHost dnsPort with
    | .error e => (none, .error e)
    | .ok () =>
      let queryPayload := buildDnsQuery txid hostname
      (some (u16Bytes queryPayload.length ++ queryPayload), do
        E.write
        match E.reply with
        | high :: low :: rest =>
          let respLen := u16 high low
          refuseIf (4096 < respLen) s!"DNS response too large: {respLen} bytes"
          refuseIf (rest.length < respLen) "early eof"
          parseDnsResponse parse (rest.take respLen) txid hostname
        | _ => .error "early eof")

/-! ## What is asked -/

/-- The non-empty parts of a name between its dots. -/
def labelsOf (hostname : String) : List (List UInt8) := ((splitAt '.' hostname).filter (· ≠ "")).map utf8

/-- The message decodes to one question for the addresses of the name. -/
def AsksFor (hostname : String) (msg : List UInt8) : Prop :=
  ∃ m, Dns.decode msg = some m ∧ m.questions = [⟨labelsOf hostname, 1, 1⟩]

/-- The server has an address, and the proxy connects to it. -/
def DnsExchange.Connects (E : DnsExchange) (dnsServer : String) : Prop :=
  ∃ host port, parseEndpoint dnsServer 53 = .ok (host, port) ∧ E.dial host port = .ok ()

section

variable {parse : List UInt8 → Except String Packet} {E : DnsExchange} {txid : UInt16} {hostname dnsServer : String}

theorem u16Bytes_eq (n : ℕ) : u16Bytes n = beBytes 2 n := by simp [u16Bytes, beBytes]

/-- **The message is one question**, whatever the length of its labels. -/
theorem buildDnsQuery_eq (txid : UInt16) (hostname : String) :
    buildDnsQuery txid hostname = Dns.encodeQuery txid.toNat 256 ⟨labelsOf hostname, 1, 1⟩ := by
  have hlabels : (splitAt '.' hostname).flatMap (fun part =>
      if part ≠ "" then UInt8.ofNat (utf8 part).length :: utf8 part else []) =
        Dns.encodeLabels (labelsOf hostname) := by
    rw [labelsOf, Dns.encodeLabels, List.flatMap_map]
    induction splitAt '.' hostname with
    | nil => rfl
    | cons part parts ih =>
      rw [List.flatMap_cons, ih, List.filter_cons]
      by_cases hpart : part = "" <;> simp [hpart]
  rw [buildDnsQuery, hlabels, Dns.encodeQuery, u16Bytes_eq]
  simp [beBytes]

theorem sublist_of_mem_splitOn {sep : Char} {p : List Char} (cs : List Char) (h : p ∈ cs.splitOn sep) :
    p.Sublist cs := by
  induction cs generalizing p with
  | nil =>
    obtain rfl : p = [] := by simpa using h
    exact List.Sublist.refl _
  | cons c cs ih =>
    rw [List.splitOn, List.splitOnP_cons_eq_if_modifyHead] at h
    obtain ⟨first, others, hsplit⟩ := List.exists_cons_of_ne_nil (List.splitOn_ne_nil sep cs)
    rw [List.splitOn] at hsplit
    rw [hsplit] at h
    have hmem : ∀ q ∈ first :: others, q.Sublist cs := fun q hq => ih (by rw [List.splitOn, hsplit]; exact hq)
    split_ifs at h
    · obtain rfl | hp := List.mem_cons.mp h
      · exact List.nil_sublist _
      · exact (hmem p hp).cons c
    · obtain rfl | hp := List.mem_cons.mp h
      · exact (hmem first List.mem_cons_self).cons_cons c
      · exact (hmem p (List.mem_cons_of_mem _ hp)).cons c

/-- A label has at least one byte, and no more than its name. -/
theorem labelsOf_length {label : List UInt8} (h : label ∈ labelsOf hostname) :
    0 < label.length ∧ label.length ≤ (utf8 hostname).length := by
  obtain ⟨part, hpart, rfl⟩ := List.mem_map.mp h
  obtain ⟨hpart, hne⟩ := List.mem_filter.mp hpart
  obtain ⟨cs, hcs, rfl⟩ := List.mem_map.mp hpart
  constructor
  · refine List.length_pos_of_ne_nil fun hnil => ?_
    have hround := fromUtf8_utf8 (String.ofList cs)
    rw [hnil] at hround
    have hempty : String.ofList cs = "" := Option.some.inj (hround.symm.trans (fromUtf8_utf8 ""))
    simp [hempty] at hne
  · rw [utf8_eq_flatMap, utf8_eq_flatMap, String.toList_ofList]
    exact ((sublist_of_mem_splitOn hostname.toList hcs).flatMap _).length_le

/-- **The message asks for the name** if and only if its labels fit into the wire format. -/
theorem buildDnsQuery_asks_iff (txid : UInt16) (hlen : (utf8 hostname).length ≤ 255) :
    AsksFor hostname (buildDnsQuery txid hostname) ↔ Dns.Fits (labelsOf hostname) := by
  have hone : 1 < 65536 := by decide
  have hflags : 256 < 65536 := by decide
  have hdecode := Dns.decode_encodeQuery (q := ⟨labelsOf hostname, 1, 1⟩) txid.toNat_lt hflags
    (fun l hl => (labelsOf_length hl).1) (fun l hl => (labelsOf_length hl).2.trans hlen) hone hone
  rw [AsksFor, buildDnsQuery_eq, hdecode]
  split_ifs with hfits
  · exact iff_of_true ⟨_, rfl, rfl⟩ hfits
  · exact iff_of_false (fun ⟨_, hm, _⟩ => (nomatch hm)) hfits

/-- A lookup sends nothing only if it does not come as far as its server. -/
theorem resolveDnsOverTcpSocks_none :
    (resolveDnsOverTcpSocks parse E txid hostname dnsServer).1 = none ↔ ¬ E.Connects dnsServer := by
  rw [resolveDnsOverTcpSocks, DnsExchange.Connects]
  cases hserver : parseEndpoint dnsServer 53 with
  | error e => simp
  | ok endpoint =>
    obtain ⟨host, port⟩ := endpoint
    cases hdial : E.dial host port with
    | error e => simp [hdial]
    | ok u => simp [hdial]

/-- **When a lookup asks for its name**: for a name of at most 255 bytes, it is refused or its message decodes to one
question for the addresses of the name, with the parts between its dots as labels, if and only if it does not come as
far as its server, or no part has more than 63 bytes and the name has at most 255 bytes on the wire. -/
theorem lookup_asks_iff (parse : List UInt8 → Except String Packet) (E : DnsExchange) (txid : UInt16)
    (dnsServer : String) (hlen : (utf8 hostname).length ≤ 255) :
    ((resolveDnsOverTcpSocks parse E txid hostname dnsServer).1 = none ∨
      AsksFor hostname (buildDnsQuery txid hostname)) ↔
    ¬ E.Connects dnsServer ∨ Dns.Fits (labelsOf hostname) := by
  rw [resolveDnsOverTcpSocks_none, buildDnsQuery_asks_iff txid hlen]

/-- A proxy that connects, and a server that does not answer. -/
def silentExchange : DnsExchange := ⟨fun _ _ => .ok (), .ok (), []⟩

/-- A parser that takes nothing. -/
def noPacket : List UInt8 → Except String Packet := fun _ => .error "HeaderTooShort"

/-- The theorem on a name with two labels. -/
theorem lookup_asks_example :
    ((resolveDnsOverTcpSocks noPacket silentExchange 7 "a.example" "1.1.1.1").1 = none ∨
      AsksFor "a.example" (buildDnsQuery 7 "a.example")) ↔
    ¬ silentExchange.Connects "1.1.1.1" ∨ Dns.Fits (labelsOf "a.example") :=
  lookup_asks_iff noPacket silentExchange 7 "1.1.1.1" (by decide)

/-- A name of one label with 64 bytes. -/
def longLabel : String := String.ofList (List.replicate 64 'a')

/-- **A label of 64 bytes is asked for**, with a message that does not decode. -/
theorem lookup_long_label : (utf8 longLabel).length ≤ 255 ∧
    ¬ ((resolveDnsOverTcpSocks noPacket silentExchange 7 longLabel "1.1.1.1").1 = none ∨
      AsksFor longLabel (buildDnsQuery 7 longLabel)) := by
  have hlen : (utf8 longLabel).length ≤ 255 := by decide
  refine ⟨hlen, ?_⟩
  rw [resolveDnsOverTcpSocks_none, buildDnsQuery_asks_iff 7 hlen, not_or, not_not]
  exact ⟨⟨"1.1.1.1", 53, rfl, rfl⟩, by decide⟩

end

/-! ## What is answered -/

/-- The addresses of class `IN` among the answers, with their lifetimes. -/
def inAddresses (answers : List ResourceRecord) : List (Ipv4Addr × UInt32) :=
  answers.filterMap fun answer => match answer.cls, answer.data with
    | .IN, .A ip => some (ip, answer.ttl)
    | _, _ => none

/-- The records whose address is neither in `seen` nor that of a record before. -/
def firsts (seen : List Ipv4Addr) : List (Ipv4Addr × UInt32) → List (Ipv4Addr × UInt32)
  | [] => []
  | r :: rs => if r.1 ∈ seen then firsts seen rs else r :: firsts (seen ++ [r.1]) rs

/-- A response to the question for the addresses of the name, with the id of the question, that reports success. -/
structure Packet.Matches (packet : Packet) (txid : UInt16) (hostname : String) : Prop where
  id : packet.header.id = txid
  response : packet.header.query = false
  success : packet.header.responseCode = .noError
  question : ∃ q qs, packet.questions = q :: qs ∧ trimEndDots q.qname = trimEndDots hostname ∧
    q.qtype = .A ∧ q.qclass = .IN

/-- The addresses of the answers, each where it first appears, and the least lifetime of all. -/
def ReadsLeast (answers : List ResourceRecord) (res : Answer) : Prop :=
  ∃ r ∈ inAddresses answers, (∀ r' ∈ inAddresses answers, r.2 ≤ r'.2) ∧
    res = .ok (((inAddresses answers).map Prod.fst).eraseDups, r.2.toNat)

section

variable {rs : List (Ipv4Addr × UInt32)} {seen : List Ipv4Addr} {packet : Packet} {txid : UInt16} {hostname : String}

theorem firsts_subset (seen : List Ipv4Addr) (rs : List (Ipv4Addr × UInt32)) : ∀ r ∈ firsts seen rs, r ∈ rs := by
  induction rs generalizing seen with
  | nil => exact fun _ h => h
  | cons r rs ih =>
    intro r' hr'
    rw [firsts] at hr'
    split_ifs at hr'
    · exact List.mem_cons_of_mem _ (ih _ r' hr')
    · obtain rfl | hr' := List.mem_cons.mp hr'
      · exact List.mem_cons_self
      · exact List.mem_cons_of_mem _ (ih _ r' hr')

/-- The first records have the addresses without repetition. -/
theorem map_fst_firsts (seen : List Ipv4Addr) (rs : List (Ipv4Addr × UInt32)) :
    (firsts seen rs).map Prod.fst = ((rs.map Prod.fst).filter (· ∉ seen)).eraseDups := by
  induction rs generalizing seen with
  | nil => rfl
  | cons r rs ih =>
    rw [firsts, List.map_cons]
    by_cases hr : r.1 ∈ seen
    · rw [if_pos hr, ih, List.filter_cons_of_neg (by simpa using hr)]
    · rw [if_neg hr, List.map_cons, ih, List.filter_cons_of_pos (by simpa using hr), List.eraseDups_cons,
        List.filter_filter]
      congr 2
      refine List.filter_congr fun ip _ => ?_
      rw [Bool.eq_iff_iff]
      simp [and_comm]

/-- The lesser of two lifetimes, as the loop takes it. -/
def lesser (minTtl ttl : UInt32) : UInt32 := if ttl < minTtl then ttl else minTtl

/-- **The loop over the answers** reads the first records only. -/
theorem collectAnswers_eq (resolved : List Ipv4Addr) (minTtl : UInt32) (answers : List ResourceRecord) :
    collectAnswers resolved minTtl answers =
      (resolved ++ (firsts resolved (inAddresses answers)).map Prod.fst,
        ((firsts resolved (inAddresses answers)).map Prod.snd).foldl lesser minTtl) := by
  induction answers generalizing resolved minTtl with
  | nil => simp [collectAnswers, inAddresses, firsts]
  | cons answer answers ih =>
    obtain ⟨cls, ttl, data⟩ := answer
    rw [collectAnswers, inAddresses, List.filterMap_cons]
    cases cls with
    | IN =>
      rw [if_neg (not_not.mpr rfl)]
      cases data with
      | A ip =>
        dsimp only
        rw [firsts, ← inAddresses]
        by_cases hip : ip ∈ resolved
        · rw [if_neg (not_not.mpr hip), if_pos hip, ih]
        · rw [if_pos hip, if_neg hip, ih, List.map_cons, List.map_cons, List.foldl_cons, List.append_assoc]
          rfl
      | other type data => exact ih resolved minTtl
    | CS => exact ih resolved minTtl
    | CH => exact ih resolved minTtl
    | HS => exact ih resolved minTtl

theorem foldl_lesser (ttls : List UInt32) (minTtl : UInt32) :
    (∀ ttl ∈ minTtl :: ttls, ttls.foldl lesser minTtl ≤ ttl) ∧ ttls.foldl lesser minTtl ∈ minTtl :: ttls := by
  induction ttls generalizing minTtl with
  | nil => simp
  | cons ttl ttls ih =>
    obtain ⟨hle, hmem⟩ := ih (lesser minTtl ttl)
    have hlesser : lesser minTtl ttl ≤ minTtl ∧ lesser minTtl ttl ≤ ttl ∧
        (lesser minTtl ttl = minTtl ∨ lesser minTtl ttl = ttl) := by
      rw [lesser]
      split_ifs with hlt
      · exact ⟨UInt32.le_of_lt hlt, UInt32.le_refl _, .inr rfl⟩
      · exact ⟨UInt32.le_refl _, UInt32.not_lt.mp hlt, .inl rfl⟩
    have hfirst := hle _ List.mem_cons_self
    rw [List.foldl_cons]
    refine ⟨fun t ht => ?_, ?_⟩
    · rcases List.mem_cons.mp ht with rfl | ht
      · exact UInt32.le_trans hfirst hlesser.1
      · rcases List.mem_cons.mp ht with rfl | ht
        · exact UInt32.le_trans hfirst hlesser.2.1
        · exact hle t (List.mem_cons_of_mem _ ht)
    · rcases List.mem_cons.mp hmem with h | h
      · rw [h]
        rcases hlesser.2.2 with h | h <;> rw [h] <;> simp
      · exact List.mem_cons_of_mem _ (List.mem_cons_of_mem _ h)

/-- **The lifetime of a reply is the least one of the first records.** -/
theorem collectAnswers_least {answers : List ResourceRecord} (h : inAddresses answers ≠ []) :
    ∃ r ∈ firsts [] (inAddresses answers), (∀ r' ∈ firsts [] (inAddresses answers), r.2 ≤ r'.2) ∧
      collectAnswers [] u32Max answers = (((inAddresses answers).map Prod.fst).eraseDups, r.2) := by
  have hne : firsts [] (inAddresses answers) ≠ [] := by
    obtain ⟨r, rs, hrs⟩ := List.exists_cons_of_ne_nil h
    rw [hrs, firsts, if_neg List.not_mem_nil]
    exact List.cons_ne_nil _ _
  obtain ⟨hle, hmem⟩ := foldl_lesser ((firsts [] (inAddresses answers)).map Prod.snd) u32Max
  have hleast : ∀ r' ∈ firsts [] (inAddresses answers),
      ((firsts [] (inAddresses answers)).map Prod.snd).foldl lesser u32Max ≤ r'.2 := fun r' hr' =>
    hle _ (List.mem_cons_of_mem _ (List.mem_map_of_mem hr'))
  have hfound : ((firsts [] (inAddresses answers)).map Prod.snd).foldl lesser u32Max ∈
      (firsts [] (inAddresses answers)).map Prod.snd := by
    rcases List.mem_cons.mp hmem with hmax | hmem
    · -- every lifetime is the largest number
      obtain ⟨r, hr⟩ := List.exists_mem_of_ne_nil _ hne
      have hmin := hleast r hr
      have hr2 : r.2 = u32Max := by
        rw [hmax] at hmin
        refine UInt32.le_antisymm ?_ hmin
        have := r.2.toNat_lt
        rw [UInt32.le_iff_toNat_le]
        exact Nat.le_of_lt_succ this
      rw [hmax, ← hr2]
      exact List.mem_map_of_mem hr
    · exact hmem
  obtain ⟨r, hr, hrmin⟩ := List.mem_map.mp hfound
  refine ⟨r, hr, fun r' hr' => by rw [hrmin]; exact hleast r' hr', ?_⟩
  rw [collectAnswers_eq, map_fst_firsts, hrmin]
  simp

theorem parseDnsResponse_ok {parse : List UInt8 → Except String Packet} {resp : List UInt8}
    (hparse : parse resp = .ok packet) : parseDnsResponse parse resp txid hostname = readPacket packet txid hostname := by
  rw [parseDnsResponse, hparse]

/-- A reply of which the loop is reached. -/
theorem readPacket_eq (hmatch : packet.Matches txid hostname) (hopcode : packet.header.opcode = .standardQuery)
    (htruncated : packet.header.truncated = false) :
    readPacket packet txid hostname =
      if (collectAnswers [] u32Max packet.answers).1 = [] then .error "No IPv4 addresses found in DNS answer"
      else .ok ((collectAnswers [] u32Max packet.answers).1, (collectAnswers [] u32Max packet.answers).2.toNat) := by
  obtain ⟨q, qs, hq, hname, hqtype, hqclass⟩ := hmatch.question
  rw [readPacket, if_neg (not_not.mpr hmatch.id), if_neg (Bool.eq_false_iff.mp hmatch.response),
    if_neg (not_not.mpr hopcode), if_neg (not_not.mpr hmatch.success), if_neg (Bool.eq_false_iff.mp htruncated), hq]
  dsimp only
  rw [if_neg (not_not.mpr hname), if_neg (not_not.mpr hqtype), if_neg (not_not.mpr hqclass)]

theorem exists_error_ite {α : Type} {c : Prop} [Decidable c] (e : String) {x : Except String α} (h : ∃ e, x = .error e) :
    ∃ e', (if c then .error e else x) = .error e' := by
  split_ifs
  · exact ⟨e, rfl⟩
  · exact h

/-- A reply that is truncated or of another kind is refused. -/
theorem readPacket_refused (h : ¬ (packet.header.opcode = .standardQuery ∧ packet.header.truncated = false)) :
    ∃ e, readPacket packet txid hostname = .error e := by
  refine exists_error_ite _ (exists_error_ite _ ?_)
  by_cases hopcode : packet.header.opcode = .standardQuery
  · have htruncated : packet.header.truncated = true := by
      rw [← Bool.not_eq_false]
      exact fun h' => h ⟨hopcode, h'⟩
    rw [if_neg (not_not.mpr hopcode)]
    refine exists_error_ite _ ?_
    rw [if_pos htruncated]
    exact ⟨_, rfl⟩
  · rw [if_pos hopcode]
    exact ⟨_, rfl⟩

/-- **When a reply is read as it should be**: of a response to the question, with its id and a success code, the
addresses are returned in order of first appearance with the least lifetime of all records, if and only if the response
is a standard one and not truncated, has an address, and no record that repeats an address has a lifetime below those of
all first records. -/
theorem parseDnsResponse_least_iff {parse : List UInt8 → Except String Packet} {resp : List UInt8}
    (hparse : parse resp = .ok packet) (hmatch : packet.Matches txid hostname) :
    ReadsLeast packet.answers (parseDnsResponse parse resp txid hostname) ↔
      packet.header.opcode = .standardQuery ∧ packet.header.truncated = false ∧ inAddresses packet.answers ≠ [] ∧
        ∀ r ∈ inAddresses packet.answers, ∃ r' ∈ firsts [] (inAddresses packet.answers), r'.2 ≤ r.2 := by
  rw [parseDnsResponse_ok hparse]
  by_cases hplain : packet.header.opcode = .standardQuery ∧ packet.header.truncated = false
  · obtain ⟨hopcode, htruncated⟩ := hplain
    rw [readPacket_eq hmatch hopcode htruncated]
    by_cases hne : inAddresses packet.answers = []
    · refine iff_of_false (fun ⟨r, hr, _⟩ => ?_) fun h => h.2.2.1 hne
      rw [hne] at hr
      cases hr
    · obtain ⟨r, hr, hleast, heq⟩ := collectAnswers_least hne
      have hresolved : ((inAddresses packet.answers).map Prod.fst).eraseDups ≠ [] := by
        obtain ⟨r, rs, hrs⟩ := List.exists_cons_of_ne_nil hne
        rw [hrs, List.map_cons, List.eraseDups_cons]
        exact List.cons_ne_nil _ _
      rw [heq, if_neg hresolved]
      constructor
      · rintro ⟨s, -, hs, hres⟩
        obtain ⟨-, htoNat⟩ := Prod.mk.inj (Except.ok.inj hres)
        refine ⟨hopcode, htruncated, hne, fun r' hr' => ⟨r, hr, ?_⟩⟩
        rw [UInt32.toNat_inj.mp htoNat]
        exact hs r' hr'
      · rintro ⟨-, -, -, hfirsts⟩
        refine ⟨r, firsts_subset [] _ r hr, fun r' hr' => ?_, rfl⟩
        obtain ⟨f, hf, hle⟩ := hfirsts r' hr'
        exact UInt32.le_trans (hleast f hf) hle
  · have hrefused : ∃ e, readPacket packet txid hostname = .error e := readPacket_refused hplain
    obtain ⟨e, he⟩ := hrefused
    rw [he]
    exact iff_of_false (fun ⟨_, _, _, hres⟩ => (nomatch hres)) fun h => hplain ⟨h.1, h.2.1⟩

end

/-- A reply with two records of one address, the second of which does not live as long. -/
def repeatedReply : Packet where
  header := ⟨7, false, .standardQuery, false, .noError⟩
  questions := [⟨"a.example", .A, .IN⟩]
  answers := [⟨.IN, 300, .A .localhost⟩, ⟨.IN, 60, .A .localhost⟩]

theorem repeatedReply_matches : repeatedReply.Matches 7 "a.example." :=
  ⟨rfl, rfl, rfl, ⟨_, _, rfl, by decide, rfl, rfl⟩⟩

/-- The theorem on the reply. -/
theorem parseDnsResponse_least_example :
    ReadsLeast repeatedReply.answers (parseDnsResponse (fun _ => .ok repeatedReply) [] 7 "a.example.") ↔
      repeatedReply.header.opcode = .standardQuery ∧ repeatedReply.header.truncated = false ∧
        inAddresses repeatedReply.answers ≠ [] ∧ ∀ r ∈ inAddresses repeatedReply.answers,
          ∃ r' ∈ firsts [] (inAddresses repeatedReply.answers), r'.2 ≤ r.2 :=
  parseDnsResponse_least_iff rfl repeatedReply_matches

/-- **The lifetime of a repeated record is passed over.** -/
theorem repeatedReply_not_least : repeatedReply.Matches 7 "a.example." ∧
    parseDnsResponse (fun _ => .ok repeatedReply) [] 7 "a.example." = .ok ([.localhost], 300) ∧
    ¬ ReadsLeast repeatedReply.answers (parseDnsResponse (fun _ => .ok repeatedReply) [] 7 "a.example.") := by
  have hres : parseDnsResponse (fun _ => .ok repeatedReply) [] 7 "a.example." = .ok ([.localhost], 300) := by decide
  refine ⟨repeatedReply_matches, hres, ?_⟩
  rw [hres]
  rintro ⟨r, -, hleast, heq⟩
  obtain ⟨-, hr⟩ := Prod.mk.inj (Except.ok.inj heq)
  have h60 := UInt32.le_iff_toNat_le.mp (hleast (.localhost, 60) (by decide))
  rw [← hr] at h60
  revert h60
  decide

end RXCore
