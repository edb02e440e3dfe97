import RXCore.Net.Text
import RXCore.Router.Names

/-!
# Routes of bare addresses

`resolve_route` for a destination that is the text of an address, as `IpAddr::to_string` gives it. `get_host` cuts
the text at its last colon.

* `Ipv6Addr.isUniqueLocal`, `Ipv6Addr.isUnicastLinkLocal`, `IpAddr.isLocal`: the address classes;
* `AddressKept`: local addresses are direct, and other IPv6 literals are their own host;
* `getHost_cut`, `cut_cases`: what is left of an IPv6 literal, which is an address or none;
* **`addressKept_iff`**: which addresses are kept.
-/

set_option autoImplicit false

namespace RXCore

open Lowercase

/-! ## Local addresses -/

/-- `fc00::/7`. -/
def Ipv6Addr.isUniqueLocal (a : Ipv6Addr) : Bool :=
  0xfc00 ≤ a.segments[0].toNat ∧ a.segments[0].toNat ≤ 0xfdff

/-- `fe80::/10`. -/
def Ipv6Addr.isUnicastLinkLocal (a : Ipv6Addr) : Bool :=
  0xfe80 ≤ a.segments[0].toNat ∧ a.segments[0].toNat ≤ 0xfebf

/-- Unique-local or link-local. -/
def Ipv6Addr.inLocalBlock (a : Ipv6Addr) : Bool := a.isUniqueLocal || a.isUnicastLinkLocal

/-- Loopback, private, link-local or unique-local. -/
def IpAddr.isLocal : IpAddr → Bool
  | .v4 a => a.isLoopback || a.isPrivate || a.isLinkLocal
  | .v6 a => a.isLoopback || a.inLocalBlock

/-- The two colons in the text of an address stand for zeros that at least two groups follow. -/
def Ipv6Addr.twoGroupsLast (a : Ipv6Addr) : Bool :=
  let (start, len) := longestZeros 0 (0, 0) (0, 0) a.segments.toList
  1 < len ∧ start + len ≤ 6

/-- A local address is direct in every mode and with all tables, and another IPv6 literal is its own host. -/
def AddressKept (X : Crates) (ip : IpAddr) : Prop :=
  (ip.isLocal = true → ∀ mode destPort inboundTag sni tables,
    resolveRoute X mode ip.display destPort inboundTag sni tables = some "direct") ∧
  (ip.isIpv6 = true → ip.isLocal = false → getHost X ip.display = some ip.display)

theorem blockOctets (g : UInt16) :
    let o0 := (g >>> 8).toUInt8
    let o1 := g.toUInt8
    (o0 &&& 0xfe == 0xfc || (o0 == 0xfe && o1 &&& 0xc0 == 0x80)) =
      (decide (0xfc00 ≤ g.toNat ∧ g.toNat ≤ 0xfdff) || decide (0xfe80 ≤ g.toNat ∧ g.toNat ≤ 0xfebf)) := by
  have h0 : (g >>> 8).toUInt8.toNat = g.toNat / 256 := by
    have := g.toNat_lt
    simp [Nat.shiftRight_eq_div_pow]
    omega
  have h1 : g.toUInt8.toNat = g.toNat % 256 := by simp
  have hfe : ∀ o : UInt8, (o &&& 0xfe == 0xfc) = decide (o.toNat = 252 ∨ o.toNat = 253) := by decide +kernel
  have heq : ∀ o : UInt8, (o == 0xfe) = decide (o.toNat = 254) := by decide +kernel
  have hc0 : ∀ o : UInt8, (o &&& 0xc0 == 0x80) = decide (128 ≤ o.toNat ∧ o.toNat ≤ 191) := by decide +kernel
  simp only [hfe, heq, hc0, h0, h1]
  rw [← Bool.decide_and, ← Bool.decide_or, ← Bool.decide_or, decide_eq_decide]
  omega

/-- The first two bytes of an address say whether it is in a local block. -/
theorem octets_inLocalBlock (a : Ipv6Addr) :
    (a.octets.getD 0 0 &&& 0xfe == 0xfc || (a.octets.getD 0 0 == 0xfe && a.octets.getD 1 0 &&& 0xc0 == 0x80)) =
      a.inLocalBlock := by
  obtain ⟨⟨⟨l⟩, hl⟩⟩ := a
  match l, hl with
  | [s0, s1, s2, s3, s4, s5, s6, s7], _ => exact blockOctets s0

theorem isPrivateOrLocal_of_parse {host : String} {ip : IpAddr} (h : parseIpAddr host = some ip)
    (hlocal : ip.isLocal = true) : isPrivateOrLocal host = true := by
  rw [isPrivateOrLocal, h]
  split_ifs with hhost
  · rfl
  simp only
  split_ifs with hloop
  · rfl
  cases ip with
  | v4 a =>
    have hloop : a.isLoopback = false := by simpa [IpAddr.isLoopback] using hloop
    simp only [IpAddr.isLocal, hloop, Bool.false_or] at hlocal
    simp [hlocal]
  | v6 a =>
    have hloop : a.isLoopback = false := by simpa [IpAddr.isLoopback] using hloop
    simp only [IpAddr.isLocal, hloop, Bool.false_or] at hlocal
    exact (octets_inLocalBlock a).trans hlocal

/-! ## The host of a bare address -/

section

variable {X : Crates} {T : CaseTable} {ip : IpAddr} {pre last : List Char}

theorem toLowercase_display (hX : X.Lowercases T) (ip : IpAddr) : X.toLowercase ip.display = ip.display := by
  have hkept : ∀ c ∈ displayChars, c ≠ 'Σ' ∧ c.toLower = c := by simp [displayChars]
  have hascii : ∀ c ∈ displayChars, c.toNat < 128 := by simp [displayChars]
  have hfixed : ∀ c ∈ ip.display.toList, c ≠ 'Σ' ∧ T.toLower c = [c] := by
    intro c hc
    have hc := mem_displayChars ip c hc
    obtain ⟨hsigma, hlower⟩ := hkept c hc
    rw [T.toLower_ascii c (hascii c hc), hlower]
    exact ⟨hsigma, rfl⟩
  rw [hX, CaseTable.lower, CaseTable.lowerFrom_of_fixed hfixed, String.ofList_toList]

/-- Nothing is cut from a text without a colon. -/
theorem getHost_v4 (hX : X.Lowercases T) (a : Ipv4Addr) :
    getHost X (IpAddr.v4 a).display = some (IpAddr.v4 a).display := by
  have hcolon : ':' ∉ (IpAddr.v4 a).display.toList := by
    obtain ⟨⟨⟨l⟩, hl⟩⟩ := a
    match l, hl with
    | [w, x, y, z], _ =>
      have hdigit : ∀ n : ℕ, ':' ∉ Nat.toDigits 10 n := by
        intro n hn
        have := isSome_of_mem_toDigits (by decide) (by decide) ':' hn
        simp [toDigit] at this
      show ':' ∉ (Ipv4Addr.new w x y z).display.toList
      simp [Ipv4Addr.display_new, hdigit]
  rw [getHost, toLowercase_display hX]
  simp only [if_neg hcolon, String.ofList_toList]

/-- **A bare literal is cut at its last colon.** -/
theorem getHost_cut (hX : X.Lowercases T) (h : ip.display.toList = pre ++ ':' :: last) (hlast : ':' ∉ last) :
    getHost X ip.display = some (String.ofList pre) := by
  have hbrackets : '[' ∉ displayChars ∧ ']' ∉ displayChars := by decide
  have hcolon : ':' ∈ ip.display.toList := by simp [h]
  have hhead : ¬ (ip.display.toList.head? = some '[' ∧ ip.display.toList.getLast? = some ']') := by
    rintro ⟨hopen, -⟩
    exact hbrackets.1 (mem_displayChars ip '[' (List.mem_of_head? hopen))
  have hclose : ']' ∉ ip.display.toList := fun hc => hbrackets.2 (mem_displayChars ip ']' hc)
  have hdrop : ip.display.toList.reverse.dropWhile (· ≠ ':') = ':' :: pre.reverse := by
    rw [h, List.reverse_append, List.reverse_cons, List.append_assoc,
      List.dropWhile_append_of_pos fun c hc => by
        have hc : c ∈ last := List.mem_reverse.mp hc
        simpa using fun he : c = ':' => hlast (he ▸ hc)]
    simp
  rw [getHost, toLowercase_display hX]
  simp only [if_pos hcolon, if_neg hhead, if_neg hclose, hdrop, List.drop_succ_cons, List.drop_zero,
    List.reverse_reverse]

/-- A host that is no address, no IPv4 address in disguise and no name. -/
theorem resolveRoute_of_unreadable {host : String} (h : getHost X ip.display = some host) (hcolon : ':' ∈ host.toList)
    (hparse : parseIpAddr host = none) :
    resolveRoute X .browsingWarp ip.display 443 "vless" none ⟨[], [], [], [], []⟩ = some "warp" := by
  have hname : eqIgnoreAsciiCase host "localhost" = false := by
    rw [eqIgnoreAsciiCase, beq_eq_false_iff_ne]
    intro he
    have hmem : ':'.toLower ∈ "localhost".toList.map Char.toLower := he ▸ List.mem_map_of_mem hcolon
    exact absurd hmem (by decide)
  have hv4 : (host == "127.0.0.1") = false := by
    rw [beq_eq_false_iff_ne]
    rintro rfl
    exact absurd hparse (by decide)
  have hv6 : (host == "::1") = false := by
    rw [beq_eq_false_iff_ne]
    rintro rfl
    exact absurd hparse (by decide)
  have hprivate : isPrivateOrLocal host = false := by
    rw [isPrivateOrLocal, hname, hparse]
    rfl
  rw [resolveRoute_eq h]
  simp [keptLocal, hostLocal, hname, hv4, hv6, hprivate, routeByTables, modeOverride, matchesDomain, modeDefault]

end

/-! ## What is left of a literal -/

section

variable {before after gs : List UInt16} {g : UInt16} {a : Ipv6Addr}

theorem exists_lastColon {s : List Char} (h : ':' ∈ s) : ∃ pre last, s = pre ++ ':' :: last ∧ ':' ∉ last := by
  induction s with
  | nil => cases h
  | cons c s ih =>
    by_cases hs : ':' ∈ s
    · obtain ⟨pre, last, rfl, hlast⟩ := ih hs
      exact ⟨c :: pre, last, rfl, hlast⟩
    · obtain rfl | h := List.mem_cons.mp h
      · exact ⟨[], s, rfl, hs⟩
      · exact absurd h hs

theorem colon_notMem_digits (g : UInt16) : ':' ∉ Nat.toDigits 16 g.toNat := by
  intro h
  have := isSome_of_mem_toDigits (by decide) (by decide) ':' h
  simp [toDigit] at this

theorem groupsText_concat (hgs : gs ≠ []) (g : UInt16) :
    groupsText (gs ++ [g]) = groupsText gs ++ ':' :: Nat.toDigits 16 g.toNat := by
  cases gs with
  | nil => exact absurd rfl hgs
  | cons h gs => simp [groupsText, colonGroups]

/-- Groups that are too few are no address. -/
theorem parseIpAddr_groups_none (hlen : gs.length < 8) : parseIpAddr (String.ofList (groupsText gs)) = none := by
  have hread : readGroups 8 0 (groupsText gs ++ []) = (gs, false, []) :=
    readGroups_text hlen.le (Stops.noGroup (.inl rfl))
  have hv4 : readIpv4Addr (groupsText gs ++ []) = none := readIpv4Addr_groups gs (.inl rfl)
  rw [List.append_nil] at hread hv4
  have hv6 : readIpv6Addr (groupsText gs) = none := by
    rw [readIpv6Addr, hread]
    simp [hlen.ne, readGivenChar]
  simp [parseIpAddr, hv4, hv6]

/-- Nor are groups with one colon at the end. -/
theorem parseIpAddr_colon_none (hlen : gs.length < 8) :
    parseIpAddr (String.ofList (groupsText gs ++ [':'])) = none := by
  have hread : readGroups 8 0 (groupsText gs ++ [':']) = (gs, false, [':']) := readGroups_text hlen.le noGroup_colon
  have hv4 : readIpv4Addr (groupsText gs ++ [':']) = none := by
    cases gs with
    | nil => exact readIpv4Addr_text List.not_mem_nil noGroup_colon.1
    | cons g gs =>
      rw [groupsText, List.append_assoc]
      exact readIpv4Addr_text (dot_notMem_toDigits _) (noGroup_colon.1.colonGroups gs)
  have hv6 : readIpv6Addr (groupsText gs ++ [':']) = none := by
    rw [readIpv6Addr, hread]
    simp [hlen.ne, readGivenChar]
  simp [parseIpAddr, hv4, hv6]

/-- Groups with two colons among them are an address, of which the first group is kept. -/
theorem parseIpAddr_cut {n : ℕ} (hn : 0 < n) (h : a.segments.toList = before ++ List.replicate n 0 ++ (after ++ [g]))
    (hfirst : a.segments[0] ≠ 0) : ∃ b : Ipv6Addr, b.segments[0] = a.segments[0] ∧
      parseIpAddr (String.ofList (groupsText before ++ ':' :: ':' :: groupsText after)) = some (.v6 b) := by
  have hhead : a.segments.toList.head? = some a.segments[0] := by
    obtain ⟨⟨⟨l⟩, hl⟩⟩ := a
    match l, hl with
    | s0 :: l, _ => rfl
  have hsize : (before ++ List.replicate (n + 1) 0 ++ after).length = 8 := by
    have := congrArg List.length h
    simp only [Vector.length_toList, List.length_append, List.length_replicate, List.length_singleton] at this ⊢
    omega
  cases before with
  | nil =>
    rw [h, List.nil_append, List.head?_append, List.head?_replicate, if_neg hn.ne'] at hhead
    exact absurd (Option.some.inj hhead).symm hfirst
  | cons g0 before =>
    rw [h] at hhead
    let b : Ipv6Addr := ⟨⟨⟨g0 :: before ++ List.replicate (n + 1) 0 ++ after⟩, hsize⟩⟩
    have hstops : Stops (':' :: ':' :: groupsText after) := .inr ⟨_, rfl⟩
    have hv4 := readIpv4Addr_groups (g0 :: before) hstops
    have hv6 := readIpv6Addr_compressed (a := b) (Nat.succ_pos n) rfl
    refine ⟨b, Option.some.inj hhead, ?_⟩
    simp only [parseIpAddr, String.toList_ofList, hv4, hv6, Option.map_some]

/-- The first group of an address in one of the blocks is not zero. -/
theorem ne_zero_of_inLocalBlock (h : a.inLocalBlock = true) : a.segments[0] ≠ 0 := by
  intro hzero
  simp [Ipv6Addr.inLocalBlock, Ipv6Addr.isUniqueLocal, Ipv6Addr.isUnicastLinkLocal, hzero] at h

theorem inLocalBlock_congr {b : Ipv6Addr} (h : b.segments[0] = a.segments[0]) : b.inLocalBlock = a.inLocalBlock := by
  simp [Ipv6Addr.inLocalBlock, Ipv6Addr.isUniqueLocal, Ipv6Addr.isUnicastLinkLocal, h]

theorem not_mapped_of_local (h : (IpAddr.v6 a).isLocal = true) : a.toIpv4Mapped = none := by
  cases hmapped : a.toIpv4Mapped with
  | none => rfl
  | some v4 =>
    have hsegments := toIpv4Mapped_segments hmapped
    obtain ⟨⟨⟨l⟩, hl⟩⟩ := a
    match l, hl with
    | [s0, s1, s2, s3, s4, s5, s6, s7], _ =>
      have h0 : [s0, s1, s2, s3, s4, s5, s6, s7] = [0, 0, 0, 0, 0, 0xffff] ++ ipv4Groups v4 := hsegments
      simp only [ipv4Groups, List.cons_append, List.nil_append, List.cons.injEq] at h0
      obtain ⟨rfl, rfl, rfl, rfl, rfl, rfl, -⟩ := h0
      simp [IpAddr.isLocal, Ipv6Addr.isLoopback, Ipv6Addr.inLocalBlock, Ipv6Addr.isUniqueLocal,
        Ipv6Addr.isUnicastLinkLocal] at h

theorem colon_mem_display (a : Ipv6Addr) : ':' ∈ (IpAddr.v6 a).display.toList := by
  show ':' ∈ a.display.toList
  cases hmapped : a.toIpv4Mapped with
  | some v4 => simp [display_mapped hmapped]
  | none =>
    obtain ⟨before, after, n, -, -, -, htext⟩ | ⟨-, htext⟩ := display_cases a hmapped
    · simp [htext]
    · rw [htext]
      obtain ⟨⟨⟨l⟩, hl⟩⟩ := a
      match l, hl with
      | s0 :: s1 :: l, _ => simp [groupsText, colonGroups]

/-- The last colon of the groups after the two colons is cut at; one group or none is left without a number. -/
theorem cut_compressed {n : ℕ} (hlen : before.length + n + after.length = 8) (hn : 1 < n)
    (htext : a.display.toList = groupsText before ++ ':' :: ':' :: groupsText after) :
    (2 ≤ after.length ∧ ∃ init g, after = init ++ [g] ∧
      a.display.toList = (groupsText before ++ ':' :: ':' :: groupsText init) ++ ':' :: Nat.toDigits 16 g.toNat) ∨
    (after.length < 2 ∧ ∃ pre last, a.display.toList = pre ++ ':' :: last ∧ ':' ∉ last ∧ ':' ∈ pre ∧
      parseIpAddr (String.ofList pre) = none) := by
  have hcolon : ':' ∈ groupsText before ++ [':'] := List.mem_append_right _ List.mem_cons_self
  have hnone : parseIpAddr (String.ofList (groupsText before ++ [':'])) = none := parseIpAddr_colon_none (by omega)
  obtain rfl | ⟨init, g, rfl⟩ := after.eq_nil_or_concat
  · exact .inr ⟨by simp, groupsText before ++ [':'], [], by simp [htext, groupsText], List.not_mem_nil, hcolon, hnone⟩
  rw [List.concat_eq_append] at *
  by_cases hinit : init = []
  · subst hinit
    exact .inr ⟨by simp, groupsText before ++ [':'], Nat.toDigits 16 g.toNat, by simp [htext, groupsText, colonGroups],
      colon_notMem_digits g, hcolon, hnone⟩
  · have hpos := List.length_pos_iff.mpr hinit
    refine .inl ⟨by simp; omega, init, g, rfl, ?_⟩
    rw [htext, groupsText_concat hinit]
    simp

/-- Of eight groups in a row seven are left. -/
theorem cut_plain (htext : a.display.toList = groupsText a.segments.toList) :
    ∃ pre last, a.display.toList = pre ++ ':' :: last ∧ ':' ∉ last ∧ ':' ∈ pre ∧
      parseIpAddr (String.ofList pre) = none := by
  obtain ⟨init, g, hinit⟩ : ∃ init g, a.segments.toList = init ++ [g] := by
    obtain hnil | ⟨init, g, h⟩ := a.segments.toList.eq_nil_or_concat
    · have := congrArg List.length hnil
      simp at this
    · exact ⟨init, g, by rw [h, List.concat_eq_append]⟩
  have hlen : init.length = 7 := by
    have := congrArg List.length hinit
    simpa using this.symm
  have hne : init ≠ [] := List.ne_nil_of_length_pos (by omega)
  refine ⟨groupsText init, Nat.toDigits 16 g.toNat, by rw [htext, hinit, groupsText_concat hne],
    colon_notMem_digits g, ?_, parseIpAddr_groups_none (by omega)⟩
  match init, hlen with
  | s0 :: s1 :: l, _ => simp [groupsText, colonGroups]

/-- **What the cut leaves**: an address when two groups or more stand after the two colons, and else none. -/
theorem cut_cases (hmapped : a.toIpv4Mapped = none) :
    (a.twoGroupsLast = true ∧ ∃ before after g n, 1 < n ∧
      a.segments.toList = before ++ List.replicate n 0 ++ (after ++ [g]) ∧
      a.display.toList = (groupsText before ++ ':' :: ':' :: groupsText after) ++ ':' :: Nat.toDigits 16 g.toNat) ∨
    (a.twoGroupsLast = false ∧ ∃ pre last, a.display.toList = pre ++ ':' :: last ∧ ':' ∉ last ∧ ':' ∈ pre ∧
      parseIpAddr (String.ofList pre) = none) := by
  obtain ⟨before, after, n, hrun, hn, hsegments, htext⟩ | ⟨hrun, htext⟩ := display_cases a hmapped
  · have hlen : before.length + n + after.length = 8 := by
      have := congrArg List.length hsegments
      simpa [add_assoc] using this.symm
    have htwo : a.twoGroupsLast = decide (2 ≤ after.length) := by
      simp only [Ipv6Addr.twoGroupsLast, hrun, hn, true_and, decide_eq_decide]
      omega
    obtain ⟨hle, init, g, rfl, hcut⟩ | ⟨hlt, hcut⟩ := cut_compressed hlen hn htext
    · exact .inl ⟨htwo.trans (decide_eq_true hle), before, init, g, n, hn, hsegments, hcut⟩
    · exact .inr ⟨htwo.trans (decide_eq_false hlt.not_ge), hcut⟩
  · have htwo : a.twoGroupsLast = false := by
      simp only [Ipv6Addr.twoGroupsLast, decide_eq_false_iff_not]
      omega
    exact .inr ⟨htwo, cut_plain htext⟩

/-- The loopback address ends in one group. -/
theorem twoGroupsLast_of_loopback (h : a.isLoopback = true) : a.twoGroupsLast = false := by
  have ha : a = ⟨#v[0, 0, 0, 0, 0, 0, 0, 1]⟩ := eq_of_beq h
  subst ha
  decide

end

/-! ## Which addresses are kept -/

section

variable {X : Crates} {T : CaseTable} {a : Ipv6Addr}

theorem addressKept_v4 (hX : X.Lowercases T) (a : Ipv4Addr) : AddressKept X (.v4 a) := by
  refine ⟨fun hlocal mode destPort inboundTag sni tables => ?_, fun h => nomatch h⟩
  have hprivate := isPrivateOrLocal_of_parse (parseIpAddr_display (.v4 a)) hlocal
  rw [resolveRoute_eq (getHost_v4 hX a), if_pos (by simp [keptLocal, hostLocal, hprivate])]

/-- What is left of a local address with two groups after the two colons is in the same block. -/
theorem addressKept_v6 (hX : X.Lowercases T) (hblock : a.inLocalBlock = true) (htwo : a.twoGroupsLast = true) :
    AddressKept X (.v6 a) := by
  have hlocal : (IpAddr.v6 a).isLocal = true := by rw [IpAddr.isLocal, hblock, Bool.or_true]
  refine ⟨fun _ mode destPort inboundTag sni tables => ?_, fun _ h => ?_⟩
  · obtain ⟨-, before, after, g, n, hn, hsegments, htext⟩ | ⟨hone, -⟩ := cut_cases (not_mapped_of_local hlocal)
    · obtain ⟨b, hb, hparse⟩ := parseIpAddr_cut (by omega) hsegments (ne_zero_of_inLocalBlock hblock)
      have hprivate := isPrivateOrLocal_of_parse hparse
        (by rw [IpAddr.isLocal, inLocalBlock_congr hb, hblock, Bool.or_true])
      have hhost : getHost X (IpAddr.v6 a).display = _ := getHost_cut hX htext (colon_notMem_digits g)
      rw [resolveRoute_eq hhost, if_pos (by simp only [keptLocal, hostLocal, hprivate, Bool.or_true, Bool.true_or])]
    · rw [htwo] at hone
      cases hone
  · rw [hlocal] at h
    cases h

/-- A literal is never its own host. -/
theorem isLocal_of_addressKept (hX : X.Lowercases T) (h : AddressKept X (.v6 a)) : (IpAddr.v6 a).isLocal = true := by
  by_contra hlocal
  obtain ⟨pre, last, htext, hlast⟩ := exists_lastColon (colon_mem_display a)
  have hcut : getHost X (IpAddr.v6 a).display = some (String.ofList pre) := getHost_cut hX htext hlast
  have hhost := hcut.symm.trans (h.2 rfl (Bool.eq_false_of_not_eq_true hlocal))
  have hlen := congrArg (fun o => (o.map fun s => s.toList.length)) hhost
  simp [htext] at hlen

/-- A local literal that is cut to no address goes to WARP in one of the modes. -/
theorem twoGroupsLast_of_addressKept (hX : X.Lowercases T) (hlocal : (IpAddr.v6 a).isLocal = true)
    (h : AddressKept X (.v6 a)) : a.twoGroupsLast = true := by
  obtain ⟨htwo, -⟩ | ⟨-, pre, last, htext, hlast, hcolon, hnone⟩ := cut_cases (not_mapped_of_local hlocal)
  · exact htwo
  · have hhost : getHost X (IpAddr.v6 a).display = _ := getHost_cut hX htext hlast
    have hwarp := resolveRoute_of_unreadable hhost (by simpa using hcolon) hnone
    rw [h.1 hlocal] at hwarp
    exact absurd hwarp (by decide)

end

/-- **Which addresses are kept**: IPv4 addresses, and local IPv6 addresses with two groups after the two colons. -/
theorem addressKept_iff (X : Crates) (T : CaseTable) (hX : X.Lowercases T) (ip : IpAddr) : AddressKept X ip ↔
    ip.isIpv4 = true ∨ ∃ a, ip = .v6 a ∧ a.inLocalBlock = true ∧ a.twoGroupsLast = true := by
  cases ip with
  | v4 a => exact iff_of_true (addressKept_v4 hX a) (.inl rfl)
  | v6 a =>
    constructor
    · intro h
      have hlocal := isLocal_of_addressKept hX h
      have htwo := twoGroupsLast_of_addressKept hX hlocal h
      obtain hloop | hblock := Bool.or_eq_true_iff.mp hlocal
      · rw [twoGroupsLast_of_loopback hloop] at htwo
        cases htwo
      · exact .inr ⟨a, rfl, hblock, htwo⟩
    · rintro (h | ⟨b, hb, hblock, htwo⟩)
      · cases h
      · obtain rfl := IpAddr.v6.inj hb
        exact addressKept_v6 hX hblock htwo

/-- The address `fd00::1`. -/
def uniqueLocalOne : Ipv6Addr := ⟨#v[0xfd00, 0, 0, 0, 0, 0, 0, 1]⟩

theorem addressKept_uniqueLocalTwo : AddressKept Sample.unicode (.v6 ⟨#v[0xfd00, 0, 0, 0, 0, 0, 1, 2]⟩) :=
  (addressKept_iff Sample.unicode .ascii (fun _ => rfl) _).mpr (.inr ⟨_, rfl, by decide, by decide⟩)

/-- `fd00::1` is no local address to the router, and the host of `2606:4700::1111` is `2606:4700:`. -/
theorem uniqueLocalOne_warp : uniqueLocalOne.display = "fd00::1" ∧ (IpAddr.v6 uniqueLocalOne).isLocal = true ∧
    resolveRoute Sample.unicode .browsingWarp "fd00::1" 443 "vless" none ⟨[], [], [], [], []⟩ = some "warp" ∧
    (IpAddr.v6 ⟨#v[0x2606, 0x4700, 0, 0, 0, 0, 0, 0x1111]⟩).display = "2606:4700::1111" ∧
    getHost Sample.unicode "2606:4700::1111" = some "2606:4700:" ∧
    ¬ ∀ ip, AddressKept Sample.unicode ip := by
  have hroute : resolveRoute Sample.unicode .browsingWarp "fd00::1" 443 "vless" none ⟨[], [], [], [], []⟩ =
    some "warp" := by decide
  have htext : (IpAddr.v6 uniqueLocalOne).display = "fd00::1" := by decide
  refine ⟨htext, by decide, hroute, by decide, by decide, fun h => ?_⟩
  have hdirect := (h (.v6 uniqueLocalOne)).1 (by decide) .browsingWarp 443 "vless" none ⟨[], [], [], [], []⟩
  rw [htext, hroute] at hdirect
  exact absurd hdirect (by decide)

end RXCore
