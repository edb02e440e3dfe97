import RXCore.Std
import RXCore.Config
import RXCore.Net.Text

/-!
# The address of a client behind a proxy

`get_client_ip` takes the first element of `X-Forwarded-For` from a trusted proxy. A proxy appends the address of
its peer, so the first element is what the client sent, if it sent any.

* `HeaderMap.get`, `headerToStr`, `getClientIp`: the address under which both limiters count a request;
* `Appends`, `HeaderMap.forward`: the header as a proxy passes it on;
* `namedIp`: the address that the header of the client names;
* **`clientIp_same_iff`**: two requests of a client have one address if and only if their headers name one, and a
  header can name any.
-/

set_option autoImplicit false

namespace RXCore

/-! ## Headers -/

/-- `HeaderMap`: the fields in their order, with names in lower case. -/
abbrev HeaderMap := List (String × List UInt8)

/-- All values of a field. -/
def HeaderMap.getAll (h : HeaderMap) (name : String) : List (List UInt8) :=
  (h.filter fun f => decide (f.1 = name)).map Prod.snd

/-- `HeaderMap::get`: the first value. -/
def HeaderMap.get (h : HeaderMap) (name : String) : Option (List UInt8) := (h.getAll name).head?

/-- Visible ASCII, or a tab. -/
def isVisible (b : UInt8) : Bool := (32 ≤ b.toNat && b.toNat < 127) || b == 9

/-- The text of ASCII bytes. -/
def asciiText (bs : List UInt8) : List Char := bs.map fun b => Char.ofNat b.toNat

/-- The bytes of an ASCII text. -/
def asciiBytes (cs : List Char) : List UInt8 := cs.map fun c => UInt8.ofNat c.toNat

/-- `HeaderValue::to_str`. -/
def headerToStr (v : List UInt8) : Option String :=
  if v.all isVisible then some (String.ofList (asciiText v)) else none

/-! ## The handlers -/

/-- `get_client_ip`. -/
def getClientIp (headers : HeaderMap) (peerIp : IpAddr) (api : ApiConfig) : IpAddr :=
  let isTrusted := peerIp.isLoopback || decide (peerIp ∈ api.trustedProxies)
  if isTrusted then
    match (headers.get "x-forwarded-for").bind headerToStr with
    | none => peerIp
    | some xff => match (splitAt ',' xff).head? with
      | none => peerIp
      | some firstIp => (parseIpAddr (trim firstIp)).getD peerIp
  else peerIp

/-! ## A proxy in between -/

/-- How a proxy appends an address to `X-Forwarded-For`. -/
inductive Appends where
  /-- To the one field that it makes of all. -/
  | element
  /-- As a field of its own, after the others. -/
  | field
deriving DecidableEq

/-- The fields of `X-Forwarded-For`. -/
def HeaderMap.forwarded (h : HeaderMap) : List (List UInt8) := h.getAll "x-forwarded-for"

/-- The elements of a field, with a comma and a space between them. -/
def commaSeparated (vs : List (List UInt8)) : List UInt8 := (asciiBytes [',', ' ']).intercalate vs

/-- The headers of a client as the proxy passes them on. -/
def HeaderMap.forward (h : HeaderMap) (client : IpAddr) : Appends → HeaderMap
  | .element => (h.filter fun f => decide (f.1 ≠ "x-forwarded-for")) ++
      [("x-forwarded-for", commaSeparated (h.forwarded ++ [asciiBytes client.display.toList]))]
  | .field => h ++ [("x-forwarded-for", asciiBytes client.display.toList)]

/-- The text before the first comma of a value. -/
def firstElement (v : List UInt8) : String := String.ofList ((asciiText v).takeWhile fun c => decide (c ≠ ','))

/-- What the proxy passes on of the values of the client can be read as text. -/
def Appends.readable (how : Appends) (v : List UInt8) (vs : List (List UInt8)) : Bool :=
  match how with
  | .element => v.all isVisible && vs.all fun v => v.all isVisible
  | .field => v.all isVisible

/-- The address that the header of a client names: its own if it sends none, and that of the proxy if what it sends
is no address. -/
def namedIp (how : Appends) (client proxy : IpAddr) (h : HeaderMap) : IpAddr :=
  match h.forwarded with
  | [] => client
  | v :: vs => if how.readable v vs then (parseIpAddr (trim (firstElement v))).getD proxy else proxy

/-! ## Text of an address -/

section

variable {cs ds : List Char} {c : Char}

/-- A character that is visible, no comma and no white space. -/
def IsAddressChar (c : Char) : Prop := (32 ≤ c.toNat ∧ c.toNat < 127) ∧ c ≠ ',' ∧ isWhitespace c = false

instance (c : Char) : Decidable (IsAddressChar c) :=
  inferInstanceAs (Decidable ((32 ≤ c.toNat ∧ c.toNat < 127) ∧ c ≠ ',' ∧ isWhitespace c = false))

theorem isAddressChar_display (a : IpAddr) : ∀ c ∈ a.display.toList, IsAddressChar c := by
  have hall : ∀ c ∈ displayChars, IsAddressChar c := by simp [displayChars, IsAddressChar, isWhitespace]
  exact fun c hc => hall c (mem_displayChars a c hc)

/-! ## Reading the header -/

theorem asciiText_bytes (h : ∀ c ∈ cs, IsAddressChar c) : asciiText (asciiBytes cs) = cs := by
  rw [asciiText, asciiBytes, List.map_map]
  conv_rhs => rw [← List.map_id cs]
  refine List.map_congr_left fun c hc => ?_
  have hc := (h c hc).1.2
  show Char.ofNat (UInt8.ofNat c.toNat).toNat = c
  rw [UInt8.toNat_ofNat_of_lt' (hc.trans (by decide)), Char.ofNat_toNat]

theorem visible_bytes (h : ∀ c ∈ cs, IsAddressChar c) : (asciiBytes cs).all isVisible = true := by
  refine List.all_eq_true.mpr fun b hb => ?_
  obtain ⟨c, hc, rfl⟩ := List.mem_map.mp hb
  have hc := (h c hc).1
  have hlt : c.toNat < UInt8.size := hc.2.trans (by decide)
  simp only [isVisible, UInt8.toNat_ofNat_of_lt' hlt, Bool.or_eq_true, Bool.and_eq_true, decide_eq_true_eq]
  exact .inl hc

/-- The first piece between separators. -/
theorem head_splitOn (sep : Char) (cs : List Char) :
    (cs.splitOn sep).head? = some (cs.takeWhile fun c => decide (c ≠ sep)) := by
  induction cs with
  | nil => rfl
  | cons c cs ih =>
    rw [List.splitOn, List.splitOnP_cons_eq_if_modifyHead]
    by_cases hc : c = sep
    · subst hc
      simp
    · have hbeq : (c == sep) = false := beq_false_of_ne hc
      rw [List.splitOn] at ih
      rw [hbeq, if_neg Bool.false_ne_true, List.takeWhile_cons_of_pos (by simpa using hc), List.head?_modifyHead, ih]
      rfl

theorem head_splitAt (sep : Char) (cs : List Char) :
    (splitAt sep (String.ofList cs)).head? = some (String.ofList (cs.takeWhile fun c => decide (c ≠ sep))) := by
  simp only [splitAt, String.toList_ofList, List.head?_map, head_splitOn, Option.map_some]

theorem takeWhile_ne_append {rest : List Char} (h : rest.head? = some ',') :
    (cs ++ rest).takeWhile (fun c => decide (c ≠ ',')) = cs.takeWhile fun c => decide (c ≠ ',') := by
  induction cs with
  | nil =>
    cases rest with
    | nil => cases h
    | cons c rest =>
      obtain rfl := Option.some.inj h
      rfl
  | cons c cs ih =>
    rw [List.cons_append]
    by_cases hc : c = ','
    · subst hc
      rfl
    · rw [List.takeWhile_cons_of_pos (by simpa using hc), List.takeWhile_cons_of_pos (by simpa using hc), ih]

theorem takeWhile_address (h : ∀ c ∈ cs, IsAddressChar c) : (cs.takeWhile fun c => decide (c ≠ ',')) = cs :=
  List.takeWhile_eq_self_iff.mpr fun c hc => decide_eq_true (h c hc).2.1

/-- What a trusted proxy passes on is read up to its first comma. -/
theorem getClientIp_value {headers : HeaderMap} {peerIp : IpAddr} {api : ApiConfig} {v : List UInt8}
    (htrusted : peerIp.isLoopback = true ∨ peerIp ∈ api.trustedProxies)
    (hget : headers.get "x-forwarded-for" = some v) :
    getClientIp headers peerIp api =
      if v.all isVisible then (parseIpAddr (trim (firstElement v))).getD peerIp else peerIp := by
  have htrust : (peerIp.isLoopback || decide (peerIp ∈ api.trustedProxies)) = true := by
    simpa using htrusted
  rw [getClientIp, if_pos htrust, hget, Option.bind_some, headerToStr]
  split_ifs with hv
  · dsimp only
    rw [head_splitAt]
    rfl
  · rfl

end

/-! ## What a proxy passes on -/

section

variable {peerIp client : IpAddr} {api : ApiConfig} {h h₁ h₂ : HeaderMap} {v : List UInt8} {vs : List (List UInt8)}

theorem commaSeparated_cons (v w : List UInt8) (vs : List (List UInt8)) :
    commaSeparated (v :: w :: vs) = v ++ 44 :: 32 :: commaSeparated (w :: vs) := by
  simp only [commaSeparated, List.intercalate_cons_cons]
  rw [List.append_assoc]
  rfl

theorem commaSeparated_visible (v : List UInt8) (vs : List (List UInt8)) :
    (commaSeparated (v :: vs)).all isVisible = (v.all isVisible && vs.all fun v => v.all isVisible) := by
  induction vs generalizing v with
  | nil => rw [commaSeparated, List.intercalate_singleton, List.all_nil, Bool.and_true]
  | cons w vs ih =>
    rw [commaSeparated_cons, List.all_append, List.all_cons, List.all_cons, ih w, List.all_cons]
    rfl

theorem firstElement_commaSeparated (v w : List UInt8) (vs : List (List UInt8)) :
    firstElement (commaSeparated (v :: w :: vs)) = firstElement v := by
  rw [commaSeparated_cons, firstElement, asciiText, List.map_append, takeWhile_ne_append rfl]
  rfl

theorem firstElement_display (a : IpAddr) : firstElement (asciiBytes a.display.toList) = a.display := by
  rw [firstElement, asciiText_bytes (isAddressChar_display a), takeWhile_address (isAddressChar_display a),
    String.ofList_toList]

/-- An address is read from a header as it was written. -/
theorem parse_display (a : IpAddr) : parseIpAddr (trim (firstElement (asciiBytes a.display.toList))) = some a := by
  rw [firstElement_display, trim, trimList_eq fun c hc => (isAddressChar_display a c hc).2.2, String.ofList_toList,
    parseIpAddr_display]

theorem get_forward_element (h : HeaderMap) (client : IpAddr) :
    (h.forward client .element).get "x-forwarded-for" =
      some (commaSeparated (h.forwarded ++ [asciiBytes client.display.toList])) := by
  have hrest : (h.filter fun f => decide (f.1 ≠ "x-forwarded-for")).filter
      (fun f => decide (f.1 = "x-forwarded-for")) = [] := by
    rw [List.filter_filter, List.filter_eq_nil_iff]
    intro f _
    simp
  rw [HeaderMap.get, HeaderMap.getAll, HeaderMap.forward, List.filter_append, hrest]
  rfl

theorem get_forward_field (h : HeaderMap) (client : IpAddr) :
    (h.forward client .field).get "x-forwarded-for" =
      (h.forwarded ++ [asciiBytes client.display.toList]).head? := by
  rw [HeaderMap.get, HeaderMap.getAll, HeaderMap.forward, List.filter_append, List.map_append]
  rfl

/-- **The address of a request** that a trusted proxy passes on is the one that the header of the client names. -/
theorem getClientIp_forward (htrusted : peerIp.isLoopback = true ∨ peerIp ∈ api.trustedProxies) (how : Appends)
    (client : IpAddr) (h : HeaderMap) :
    getClientIp (h.forward client how) peerIp api = namedIp how client peerIp h := by
  have hown : (if (asciiBytes client.display.toList).all isVisible then
      (parseIpAddr (trim (firstElement (asciiBytes client.display.toList)))).getD peerIp else peerIp) = client := by
    rw [if_pos (visible_bytes (isAddressChar_display client)), parse_display, Option.getD_some]
  rw [namedIp]
  cases how with
  | element =>
    rw [getClientIp_value htrusted (get_forward_element h client)]
    cases hvs : h.forwarded with
    | nil =>
      rw [List.nil_append, commaSeparated, List.intercalate_singleton]
      exact hown
    | cons v vs =>
      obtain ⟨w, ws, hws⟩ : ∃ w ws, vs ++ [asciiBytes client.display.toList] = w :: ws :=
        List.exists_cons_of_ne_nil (by simp)
      have hvisible : (w :: ws).all (fun v => v.all isVisible) = vs.all fun v => v.all isVisible := by
        rw [← hws, List.all_append, List.all_cons, visible_bytes (isAddressChar_display client), List.all_nil,
          Bool.true_and, Bool.and_true]
      rw [List.cons_append, hws, commaSeparated_visible, hvisible, firstElement_commaSeparated]
      rfl
  | field =>
    cases hvs : h.forwarded with
    | nil =>
      rw [getClientIp_value htrusted (by rw [get_forward_field, hvs]; rfl)]
      exact hown
    | cons v vs =>
      rw [getClientIp_value htrusted (by rw [get_forward_field, hvs]; rfl)]
      rfl

/-- A client can name any address. -/
theorem namedIp_display (how : Appends) (client proxy a : IpAddr) :
    namedIp how client proxy [("x-forwarded-for", asciiBytes a.display.toList)] = a := by
  have hvisible := visible_bytes (isAddressChar_display a)
  have hreadable : how.readable (asciiBytes a.display.toList) [] = true := by
    cases how with
    | element => rw [Appends.readable, hvisible, List.all_nil, Bool.true_and]
    | field => exact hvisible
  show (if how.readable (asciiBytes a.display.toList) [] then
    (parseIpAddr (trim (firstElement (asciiBytes a.display.toList)))).getD proxy else proxy) = a
  rw [if_pos hreadable, parse_display, Option.getD_some]

/-- **Two requests of a client** through a trusted proxy are counted under one address if and only if their headers
name one; and a header can name any address, so no proxy and no client are safe from it. -/
theorem clientIp_same_iff (htrusted : peerIp.isLoopback = true ∨ peerIp ∈ api.trustedProxies) (how : Appends)
    (client : IpAddr) :
    (∀ h₁ h₂ : HeaderMap, getClientIp (h₁.forward client how) peerIp api =
        getClientIp (h₂.forward client how) peerIp api ↔
      namedIp how client peerIp h₁ = namedIp how client peerIp h₂) ∧
    ∀ a : IpAddr, ∃ h : HeaderMap, getClientIp (h.forward client how) peerIp api = a := by
  refine ⟨fun h₁ h₂ => ?_, fun a => ⟨_, (getClientIp_forward htrusted how client _).trans (namedIp_display ..)⟩⟩
  rw [getClientIp_forward htrusted, getClientIp_forward htrusted]

/-- A reverse proxy on the same host. -/
def localApi : ApiConfig := ⟨.v4 .localhost, 8080, []⟩

theorem clientIp_same_local :
    (∀ h₁ h₂ : HeaderMap, getClientIp (h₁.forward (.v4 (.new 203 0 113 9)) .element) (.v4 .localhost) localApi =
        getClientIp (h₂.forward (.v4 (.new 203 0 113 9)) .element) (.v4 .localhost) localApi ↔
      namedIp .element (.v4 (.new 203 0 113 9)) (.v4 .localhost) h₁ =
        namedIp .element (.v4 (.new 203 0 113 9)) (.v4 .localhost) h₂) ∧
    ∀ a : IpAddr, ∃ h : HeaderMap,
      getClientIp (h.forward (.v4 (.new 203 0 113 9)) .element) (.v4 .localhost) localApi = a :=
  clientIp_same_iff (.inl rfl) .element (.v4 (.new 203 0 113 9))

/-- A client that sends the address of another is counted under it. -/
theorem clientIp_forged : ¬ ∀ (peerIp : IpAddr) (api : ApiConfig) (how : Appends) (client : IpAddr)
    (h₁ h₂ : HeaderMap), peerIp.isLoopback = true ∨ peerIp ∈ api.trustedProxies →
      getClientIp (h₁.forward client how) peerIp api = getClientIp (h₂.forward client how) peerIp api := by
  intro h
  have hsame := h (.v4 .localhost) localApi .element (.v4 (.new 203 0 113 9)) []
    [("x-forwarded-for", asciiBytes (IpAddr.v4 (.new 198 51 100 7)).display.toList)] (.inl rfl)
  rw [getClientIp_forward (.inl rfl), getClientIp_forward (.inl rfl), namedIp_display] at hsame
  exact absurd hsame (by decide)

end

end RXCore
