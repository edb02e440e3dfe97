import RXCore.Transport.Reality
import RXCore.Lib.Cursor

/-!
# The ClientHello parser on its buffer

`parse_client_hello` as it walks over the bytes that an unauthenticated client has sent: every access to the
buffer can panic, and every loop has the steps it is given.

* `hostNameLoop`, `keySharesLoop`, `extensionsLoop`: the loops, each as the parser of its list;
* **`parseClientHelloBuf_eq`**: there are no panics, and the loops end;
* **`parse_client_hello_safe`**: what the parser returns is where it says it is.
-/

set_option autoImplicit false

namespace RXCore

open Encoding Cursor Cursor.Walk

/-! ## The parser -/

/-- The loop over the server names. -/
def hostNameLoop : ℕ → Option String → List UInt8 → Walk (Option String)
  | 0, _, _ => outOfFuel
  | fuel + 1, serverName, list =>
    if list = [] then ok serverName
    else if list.length < 3 then ok serverName
    else do
      let (nameType, list) ← getU8 list
      let (nameLen, list) ← getU16 list
      if list.length < nameLen then ok serverName
      else if nameType = 0x00 then do
        let (nameBytes, _) ← copyToSlice list nameLen
        ok ((fromUtf8 nameBytes).or serverName)
      else do
        let list ← advance list nameLen
        hostNameLoop fuel serverName list

/-- The loop over the key shares. -/
def keySharesLoop : ℕ → Option (List UInt8) → List UInt8 → Walk (Option (List UInt8))
  | 0, _, _ => outOfFuel
  | fuel + 1, publicKey, shares =>
    if shares = [] then ok publicKey
    else if shares.length < 4 then ok publicKey
    else do
      let (group, shares) ← getU16 shares
      let (keyLen, shares) ← getU16 shares
      if shares.length < keyLen then ok publicKey
      else if group = 0x001d ∧ keyLen = 32 then do
        let (key, _) ← copyToSlice shares 32
        ok (some key)
      else do
        let shares ← advance shares keyLen
        keySharesLoop fuel publicKey shares

/-- What the extension of the server names gives. -/
def serverNameExtension (fuel : ℕ) (serverName : Option String) (extData : List UInt8) :
    Walk (Option String) :=
  if 2 ≤ extData.length then do
    let (listLen, extData) ← getU16 extData
    if listLen ≤ extData.length then do
      let list ← sliceTo extData listLen
      hostNameLoop fuel serverName list
    else ok serverName
  else ok serverName

/-- What the extension of the key shares gives, unless the loop goes on at once (`continue`). -/
def keyShareExtension (fuel : ℕ) (publicKey : Option (List UInt8)) (extData : List UInt8) :
    Walk (Option (Option (List UInt8))) :=
  if extData.length < 2 then ok none
  else do
    let (sharesLen, extData) ← getU16 extData
    if extData.length < sharesLen then ok none
    else do
      let shares ← sliceTo extData sharesLen
      let publicKey ← keySharesLoop fuel publicKey shares
      ok (some publicKey)

/-- The loop over the extensions. -/
def extensionsLoop : ℕ → Option (List UInt8) → Option String → List UInt8 →
    Walk (Option (List UInt8) × Option String)
  | 0, _, _, _ => outOfFuel
  | fuel + 1, publicKey, serverName, extensions =>
    if extensions = [] then ok (publicKey, serverName)
    else if extensions.length < 4 then ok (publicKey, serverName)
    else do
      let (extType, extensions) ← getU16 extensions
      let (extLen, extensions) ← getU16 extensions
      if extensions.length < extLen then ok (publicKey, serverName)
      else do
        let extData ← sliceTo extensions extLen
        let extensions ← advance extensions extLen
        let serverName ← if extType = 0x0000 then serverNameExtension fuel serverName extData
          else ok serverName
        let found ← if extType = 0x0033 then keyShareExtension fuel publicKey extData
          else ok (some publicKey)
        match found with
        | none => extensionsLoop fuel publicKey serverName extensions
        | some publicKey =>
          if publicKey.isSome && serverName.isSome then ok (publicKey, serverName)
          else extensionsLoop fuel publicKey serverName extensions

/-- What follows the session id: cipher suites, compression methods, extensions. -/
def parseAfterSessionIdBuf (fuel : ℕ) (cursor : List UInt8) :
    Walk (Option (List UInt8) × Option String) :=
  if cursor.length < 2 then err "Short buffer for Cipher Suites Len"
  else do
    let (cipherSuitesLen, cursor) ← getU16 cursor
    if cursor.length < cipherSuitesLen then err "Short buffer for Cipher Suites"
    else do
      let cursor ← advance cursor cipherSuitesLen
      if cursor.length < 1 then err "Short buffer for Compression Methods Len"
      else do
        let (compressionMethodsLen, cursor) ← getU8 cursor
        if cursor.length < compressionMethodsLen.toNat then err "Short buffer for Compression Methods"
        else do
          let cursor ← advance cursor compressionMethodsLen.toNat
          if cursor.length < 2 then ok (none, none)
          else do
            let (extensionsLen, cursor) ← getU16 cursor
            if cursor.length < extensionsLen then err "Short buffer for Extensions"
            else do
              let extensions ← sliceTo cursor extensionsLen
              extensionsLoop fuel none none extensions

/-- `parse_client_hello`, with the steps that its loops are given. -/
def parseClientHelloBuf (fuel : ℕ) (handshakePayload : List UInt8) : Walk (Option ClientHelloInfo) :=
  if handshakePayload.length < 4 then ok none
  else do
    let msgType ← index handshakePayload 0
    if msgType ≠ 0x01 then ok none
    else do
      let cursor ← sliceFrom handshakePayload 4
      if cursor.length < 2 then err "Short buffer for Version"
      else do
        let cursor ← advance cursor 2
        if cursor.length < 32 then err "Short buffer for Random"
        else do
          let (clientRandom, cursor) ← copyToSlice cursor 32
          if cursor.length < 1 then err "Short buffer for Session ID length"
          else do
            let (sessionIdLen, cursor) ← getU8 cursor
            if cursor.length < sessionIdLen.toNat then err "Short buffer for Session ID"
            else do
              let sessionIdOffset ← subLen handshakePayload.length cursor.length
              let (sessionId, cursor) ← copyToSlice cursor sessionIdLen.toNat
              let (publicKey, serverName) ← parseAfterSessionIdBuf fuel cursor
              ok (some ⟨sessionId, sessionIdOffset, clientRandom, publicKey, serverName⟩)

/-! ## The loops -/

section

variable {fuel : ℕ} {serverName : Option String} {publicKey : Option (List UInt8)} {bs : List UInt8}

theorem getU16_u16 (a b : UInt8) (bs : List UInt8) : getU16 (a :: b :: bs) = ok (u16 a b, bs) := rfl

theorem hostNameLoop_eq (h : bs.length < fuel) :
    hostNameLoop fuel serverName bs = ok ((parseHostName bs).or serverName) := by
  induction fuel generalizing bs with
  | zero => omega
  | succ fuel ih =>
    match bs with
    | [] | [_] | [_, _] => simp [hostNameLoop, parseHostName]
    | t :: l1 :: l2 :: r =>
      have hlen : ¬ (t :: l1 :: l2 :: r).length < 3 := by simp
      rw [hostNameLoop, if_neg (List.cons_ne_nil _ _), if_neg hlen, parseHostName]
      simp only [getU8_cons, getU16_u16, ok_bind]
      by_cases hshort : r.length < u16 l1 l2
      · rw [if_pos hshort, if_pos hshort, Option.none_or]
      rw [if_neg hshort, if_neg hshort]
      by_cases ht : t = 0
      · rw [if_pos ht, if_pos ht, copyToSlice_ok (by omega), ok_bind]
      rw [if_neg ht, if_neg ht, advance_ok (by omega), ok_bind]
      exact ih (by simp at h ⊢; omega)

theorem keySharesLoop_eq (h : bs.length < fuel) :
    keySharesLoop fuel publicKey bs = ok ((parseKeyShares bs).or publicKey) := by
  induction fuel generalizing bs with
  | zero => omega
  | succ fuel ih =>
    match bs with
    | [] | [_] | [_, _] | [_, _, _] => simp [keySharesLoop, parseKeyShares]
    | g1 :: g2 :: l1 :: l2 :: r =>
      have hlen : ¬ (g1 :: g2 :: l1 :: l2 :: r).length < 4 := by simp
      rw [keySharesLoop, if_neg (List.cons_ne_nil _ _), if_neg hlen, parseKeyShares]
      simp only [getU16_u16, ok_bind]
      by_cases hshort : r.length < u16 l1 l2
      · rw [if_pos hshort, if_pos hshort, Option.none_or]
      rw [if_neg hshort, if_neg hshort]
      by_cases hgroup : u16 g1 g2 = 0x001d ∧ u16 l1 l2 = 32
      · rw [if_pos hgroup, if_pos hgroup, copyToSlice_ok (by omega), ok_bind, Option.some_or]
      rw [if_neg hgroup, if_neg hgroup, advance_ok (by omega), ok_bind]
      exact ih (by simp at h ⊢; omega)

theorem serverNameExtension_eq (h : bs.length < fuel) :
    serverNameExtension fuel serverName bs = ok (((extensionList bs).bind parseHostName).or serverName) := by
  match bs with
  | [] | [_] => simp [serverNameExtension, extensionList]
  | l1 :: l2 :: r =>
    have hlen : 2 ≤ (l1 :: l2 :: r).length := by simp
    rw [serverNameExtension, if_pos hlen, extensionList]
    simp only [getU16_u16, ok_bind]
    by_cases hshort : r.length < u16 l1 l2
    · rw [if_neg (by omega), if_pos hshort]
      rfl
    rw [if_pos (by omega), if_neg hshort, sliceTo_ok (by omega), ok_bind, Option.bind_some]
    refine hostNameLoop_eq ?_
    have := List.length_take_le (u16 l1 l2) r
    simp at h ⊢
    omega

/-- The loop goes on at once when the extension holds no list. -/
theorem keyShareExtension_eq (h : bs.length < fuel) : keyShareExtension fuel publicKey bs =
    ok ((extensionList bs).map fun shares => (parseKeyShares shares).or publicKey) := by
  match bs with
  | [] | [_] => simp [keyShareExtension, extensionList]
  | l1 :: l2 :: r =>
    have hlen : ¬ (l1 :: l2 :: r).length < 2 := by simp
    rw [keyShareExtension, if_neg hlen, extensionList]
    simp only [getU16_u16, ok_bind]
    by_cases hshort : r.length < u16 l1 l2
    · rw [if_pos hshort, if_pos hshort]
      rfl
    rw [if_neg hshort, if_neg hshort, sliceTo_ok (by omega), ok_bind, keySharesLoop_eq, ok_bind]
    · rfl
    · simp at h ⊢
      omega

/-- **The loop over the extensions**, from where not both values are known. -/
theorem extensionsLoop_eq (hopen : (publicKey.isSome && serverName.isSome) = false) (h : bs.length < fuel) :
    extensionsLoop fuel publicKey serverName bs = ok (parseExtensions publicKey serverName bs) := by
  induction fuel generalizing publicKey serverName bs with
  | zero => omega
  | succ fuel ih =>
    match bs with
    | [] | [_] | [_, _] | [_, _, _] => simp [extensionsLoop, parseExtensions]
    | t1 :: t2 :: l1 :: l2 :: r =>
      have hlen : ¬ (t1 :: t2 :: l1 :: l2 :: r).length < 4 := by simp
      have hfuel : r.length < fuel := by simp at h; omega
      have htake : (r.take (u16 l1 l2)).length < fuel := by
        rw [List.length_take]
        omega
      have hdrop : (r.drop (u16 l1 l2)).length < fuel := by
        rw [List.length_drop]
        omega
      rw [extensionsLoop, if_neg (List.cons_ne_nil _ _), if_neg hlen, parseExtensions]
      simp only [getU16_u16, ok_bind]
      by_cases hshort : r.length < u16 l1 l2
      · rw [if_pos hshort, if_pos hshort]
      rw [if_neg hshort, if_neg hshort, sliceTo_ok (by omega), ok_bind, advance_ok (by omega), ok_bind,
        serverNameExtension_eq htake, keyShareExtension_eq htake]
      by_cases hname : u16 t1 t2 = 0x0000
      · have hshare : ¬ u16 t1 t2 = 0x0033 := by omega
        simp only [if_pos hname, if_neg hshare, ok_bind]
        split_ifs with hboth
        · rfl
        · exact ih (by simpa using hboth) hdrop
      · simp only [if_neg hname, ok_bind]
        by_cases hshare : u16 t1 t2 = 0x0033
        · simp only [if_pos hshare]
          cases hlist : extensionList (r.take (u16 l1 l2)) with
          | none =>
            -- `continue` skips a test that fails
            simp only [Option.map_none, Option.bind_none, Option.none_or, hopen, Bool.false_eq_true, if_false]
            exact ih hopen hdrop
          | some shares =>
            simp only [Option.map_some, Option.bind_some]
            split_ifs with hboth
            · rfl
            · exact ih (by simpa using hboth) hdrop
        · simp only [if_neg hshare, hopen, Bool.false_eq_true, if_false]
          exact ih hopen hdrop

end

/-! ## The whole message -/

section

variable {payload bs : List UInt8} {fuel : ℕ}

theorem parseAfterSessionIdBuf_eq (h : bs.length < fuel) :
    parseAfterSessionIdBuf fuel bs = Walk.ofExcept (parseAfterSessionId bs) := by
  obtain _ | ⟨c1, _ | ⟨c2, r⟩⟩ := bs
  · simp [parseAfterSessionIdBuf, parseAfterSessionId]
  · simp [parseAfterSessionIdBuf, parseAfterSessionId]
  · -- the cipher suites
    have hlen : ¬ (c1 :: c2 :: r).length < 2 := by simp
    rw [parseAfterSessionIdBuf, if_neg hlen, parseAfterSessionId]
    simp only [getU16_u16, ok_bind]
    by_cases hshort : r.length < u16 c1 c2
    · rw [if_pos hshort, if_pos hshort]
      rfl
    rw [if_neg hshort, if_neg hshort, advance_ok (by omega), ok_bind]
    have hr : (r.drop (u16 c1 c2)).length < fuel := by
      simp at h ⊢
      omega
    generalize r.drop (u16 c1 c2) = r at hr
    obtain _ | ⟨m, r⟩ := r
    · simp
    · -- the compression methods
      have hlen : ¬ (m :: r).length < 1 := by simp
      simp only [if_neg hlen, getU8_cons, ok_bind]
      by_cases hshort : r.length < m.toNat
      · rw [if_pos hshort, if_pos hshort]
        rfl
      rw [if_neg hshort, if_neg hshort, advance_ok (by omega), ok_bind]
      replace hr : (r.drop m.toNat).length < fuel := by
        simp at hr ⊢
        omega
      generalize r.drop m.toNat = r at hr
      obtain _ | ⟨e1, _ | ⟨e2, r⟩⟩ := r
      · simp
      · simp
      · -- the extensions
        have hlen : ¬ (e1 :: e2 :: r).length < 2 := by simp
        simp only [if_neg hlen, getU16_u16, ok_bind]
        by_cases hshort : r.length < u16 e1 e2
        · rw [if_pos hshort, if_pos hshort]
          rfl
        rw [if_neg hshort, if_neg hshort, sliceTo_ok (by omega), ok_bind, extensionsLoop_eq rfl]
        · rfl
        · have := List.length_take_le (u16 e1 e2) r
          simp at hr ⊢
          omega

/-- **The parser neither panics nor loops**: it comes to what the parser on lists comes to. -/
theorem parseClientHelloBuf_eq (h : payload.length < fuel) :
    parseClientHelloBuf fuel payload = Walk.ofExcept (parseClientHello payload) := by
  rw [parseClientHelloBuf, parseClientHello]
  by_cases h4 : payload.length < 4
  · rw [if_pos h4, if_pos h4]
    rfl
  rw [if_neg h4, if_neg h4]
  have hindex : index payload 0 = ok (payload.head (List.ne_nil_of_length_pos (by omega))) := by
    rw [index, dif_pos (by omega), List.head_eq_getElem]
  have hhead : payload.head? ≠ some 1 ↔ payload.head (List.ne_nil_of_length_pos (by omega)) ≠ 1 := by
    rw [List.head?_eq_some_head (List.ne_nil_of_length_pos (by omega))]
    simp
  rw [hindex, ok_bind]
  by_cases h1 : payload.head? ≠ some 1
  · rw [if_pos h1, if_pos (hhead.mp h1)]
    rfl
  rw [if_neg h1, if_neg (fun hn => h1 (hhead.mpr hn)), sliceFrom_ok (by omega), ok_bind]
  have hdrop4 : (payload.drop 4).length = payload.length - 4 := List.length_drop
  by_cases h2 : (payload.drop 4).length < 2
  · simp only [if_pos h2]
    rfl
  simp only [if_neg h2]
  rw [advance_ok (by omega), ok_bind]
  have hdrop6 : ((payload.drop 4).drop 2).length = payload.length - 6 := by
    rw [List.length_drop]
    omega
  generalize hcursor : (payload.drop 4).drop 2 = cursor at hdrop6
  by_cases h32 : cursor.length < 32
  · simp only [if_pos h32]
    rfl
  simp only [if_neg h32]
  rw [copyToSlice_ok (by omega), ok_bind]
  have hdrop38 : (cursor.drop 32).length = payload.length - 38 := by
    rw [List.length_drop]
    omega
  generalize cursor.drop 32 = sid at hdrop38
  obtain _ | ⟨l, r⟩ := sid
  · simp
  · -- the session id
    have hlen : ¬ (l :: r).length < 1 := by simp
    simp only [if_neg hlen, getU8_cons, ok_bind]
    by_cases hshort : r.length < l.toNat
    · rw [if_pos hshort, if_pos hshort]
      rfl
    have hr : (r.drop l.toNat).length < fuel := by
      simp at hdrop38 ⊢
      omega
    rw [if_neg hshort, if_neg hshort, subLen_ok (by simp at hdrop38; omega), ok_bind,
      copyToSlice_ok (by omega), ok_bind, parseAfterSessionIdBuf_eq hr]
    cases parseAfterSessionId (r.drop l.toNat) <;> rfl

theorem parseKeyShares_length {key : List UInt8} (h : parseKeyShares bs = some key) : key.length = 32 := by
  fun_induction parseKeyShares bs with
  | case1 g1 g2 l1 l2 r hshort => cases h
  | case2 g1 g2 l1 l2 r hshort hgroup =>
    obtain rfl := Option.some.inj h
    rw [List.length_take]
    omega
  | case3 g1 g2 l1 l2 r hshort hgroup ih => exact ih h
  | case4 => cases h

/-- What an extension adds is the key of a share. -/
theorem keyShare_length {publicKey data : Option (List UInt8)} {extType : ℕ}
    (hpk : ∀ key ∈ publicKey, key.length = 32) :
    ∀ key ∈ (if extType = 0x0033 then (data.bind parseKeyShares).or publicKey else publicKey), key.length = 32 := by
  intro key hkey
  split_ifs at hkey with hshare
  · rcases Option.or_eq_some_iff.mp hkey with hfound | ⟨-, hold⟩
    · obtain ⟨shares, -, hparse⟩ := Option.bind_eq_some_iff.mp hfound
      exact parseKeyShares_length hparse
    · exact hpk key hold
  · exact hpk key hkey

/-- A key that the loop finds is that of a share. -/
theorem parseExtensions_length {publicKey : Option (List UInt8)} {serverName : Option String}
    (hpk : ∀ key ∈ publicKey, key.length = 32) :
    ∀ key ∈ (parseExtensions publicKey serverName bs).1, key.length = 32 := by
  fun_induction parseExtensions publicKey serverName bs with
  | case1 => exact hpk
  | case2 => exact keyShare_length hpk
  | case3 publicKey serverName t1 t2 l1 l2 r hshort data serverName' publicKey' hopen ih => exact ih (keyShare_length hpk)
  | case4 => exact hpk

theorem parseAfterSessionId_length {serverName : Option String} {publicKey : Option (List UInt8)}
    (h : parseAfterSessionId bs = .ok (publicKey, serverName)) : ∀ key ∈ publicKey, key.length = 32 := by
  unfold parseAfterSessionId at h
  have hparsed : ∀ {exts : List UInt8}, parseExtensions none none exts = (publicKey, serverName) →
      ∀ key ∈ publicKey, key.length = 32 := by
    intro exts hexts
    have := @parseExtensions_length exts none none nofun
    rwa [hexts] at this
  split at h
  · split_ifs at h
    split at h
    · cases h
    · split_ifs at h
      split at h
      · split_ifs at h
        exact hparsed (Except.ok.inj h)
      · obtain ⟨rfl, -⟩ := Prod.mk.inj (Except.ok.inj h)
        nofun
  · cases h

/-- **`parse_client_hello` on every slice of bytes**: it returns without an access outside the slice, and what
it returns lies in the slice where it says. -/
theorem parse_client_hello_safe (h : payload.length < fuel) : (parseClientHelloBuf fuel payload).Returns ∧
    ∀ info, parseClientHelloBuf fuel payload = ok (some info) →
      info.sessionIdOffset + info.sessionId.length ≤ payload.length ∧
      slice payload info.sessionIdOffset info.sessionId.length = info.sessionId ∧
      38 ≤ payload.length ∧ info.clientRandom = slice payload 6 32 ∧
      ∀ key ∈ info.publicKey, key.length = 32 := by
  rw [parseClientHelloBuf_eq h]
  refine ⟨Walk.returns_ofExcept _, fun info hinfo => ?_⟩
  obtain ⟨hdr, len, rest, rfl, hhdr, -, hlen, hrest, hoff, hrand⟩ :=
    parseClientHello_iff.mp (Walk.ofExcept_eq_ok.mp hinfo)
  have htotal : (hdr ++ len :: (info.sessionId ++ rest)).length = 39 + info.sessionId.length + rest.length := by
    simp only [List.length_append, List.length_cons, hhdr]
    omega
  refine ⟨by omega, ?_, by omega, ?_, parseAfterSessionId_length hrest⟩
  · have hpre : (hdr ++ [len]).length = 39 := by simp [hhdr]
    have := slice_append (hdr ++ [len]) info.sessionId rest
    rw [hpre] at this
    rw [hoff]
    simpa using this
  · rw [hrand, slice, List.drop_append_of_le_length (by omega), List.take_append_of_le_length]
    · exact (List.take_of_length_le (by rw [List.length_drop]; omega)).symm
    · rw [List.length_drop]
      omega

/-- **The session id of a client's message** is where the parser says. -/
theorem parse_client_hello_safe_plain :
    (parseClientHelloBuf 128 (plainClientHello Sample.random Sample.ciphertext Sample.clientPublic.toList)).Returns ∧
      slice (plainClientHello Sample.random Sample.ciphertext Sample.clientPublic.toList) 39 32 =
        Sample.ciphertext := by
  have hsafe := @parse_client_hello_safe
    (plainClientHello Sample.random Sample.ciphertext Sample.clientPublic.toList) 128 (by decide)
  refine ⟨hsafe.1, (hsafe.2 (plainInfo Sample.random Sample.ciphertext Sample.clientPublic.toList) ?_).2.1⟩
  rw [parseClientHelloBuf_eq (by decide), parseClientHello_plain rfl rfl rfl]
  rfl

end

end RXCore
