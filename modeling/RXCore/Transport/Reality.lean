import RXCore.Config

/-!
# Reality

The ClientHello parser, the authentication of a client and the runtime built from a profile.

* `parseClientHello`, with **`parseClientHello_iff`**: what a parsed message looks like;
* `RealityServerRustls`, `verifyClientReality`, `RealityRuntime.new`;
* `sealClientHello`: what a client does, as the repository's test client does it;
* `Complete`, `Sound`, and **`complete_sound_iff`**: for which short ids both hold.
-/

set_option autoImplicit false

namespace RXCore

open Encoding

/-! ## The ClientHello parser -/

structure ClientHelloInfo where
  sessionId : List UInt8
  sessionIdOffset : ℕ
  clientRandom : List UInt8
  publicKey : Option (List UInt8)
  serverName : Option String

/-- The first `host_name` entry of a server name list. -/
def parseHostName : List UInt8 → Option String
  | t :: l1 :: l2 :: r =>
    if r.length < u16 l1 l2 then none
    else if t = 0 then fromUtf8 (r.take (u16 l1 l2))
    else parseHostName (r.drop (u16 l1 l2))
  | _ => none
termination_by l => l.length

/-- The first X25519 share of a key share list. -/
def parseKeyShares : List UInt8 → Option (List UInt8)
  | g1 :: g2 :: l1 :: l2 :: r =>
    if r.length < u16 l1 l2 then none
    else if u16 g1 g2 = 0x001d ∧ u16 l1 l2 = 32 then some (r.take 32)
    else parseKeyShares (r.drop (u16 l1 l2))
  | _ => none
termination_by l => l.length

/-- The list inside an extension, behind its length. -/
def extensionList : List UInt8 → Option (List UInt8)
  | l1 :: l2 :: r => if r.length < u16 l1 l2 then none else some (r.take (u16 l1 l2))
  | _ => none

/-- The loop over the extensions; it stops when both values are known. -/
def parseExtensions (publicKey : Option (List UInt8)) (serverName : Option String) :
    List UInt8 → Option (List UInt8) × Option String
  | t1 :: t2 :: l1 :: l2 :: r =>
    if r.length < u16 l1 l2 then (publicKey, serverName)
    else
      let data := extensionList (r.take (u16 l1 l2))
      let serverName := if u16 t1 t2 = 0x0000 then (data.bind parseHostName).or serverName
        else serverName
      let publicKey := if u16 t1 t2 = 0x0033 then (data.bind parseKeyShares).or publicKey
        else publicKey
      if publicKey.isSome && serverName.isSome then (publicKey, serverName)
      else parseExtensions publicKey serverName (r.drop (u16 l1 l2))
  | _ => (publicKey, serverName)
termination_by l => l.length

/-- What follows the session id: cipher suites, compression methods, extensions. -/
def parseAfterSessionId : List UInt8 → Except String (Option (List UInt8) × Option String)
  | c1 :: c2 :: r =>
    if r.length < u16 c1 c2 then .error "Short buffer for Cipher Suites"
    else match r.drop (u16 c1 c2) with
      | [] => .error "Short buffer for Compression Methods Len"
      | m :: r =>
        if r.length < m.toNat then .error "Short buffer for Compression Methods"
        else match r.drop m.toNat with
          | e1 :: e2 :: r =>
            if r.length < u16 e1 e2 then .error "Short buffer for Extensions"
            else .ok (parseExtensions none none (r.take (u16 e1 e2)))
          | _ => .ok (none, none)
  | _ => .error "Short buffer for Cipher Suites Len"

/-- `parse_client_hello`. -/
def parseClientHello (payload : List UInt8) : Except String (Option ClientHelloInfo) :=
  if payload.length < 4 then .ok none
  else if payload.head? ≠ some 1 then .ok none
  else
    let cursor := payload.drop 4
    if cursor.length < 2 then .error "Short buffer for Version"
    else
      let cursor := cursor.drop 2
      if cursor.length < 32 then .error "Short buffer for Random"
      else
        let clientRandom := cursor.take 32
        match cursor.drop 32 with
        | [] => .error "Short buffer for Session ID length"
        | l :: cursor =>
          if cursor.length < l.toNat then .error "Short buffer for Session ID"
          else
            let sessionIdOffset := payload.length - cursor.length
            match parseAfterSessionId (cursor.drop l.toNat) with
            | .error e => .error e
            | .ok (publicKey, serverName) =>
              .ok (some ⟨cursor.take l.toNat, sessionIdOffset, clientRandom, publicKey, serverName⟩)

/-- **What a parsed ClientHello looks like.** -/
theorem parseClientHello_iff {payload : List UInt8} {info : ClientHelloInfo} :
    parseClientHello payload = .ok (some info) ↔
      ∃ hdr len rest, payload = hdr ++ len :: (info.sessionId ++ rest) ∧ hdr.length = 38 ∧
        hdr.head? = some 1 ∧ len.toNat = info.sessionId.length ∧
        parseAfterSessionId rest = .ok (info.publicKey, info.serverName) ∧
        info.sessionIdOffset = 39 ∧ info.clientRandom = hdr.drop 6 := by
  constructor
  · intro h
    unfold parseClientHello at h
    simp only [List.drop_drop] at h
    split_ifs at h with h4 h1 h2 h32
    · cases h
    · cases h
    split at h
    · cases h
    next l cursor hcur =>
    split_ifs at h with hlen
    split at h
    · cases h
    next pk sn hrest =>
    obtain rfl := Option.some.inj (Except.ok.inj h)
    have hpay : payload = payload.take 38 ++ l :: cursor := by
      rw [← hcur, List.take_append_drop]
    have hl := congrArg List.length hpay
    simp only [List.length_append, List.length_take, List.length_cons, List.length_drop] at hl h32
    refine ⟨payload.take 38, l, cursor.drop l.toNat, ?_, ?_, ?_, ?_, hrest, ?_, ?_⟩
    · rw [List.take_append_drop]
      exact hpay
    · rw [List.length_take]
      omega
    · rw [List.head?_take, if_neg (by decide)]
      exact not_not.mp h1
    · rw [List.length_take]
      omega
    · change payload.length - cursor.length = 39
      omega
    · change (payload.drop 6).take 32 = (payload.take 38).drop 6
      rw [List.drop_take]
  · rintro ⟨hdr, len, rest, rfl, hhdr, hhead, hlen, hrest, hoff, hrand⟩
    obtain ⟨sid, off, rand, pk, sn⟩ := info
    obtain rfl : off = 39 := hoff
    obtain rfl : rand = hdr.drop 6 := hrand
    unfold parseClientHello
    have hlen' : (hdr ++ len :: (sid ++ rest)).length = 39 + (sid ++ rest).length := by
      rw [List.length_append, hhdr, List.length_cons]
      omega
    have hdrop : (hdr ++ len :: (sid ++ rest)).drop 38 = len :: (sid ++ rest) :=
      List.drop_left' hhdr
    have htake : ((hdr ++ len :: (sid ++ rest)).drop 6).take 32 = hdr.drop 6 := by
      rw [List.drop_append_of_le_length (by omega), List.take_append_of_le_length]
      · exact List.take_of_length_le (by rw [List.length_drop]; omega)
      · rw [List.length_drop]; omega
    have hhead' : (hdr ++ len :: (sid ++ rest)).head? = some 1 := by
      rw [List.head?_append, hhead]
      rfl
    simp only [List.drop_drop, List.length_drop, hlen', hhead', hdrop, htake, Nat.reduceAdd]
    rw [if_neg (by omega), if_neg (by simp), if_neg (by omega), if_neg (by omega)]
    have hs : len.toNat = sid.length := hlen
    rw [if_neg (by rw [List.length_append]; omega), hs, List.drop_left, List.take_left, hrest]
    simp only [Nat.add_sub_cancel]

/-! ## The server -/

/-- `RealityServerRustls` with the fields of its `RealityConfig`; `RealityConfig::validate` makes the
private key a key of 32 bytes. -/
structure RealityServerRustls where
  privateKey : Key
  verifyClient : Bool
  dest : String
  shortIds : List (List UInt8)
  serverNames : List String

/-- `hex::decode` of one short id, with the text of its error. -/
def decodeShortId (sid : String) : Except String (List UInt8) :=
  (hexDecode (utf8 sid)).mapError HexError.display

/-- `RealityServerRustls::new`. Certificates made in advance only fill a cache. -/
def RealityServerRustls.new (X : Crates) (privateKey : List UInt8) (dest : Option String)
    (shortIds serverNames : List String) : Except String RealityServerRustls := do
  let shortIdsBytes ← shortIds.mapM decodeShortId
  match dest with
  | none => .error "Reality dest is required"
  | some dest => match toKey privateKey with
    | none => .error "unexpected error: Reality private key must be 32 bytes"
    | some key =>
      X.selfSigned
      return ⟨key, false, dest, shortIdsBytes, serverNames⟩

structure RealityRuntime where
  profile : RealityProfile
  server : RealityServerRustls
  publicKey : String
  shortIdSet : List (List UInt8)

/-- `RealityRuntime::new`. -/
def RealityRuntime.new (X : Crates) (profile : RealityProfile) : Except String RealityRuntime := do
  let privateKey ← (decodePrivateKey profile.privateKey).mapError HexError.display
  let server ← RealityServerRustls.new X privateKey (some profile.dest) profile.shortIds
    profile.serverNames
  match deriveRealityPublicKey X profile.privateKey with
  | none => .error "Failed to derive public key"
  | some publicKey => return {
      profile := profile
      server := server
      publicKey := publicKey
      shortIdSet := (profile.shortIds.filterMap fun id => (decodeShortId id).toOption).dedup }

/-- The associated data: the message with the 32 bytes of its session id zeroed. -/
def zeroSessionId (payload : List UInt8) (pos : ℕ) : List UInt8 :=
  payload.mapIdx fun i b => if pos ≤ i ∧ i < pos + 32 then 0 else b

/-- The key that both sides derive from the shared secret. -/
def authKey (X : Crates) (info : ClientHelloInfo) (shared : Key) : Key :=
  X.hkdfSha256 (info.clientRandom.take 20) shared.toList (utf8 "REALITY")

/-- The nonce: the last 12 bytes of the client's random. -/
def authNonce (info : ClientHelloInfo) : List UInt8 := (info.clientRandom.drop 20).take 12

/-- Eight bytes of the plaintext from offset `pos` on. -/
def slice8 (buf : List UInt8) (pos : ℕ) : List UInt8 := (buf.drop pos).take 8

/-- The loop over the configured short ids. -/
def matchShortId (shortIds : List (List UInt8)) (buf : List UInt8) : Option ℕ :=
  shortIds.findSome? fun sid =>
    if sid = slice8 buf 4 then some 4 else if sid = slice8 buf 8 then some 8 else none

/-- `verify_client_reality`. -/
def verifyClientReality (X : Crates) (server : RealityServerRustls) (info : ClientHelloInfo)
    (payload : List UInt8) : Option (ℕ × Key) := do
  if info.sessionId.length ≠ 32 then none
  else
    let publicKey ← info.publicKey
    let clientPub ← toKey publicKey
    let key := authKey X info (X.diffieHellman server.privateKey clientPub)
    let aad := zeroSessionId payload info.sessionIdOffset
    let buf ← X.aes256GcmDecrypt key (authNonce info) aad info.sessionId
    if buf.length < 16 then none
    else
      let offset ← matchShortId server.shortIds buf
      return (offset, key)

theorem matchShortId_isSome {ids : List (List UInt8)} {buf : List UInt8} :
    (matchShortId ids buf).isSome ↔ slice8 buf 4 ∈ ids ∨ slice8 buf 8 ∈ ids := by
  rw [matchShortId, List.findSome?_isSome_iff]
  constructor
  · rintro ⟨sid, hsid, h⟩
    split_ifs at h with h4 h8
    · exact .inl (h4 ▸ hsid)
    · exact .inr (h8 ▸ hsid)
    · cases h
  · rintro (h | h)
    · exact ⟨_, h, by rw [if_pos rfl]; rfl⟩
    · refine ⟨_, h, ?_⟩
      by_cases h4 : slice8 buf 8 = slice8 buf 4
      · rw [if_pos h4]
        rfl
      · rw [if_neg h4, if_pos rfl]
        rfl

@[simp] theorem toKey_toList (k : Key) : toKey k.toList = some k := by
  obtain ⟨a, ha⟩ := k
  rw [toKey, dif_pos (by simpa using ha)]
  simp

theorem zeroSessionId_append (hdr rest sid : List UInt8) (len : UInt8) (hhdr : hdr.length = 38)
    (hsid : sid.length = 32) :
    zeroSessionId (hdr ++ len :: (sid ++ rest)) 39 =
      hdr ++ len :: (List.replicate 32 0 ++ rest) := by
  apply List.ext_getElem
  · simp only [zeroSessionId, List.length_mapIdx, List.length_append, List.length_cons,
      List.length_replicate, hsid]
  · intro i h1 h2
    simp only [zeroSessionId, List.getElem_mapIdx, List.getElem_append, List.getElem_cons,
      List.getElem_replicate, hhdr, hsid, List.length_replicate]
    split_ifs <;> first | rfl | omega

/-- What the server derives from a message, when the parts are known. -/
theorem verifyClientReality_eq {X : Crates} {server : RealityServerRustls} {info : ClientHelloInfo}
    {payload buf : List UInt8} {pub : Key} (hlen : info.sessionId.length = 32)
    (hpub : info.publicKey = some pub.toList) (hbuf : buf.length = 16)
    (hdec : X.aes256GcmDecrypt (authKey X info (X.diffieHellman server.privateKey pub))
      (authNonce info) (zeroSessionId payload info.sessionIdOffset) info.sessionId = some buf) :
    (verifyClientReality X server info payload).isSome ↔
      slice8 buf 4 ∈ server.shortIds ∨ slice8 buf 8 ∈ server.shortIds := by
  have h : verifyClientReality X server info payload = (matchShortId server.shortIds buf).map
      fun o => (o, authKey X info (X.diffieHellman server.privateKey pub)) := by
    unfold verifyClientReality
    rw [if_neg (not_not.mpr hlen), hpub]
    simp only [Option.bind_eq_bind, Option.bind_some, toKey_toList, hdec]
    rw [if_neg (by omega)]
    cases matchShortId server.shortIds buf <;> rfl
  rw [h, Option.isSome_map, matchShortId_isSome]

/-! ## The client -/

/-- The 16 bytes that the test client encrypts: the short id at offset 4 of zeros. -/
def clientPlaintext (sid : List UInt8) : List UInt8 := List.replicate 4 0 ++ padTo 12 sid

/-- The message is a ClientHello whose key share is a key of the client's and whose session id is the
encryption of `plaintext` under the key that the client shares with the owner of `serverPub`. -/
def Carries (X : Crates) (serverPub : Key) (plaintext payload : List UInt8)
    (info : ClientHelloInfo) : Prop :=
  parseClientHello payload = .ok (some info) ∧
    ∃ secret : Key, info.publicKey = some (X.x25519Public secret).toList ∧
      info.sessionId = X.aes256GcmEncrypt (authKey X info (X.diffieHellman secret serverPub))
        (authNonce info) (zeroSessionId payload info.sessionIdOffset) plaintext

/-- The client's last steps: it encrypts, with the message as it stands as associated data, and
writes the ciphertext over the session id. -/
def sealClientHello (X : Crates) (serverPub secret : Key) (plaintext payload : List UInt8)
    (info : ClientHelloInfo) : List UInt8 :=
  let ct := X.aes256GcmEncrypt (authKey X info (X.diffieHellman secret serverPub))
    (authNonce info) (zeroSessionId payload info.sessionIdOffset) plaintext
  payload.take info.sessionIdOffset ++ ct ++ payload.drop (info.sessionIdOffset + 32)

/-- **The client's message carries its plaintext**, whatever ClientHello it started from. -/
theorem sealClientHello_carries {X : Crates} (hX : X.Laws) (serverPub secret : Key)
    {plaintext payload : List UInt8} {info : ClientHelloInfo}
    (h : parseClientHello payload = .ok (some info)) (hsid : info.sessionId.length = 32)
    (hpub : info.publicKey = some (X.x25519Public secret).toList) (hp : plaintext.length = 16) :
    ∃ info', Carries X serverPub plaintext
      (sealClientHello X serverPub secret plaintext payload info) info' := by
  obtain ⟨hdr, len, rest, hpay, hhdr, hhead, hlen, hrest, hoff, hrand⟩ := parseClientHello_iff.mp h
  have hzero : zeroSessionId payload info.sessionIdOffset =
      hdr ++ len :: (List.replicate 32 0 ++ rest) := by
    rw [hoff, hpay, zeroSessionId_append _ _ _ _ hhdr hsid]
  -- the ciphertext takes the place of the old session id, and nothing else changes
  set ct := X.aes256GcmEncrypt (authKey X info (X.diffieHellman secret serverPub))
    (authNonce info) (zeroSessionId payload info.sessionIdOffset) plaintext with hct
  have hctlen : ct.length = 32 := by rw [hct, hX.encrypt_length, hp]
  have hseal : sealClientHello X serverPub secret plaintext payload info =
      hdr ++ len :: (ct ++ rest) := by
    have htake : payload.take 39 = hdr ++ [len] := by
      rw [hpay, List.append_cons, List.take_left' (by simp [hhdr])]
    have hdrop : payload.drop (39 + 32) = rest := by
      rw [hpay, List.append_cons, ← List.drop_drop, List.drop_left' (by simp [hhdr]),
        List.drop_left' hsid]
    rw [sealClientHello, ← hct, hoff, htake, hdrop]
    simp only [List.append_assoc, List.cons_append, List.nil_append]
  refine ⟨{ info with sessionId := ct }, ?_, secret, hpub, ?_⟩
  · rw [hseal]
    exact parseClientHello_iff.mpr ⟨hdr, len, rest, rfl, hhdr, hhead,
      by rw [hlen, hsid]; exact hctlen.symm, hrest, hoff, hrand⟩
  · rw [hseal]
    change ct = X.aes256GcmEncrypt (authKey X info _) (authNonce info)
      (zeroSessionId _ info.sessionIdOffset) plaintext
    rw [hoff, zeroSessionId_append _ _ _ _ hhdr hctlen, ← hzero]

/-- A ClientHello with the given random, session id and key share, and nothing else in it. -/
def plainClientHello (random sid pub : List UInt8) : List UInt8 :=
  ([1, 0, 0, 0, 3, 3] ++ random) ++ 32 :: (sid ++
    ([0, 0, 0, 0, 42, 0, 0x33, 0, 38, 0, 36, 0, 0x1d, 0, 32] ++ pub))

theorem parseKeyShares_single {pub : List UInt8} (h : pub.length = 32) :
    parseKeyShares (0 :: 0x1d :: 0 :: 32 :: pub) = some pub := by
  rw [parseKeyShares, if_neg (by rw [h]; decide), if_pos (by decide),
    List.take_of_length_le (le_of_eq h)]

theorem parseAfterSessionId_plain {pub : List UInt8} (h : pub.length = 32) :
    parseAfterSessionId ([0, 0, 0, 0, 42, 0, 0x33, 0, 38, 0, 36, 0, 0x1d, 0, 32] ++ pub) =
      .ok (some pub, none) := by
  have h38 : (0 :: 36 :: 0 :: 0x1d :: 0 :: 32 :: pub).length = 38 := by
    simp only [List.length_cons, h]
  have h36 : (0 :: 0x1d :: 0 :: 32 :: pub).length = 36 := by simp only [List.length_cons, h]
  have hlist : extensionList (0 :: 36 :: 0 :: 0x1d :: 0 :: 32 :: pub) =
      some (0 :: 0x1d :: 0 :: 32 :: pub) := by
    rw [extensionList, if_neg (by rw [h36]; decide)]
    exact congrArg some (List.take_of_length_le (le_of_eq h36))
  have hext : parseExtensions none none (0 :: 0x33 :: 0 :: 38 :: 0 :: 36 :: 0 :: 0x1d :: 0 :: 32 :: pub)
      = (some pub, none) := by
    rw [parseExtensions, if_neg (by rw [h38]; decide)]
    have htake : List.take (u16 0 38) (0 :: 36 :: 0 :: 0x1d :: 0 :: 32 :: pub) =
        0 :: 36 :: 0 :: 0x1d :: 0 :: 32 :: pub := List.take_of_length_le (le_of_eq h38)
    have hdrop : List.drop (u16 0 38) (0 :: 36 :: 0 :: 0x1d :: 0 :: 32 :: pub) = [] :=
      List.drop_of_length_le (le_of_eq h38)
    have hname : u16 0 0x33 ≠ 0x0000 := by decide
    have hshare : u16 0 0x33 = 0x0033 := by decide
    simp only [htake, hdrop, hlist, Option.bind_some, parseKeyShares_single h, if_neg hname,
      if_pos hshare]
    rw [if_neg (by simp), parseExtensions]
    · rfl
    · simp
  have h42 : (0 :: 0x33 :: 0 :: 38 :: 0 :: 36 :: 0 :: 0x1d :: 0 :: 32 :: pub).length = 42 := by
    simp only [List.length_cons, h]
  have h0 : u16 0 0 = 0 := by decide
  have h42' : u16 0 42 = 42 := by decide
  simp only [List.cons_append, List.nil_append, parseAfterSessionId, h0, h42', Nat.not_lt_zero,
    if_false, List.drop_zero, UInt8.toNat_zero]
  rw [if_neg (by rw [h42]; decide), List.take_of_length_le (le_of_eq h42), hext]

/-- What the plain ClientHello is parsed into. -/
def plainInfo (random sid pub : List UInt8) : ClientHelloInfo :=
  ⟨sid, 39, random, some pub, none⟩

theorem parseClientHello_plain {random sid pub : List UInt8} (hr : random.length = 32)
    (hs : sid.length = 32) (hp : pub.length = 32) :
    parseClientHello (plainClientHello random sid pub) = .ok (some (plainInfo random sid pub)) :=
  parseClientHello_iff.mpr ⟨[1, 0, 0, 0, 3, 3] ++ random, 32, _, rfl, by simp [hr], rfl,
    hs.symm, parseAfterSessionId_plain hp, rfl, rfl⟩

/-! ## Which short ids work -/

/-- Every configured short id, zero-padded to 8 bytes at offset 4 of the plaintext, lets in. -/
def Complete (X : Crates) (r : RealityRuntime) : Prop :=
  ∀ sid ∈ r.profile.shortIds, ∀ bs, hexDecode (utf8 sid) = .ok bs →
    ∀ plaintext : List UInt8, plaintext.length = 16 → slice8 plaintext 4 = padTo 8 bs →
      ∀ payload info, Carries X (X.x25519Public r.server.privateKey) plaintext payload info →
        (verifyClientReality X r.server info payload).isSome

/-- Who is let in sent a configured short id, zero-padded to 8 bytes, at offset 4 or 8. -/
def Sound (X : Crates) (r : RealityRuntime) : Prop :=
  ∀ payload info offset key, parseClientHello payload = .ok (some info) →
    verifyClientReality X r.server info payload = some (offset, key) →
      ∃ buf, X.aes256GcmDecrypt key (authNonce info) (zeroSessionId payload info.sessionIdOffset)
          info.sessionId = some buf ∧
        ∃ sid ∈ r.profile.shortIds, ∃ bs, hexDecode (utf8 sid) = .ok bs ∧
          (slice8 buf 4 = padTo 8 bs ∨ slice8 buf 8 = padTo 8 bs)

/-- The zero-padding of every id is itself one of the ids, or else all completions of its last four
bytes are. -/
def PaddingConfigured (ids : List (List UInt8)) : Prop :=
  ∀ bs ∈ ids, padTo 8 bs ∈ ids ∨ ∀ x : List UInt8, x.length = 4 → (padTo 8 bs).drop 4 ++ x ∈ ids

/-- The configured short ids, decoded. -/
def RealityProfile.shortIdBytes (p : RealityProfile) : List (List UInt8) :=
  p.shortIds.filterMap fun sid => (hexDecode (utf8 sid)).toOption

theorem mem_shortIdBytes {p : RealityProfile} {bs : List UInt8} :
    bs ∈ p.shortIdBytes ↔ ∃ sid ∈ p.shortIds, hexDecode (utf8 sid) = .ok bs := by
  rw [RealityProfile.shortIdBytes, List.mem_filterMap]
  refine exists_congr fun sid => and_congr_right fun _ => ?_
  cases hexDecode (utf8 sid) with
  | error e => exact ⟨fun h => (by cases h), fun h => (by cases h)⟩
  | ok b => exact ⟨fun h => (by cases h; rfl), fun h => (by cases h; rfl)⟩

/-- The short ids that a profile's runtime compares with: the decoded ones of the profile. -/
theorem RealityRuntime.new_ok {X : Crates} {p : RealityProfile} {r : RealityRuntime}
    (h : RealityRuntime.new X p = .ok r) :
    r.profile = p ∧ p.shortIds.mapM decodeShortId = .ok r.server.shortIds := by
  simp only [RealityRuntime.new, bind_ok] at h
  obtain ⟨pk, -, server, hs, h⟩ := h
  split at h
  · cases h
  obtain rfl := Except.ok.inj h
  refine ⟨rfl, ?_⟩
  simp only [RealityServerRustls.new, bind_ok] at hs
  obtain ⟨ids, hids, hs⟩ := hs
  split at hs
  · cases hs
  obtain ⟨-, -, hs⟩ := bind_ok.mp hs
  obtain rfl := Except.ok.inj hs
  exact hids

theorem decodeShortId_ok {sid : String} {bs : List UInt8} :
    decodeShortId sid = .ok bs ↔ hexDecode (utf8 sid) = .ok bs := by
  rw [decodeShortId]
  cases hexDecode (utf8 sid) with
  | error e => exact ⟨fun h => (by cases h), fun h => (by cases h)⟩
  | ok b => exact ⟨fun h => (by cases h; rfl), fun h => (by cases h; rfl)⟩

theorem mem_server_shortIds {X : Crates} {p : RealityProfile} {r : RealityRuntime}
    (h : RealityRuntime.new X p = .ok r) (bs : List UInt8) :
    bs ∈ r.server.shortIds ↔ bs ∈ p.shortIdBytes := by
  rw [mem_of_mapM_ok (RealityRuntime.new_ok h).2, mem_shortIdBytes]
  simp only [decodeShortId_ok]

theorem slice8_length {buf : List UInt8} {pos : ℕ} (h : pos + 8 ≤ buf.length) :
    (slice8 buf pos).length = 8 := by
  rw [slice8, List.length_take, List.length_drop]
  omega

/-- The second slice of a plaintext starts with the last four bytes of the first. -/
theorem slice8_eight {buf : List UInt8} (h : buf.length = 16) :
    slice8 buf 8 = (slice8 buf 4).drop 4 ++ buf.drop 12 := by
  have h12 : buf.drop 12 = ((buf.drop 8).drop 4) := by rw [List.drop_drop]
  have h8 : (slice8 buf 4).drop 4 = (buf.drop 8).take 4 := by
    rw [slice8, List.drop_take, List.drop_drop]
  rw [h8, h12, List.take_append_drop, slice8, List.take_of_length_le]
  rw [List.length_drop, h]

/-- The server answers a message that carries `plaintext` by its two slices. -/
theorem verify_carries {X : Crates} (hX : X.Laws) {server : RealityServerRustls}
    {plaintext payload : List UInt8} {info : ClientHelloInfo} (hp : plaintext.length = 16)
    (h : Carries X (X.x25519Public server.privateKey) plaintext payload info) :
    (verifyClientReality X server info payload).isSome ↔
      slice8 plaintext 4 ∈ server.shortIds ∨ slice8 plaintext 8 ∈ server.shortIds := by
  obtain ⟨-, secret, hpub, hsid⟩ := h
  refine verifyClientReality_eq (by rw [hsid, hX.encrypt_length, hp]) hpub hp ?_
  rw [hX.diffieHellman_comm] at hsid
  exact (hX.decrypt_iff _ _ _ _ _).mpr hsid

/-- Any plaintext is carried by some ClientHello. -/
theorem exists_carries {X : Crates} (hX : X.Laws) (serverPub secret : Key) {plaintext : List UInt8}
    (hp : plaintext.length = 16) : ∃ payload info, Carries X serverPub plaintext payload info := by
  have hz : (List.replicate 32 (0 : UInt8)).length = 32 := List.length_replicate
  obtain ⟨info, h⟩ := sealClientHello_carries hX serverPub secret
    (parseClientHello_plain hz hz (X.x25519Public secret).length_toList) hz rfl hp
  exact ⟨_, info, h⟩

/-- Soundness holds for every profile. -/
theorem sound_of_new {X : Crates} {p : RealityProfile} {r : RealityRuntime}
    (h : RealityRuntime.new X p = .ok r) : Sound X r := by
  intro payload info offset key _ hv
  unfold verifyClientReality at hv
  split_ifs at hv with hlen
  obtain ⟨pub, -, hv⟩ := Option.bind_eq_some_iff.mp hv
  obtain ⟨clientPub, -, hv⟩ := Option.bind_eq_some_iff.mp hv
  obtain ⟨buf, hbuf, hv⟩ := Option.bind_eq_some_iff.mp hv
  split_ifs at hv with h16
  obtain ⟨o, ho, hv⟩ := Option.bind_eq_some_iff.mp hv
  obtain ⟨rfl, rfl⟩ := Prod.mk.inj (Option.some.inj hv)
  refine ⟨buf, hbuf, ?_⟩
  -- a short id that is equal to a slice has 8 bytes, so it is its own padding
  rcases matchShortId_isSome.mp (by rw [ho]; rfl) with hs | hs <;>
    obtain ⟨sid, hsid, hdec⟩ := mem_shortIdBytes.mp ((mem_server_shortIds h _).mp hs)
  all_goals rw [← (RealityRuntime.new_ok h).1] at hsid
  · exact ⟨sid, hsid, _, hdec, .inl (padTo_of_length (slice8_length (by omega))).symm⟩
  · exact ⟨sid, hsid, _, hdec, .inr (padTo_of_length (slice8_length (by omega))).symm⟩

/-- **Authentication is complete and sound exactly when the zero-padding of every short id is
configured too** (or, in its place, all 2³² ids that start with the last half of that padding). -/
theorem complete_sound_iff {X : Crates} (hX : X.Laws) {p₀ p : RealityProfile}
    (hval : p₀.validateAndNormalize X = .ok p) {r : RealityRuntime}
    (hnew : RealityRuntime.new X p = .ok r) :
    Complete X r ∧ Sound X r ↔ PaddingConfigured p.shortIdBytes := by
  obtain rfl := (RealityRuntime.new_ok hnew).1
  have hmem := mem_server_shortIds hnew
  constructor
  · rintro ⟨hc, -⟩ bs hbs
    obtain ⟨sid, hsid, hdec⟩ := mem_shortIdBytes.mp hbs
    obtain ⟨bs', hdec', -, hlen⟩ := validate_shortIds hval sid hsid
    obtain rfl := Except.ok.inj (hdec.symm.trans hdec')
    rw [or_iff_not_imp_left]
    intro hpad x hx
    -- the plaintext with the short id at offset 4 and `x` behind it
    have hpl := padTo_length hlen
    have hp : (List.replicate 4 (0 : UInt8) ++ (padTo 8 bs ++ x)).length = 16 := by
      simp only [List.length_append, List.length_replicate, hpl, hx]
    have h4 : slice8 (List.replicate 4 0 ++ (padTo 8 bs ++ x)) 4 = padTo 8 bs := by
      rw [slice8, List.drop_left' List.length_replicate, List.take_left' hpl]
    have h12 : (List.replicate 4 0 ++ (padTo 8 bs ++ x)).drop 12 = x := by
      rw [← List.append_assoc,
        List.drop_left' (by simp only [List.length_append, List.length_replicate, hpl])]
    obtain ⟨payload, info, hcar⟩ := exists_carries hX (X.x25519Public r.server.privateKey)
      r.server.privateKey hp
    have hv := hc sid hsid bs hdec _ hp h4 payload info hcar
    rw [verify_carries hX hp hcar, hmem, hmem, slice8_eight hp, h4, h12] at hv
    exact hv.resolve_left hpad
  · refine fun hcond => ⟨?_, sound_of_new hnew⟩
    intro sid hsid bs hdec plaintext hp h4 payload info hcar
    rw [verify_carries hX hp hcar, hmem, hmem, slice8_eight hp, h4]
    refine (hcond bs (mem_shortIdBytes.mpr ⟨sid, hsid, hdec⟩)).imp id fun hall => ?_
    exact hall _ (by rw [List.length_drop, hp])

/-! ## One profile and one handshake -/

/-- A profile of the sample server with one short id. -/
def profileWith (sid : String) : RealityProfile where
  id := Vector.replicate 16 0
  name := "Default VLESS Reality"
  inboundTag := "vless-reality"
  listen := "127.0.0.1"
  port := 10443
  dest := "aka.ms:443"
  serverNames := ["aka.ms"]
  privateKey := "hZHP8YPZFBGa3Cno3nepKfop/+KWy3YmpXq5WQdfryI="
  publicKey := ""
  shortIds := [sid]
  fingerprint := "chrome"
  createdAt := 0
  updatedAt := 0

/-- The profile as validation leaves it. -/
def validatedWith (sid : String) : RealityProfile :=
  { profileWith sid with publicKey := "fchlFHTb06bWaZodNXEQsviLQSzf4h8bQL8EP4xqcD4" }

/-- A short id of 8 bytes is its own padding. -/
theorem complete_sound_eight_bytes :
    ∃ r, RealityRuntime.new Sample.crates (validatedWith "da09ebd28dc215c8") = .ok r ∧
      Complete Sample.crates r ∧ Sound Sample.crates r := by
  have hval : (profileWith "da09ebd28dc215c8").validateAndNormalize Sample.crates =
      .ok (validatedWith "da09ebd28dc215c8") := rfl
  refine ⟨_, rfl, (complete_sound_iff Sample.laws hval rfl).mpr fun bs hbs => .inl ?_⟩
  obtain rfl := List.mem_singleton.mp hbs
  decide

/-- **A client with the configured short id `da09` is turned away**: its plaintext has the id at
offset 4, zero-padded to 8 bytes, and the server compares those 8 bytes with the 2 configured. -/
theorem two_byte_short_id_refused :
    ∃ r, (profileWith "da09").validateAndNormalize Sample.crates = .ok (validatedWith "da09") ∧
      RealityRuntime.new Sample.crates (validatedWith "da09") = .ok r ∧
      hexDecode (utf8 "da09") = .ok [0xda, 0x09] ∧
      slice8 (clientPlaintext [0xda, 0x09]) 4 = padTo 8 [0xda, 0x09] ∧
      Carries Sample.crates Sample.serverPublic (clientPlaintext [0xda, 0x09])
        (plainClientHello Sample.random Sample.ciphertext Sample.clientPublic.toList)
        (plainInfo Sample.random Sample.ciphertext Sample.clientPublic.toList) ∧
      verifyClientReality Sample.crates r.server
        (plainInfo Sample.random Sample.ciphertext Sample.clientPublic.toList)
        (plainClientHello Sample.random Sample.ciphertext Sample.clientPublic.toList) = none := by
  refine ⟨_, rfl, rfl, rfl, by decide, ⟨parseClientHello_plain rfl rfl rfl, Sample.clientSecret, ?_, ?_⟩,
    ?_⟩
  · decide
  · decide
  · decide

end RXCore
