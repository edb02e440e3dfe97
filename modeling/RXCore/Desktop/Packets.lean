import RXCore.Std
import RXCore.Lib.Cursor
import RXCore.Lib.OnesComplement

/-!
# Checksums of the packets from the tunnel device

`fix_ipv4_checksums` of the desktop client writes new checksums into a packet before it goes to the network
stack.

* `internetChecksum`, `fixTransport`, `fixIpv4Checksums`: with accesses that panic outside of the packet;
* `putWord`: a word written into a buffer;
* `Field`, `checksumFields`: the words that are written last, each with the bytes that it is the checksum of;
* **`fixIpv4Checksums_eq`**: no access is outside of the packet, and the fields are all that is written.
-/

set_option autoImplicit false

namespace RXCore

open Cursor Walk OnesComplement

/-! ## The code -/

/-- An addition of `u32`. -/
def addU32 (a b : ℕ) : Walk ℕ := if a + b < 2 ^ 32 then ok (a + b) else panic

/-- The loop of `internet_checksum` over the words, and its odd last byte. -/
def sumPairs : ℕ → List UInt8 → Walk ℕ
  | sum, [] => ok sum
  | sum, [last] => addU32 sum (u16 last 0)
  | sum, a :: b :: data => do
    let sum ← addU32 sum (u16 a b)
    sumPairs sum data

/-- `internet_checksum`. -/
def internetChecksum (data : List UInt8) : Walk ℕ := do
  let sum ← sumPairs 0 data
  return (2 ^ 32 - 1 - fold sum) % 2 ^ 16

/-- Two writes of a byte each. -/
def setWord (packet : List UInt8) (i w : ℕ) : Walk (List UInt8) := do
  let packet ← setByte packet i (UInt8.ofNat (w / 256))
  setByte packet (i + 1) (UInt8.ofNat w)

/-- The checksum of a transport header of at least `minLen` bytes, at `field` in it. -/
def fixTransport (proto : UInt8) (minLen field : ℕ) (packet : List UInt8) (ihl packetLen : ℕ) : Walk (List UInt8) := do
  let len ← subLen packetLen ihl
  if minLen ≤ len then
    let checksumOffset := ihl + field
    if checksumOffset + 2 ≤ packetLen then
      let packet ← setWord packet checksumOffset 0
      let source ← sliceRange packet 12 16
      let destination ← sliceRange packet 16 20
      let segment ← sliceRange packet ihl packetLen
      let checksum ← internetChecksum (source ++ destination ++ [0, proto] ++ u16Bytes len ++ segment)
      setWord packet checksumOffset checksum
    else return packet
  else return packet

def fixTcp : List UInt8 → ℕ → ℕ → Walk (List UInt8) := fixTransport 6 20 16

def fixUdp : List UInt8 → ℕ → ℕ → Walk (List UInt8) := fixTransport 17 8 6

/-- `fix_ipv4_checksums`, once the lengths are checked. -/
def writeChecksums (packet : List UInt8) (ihl packetLen : ℕ) : Walk (List UInt8) := do
  let proto ← index packet 9
  let packet ← setWord packet 10 0
  let header ← sliceTo packet ihl
  let ipChecksum ← internetChecksum header
  let packet ← setWord packet 10 ipChecksum
  if proto = 6 then fixTcp packet ihl packetLen
  else if proto = 17 then fixUdp packet ihl packetLen
  else return packet

/-- `fix_ipv4_checksums`. -/
def fixIpv4Checksums (packet : List UInt8) : Walk (List UInt8) :=
  if packet.length < 20 then ok packet
  else do
    let first ← index packet 0
    if first >>> 4 ≠ 4 then return packet
    else
      let ihl := (first &&& 0x0f).toNat * 4
      if packet.length < ihl then return packet
      else
        let high ← index packet 2
        let low ← index packet 3
        let packetLen := min packet.length (u16 high low)
        if packetLen < ihl then return packet
        else
          writeChecksums packet ihl packetLen

/-! ## Words in a buffer -/

def putWord (bs : List UInt8) (i w : ℕ) : List UInt8 := (bs.set i (UInt8.ofNat (w / 256))).set (i + 1) (UInt8.ofNat w)

section

variable {bs : List UInt8} {i j n v w : ℕ}

@[simp] theorem putWord_length (bs : List UInt8) (i w : ℕ) : (putWord bs i w).length = bs.length := by
  simp [putWord]

theorem setWord_ok (h : i + 2 ≤ bs.length) (w : ℕ) : setWord bs i w = ok (putWord bs i w) := by
  rw [setWord, setByte_ok (by omega), ok_bind, setByte_ok (by rw [List.length_set]; omega), putWord]

theorem putWord_getElem?_of_ne (h : j ≠ i) (h' : j ≠ i + 1) : (putWord bs i w)[j]? = bs[j]? := by
  rw [putWord, List.getElem?_set_ne (Ne.symm h'), List.getElem?_set_ne (Ne.symm h)]

theorem putWord_getD_of_ne (h : j ≠ i) (h' : j ≠ i + 1) : (putWord bs i w).getD j 0 = bs.getD j 0 := by
  rw [List.getD_eq_getElem?_getD, putWord_getElem?_of_ne h h', List.getD_eq_getElem?_getD]

/-- Words that do not overlap. -/
theorem u16At_putWord_of_ne (h : j + 2 ≤ i ∨ i + 2 ≤ j) : u16At (putWord bs i w) j = u16At bs j := by
  rw [u16At, u16At, putWord_getD_of_ne (by omega) (by omega), putWord_getD_of_ne (by omega) (by omega)]

/-- The two bytes of a word inside a buffer. -/
theorem exists_word (h : i + 2 ≤ bs.length) : ∃ pre a b post, bs = pre ++ a :: b :: post ∧ pre.length = i := by
  refine ⟨bs.take i, bs[i], bs[i + 1], bs.drop (i + 2), ?_, List.length_take_of_le (by omega)⟩
  rw [List.getElem_cons_drop, List.getElem_cons_drop, List.take_append_drop]

theorem putWord_append (pre post : List UInt8) (a b : UInt8) (w : ℕ) :
    putWord (pre ++ a :: b :: post) pre.length w = pre ++ UInt8.ofNat (w / 256) :: UInt8.ofNat w :: post := by
  simp [putWord]

theorem u16At_pair (pre post : List UInt8) (a b : UInt8) : u16At (pre ++ a :: b :: post) pre.length = u16 a b := by
  simp [u16At]

theorem u16At_putWord (h : i + 2 ≤ bs.length) (hw : w < 2 ^ 16) : u16At (putWord bs i w) i = w := by
  obtain ⟨pre, a, b, post, rfl, rfl⟩ := exists_word h
  rw [putWord_append, u16At_pair, u16_ofNat]
  exact Nat.mod_eq_of_lt hw

@[simp] theorem putWord_putWord : putWord (putWord bs i v) i w = putWord bs i w := by
  rw [putWord, putWord, putWord, List.set_comm _ _ (Nat.succ_ne_self i), List.set_set, List.set_set]

/-- A word that is there already. -/
theorem putWord_u16At (h : i + 2 ≤ bs.length) : putWord bs i (u16At bs i) = bs := by
  obtain ⟨pre, a, b, post, rfl, rfl⟩ := exists_word h
  have ha := a.toNat_lt
  have hb := b.toNat_lt
  have hhigh : UInt8.ofNat (u16 a b / 256) = a := by
    apply UInt8.toNat_inj.mp
    rw [u16, UInt8.toNat_ofNat']
    omega
  have hlow : UInt8.ofNat (u16 a b) = b := by
    apply UInt8.toNat_inj.mp
    rw [u16, UInt8.toNat_ofNat']
    omega
  rw [u16At_pair, putWord_append, hhigh, hlow]

theorem putWord_eq_self_iff (h : i + 2 ≤ bs.length) (hw : w < 2 ^ 16) : putWord bs i w = bs ↔ u16At bs i = w := by
  constructor
  · intro heq
    rw [← heq]
    exact u16At_putWord h hw
  · rintro rfl
    exact putWord_u16At h

theorem take_putWord_of_le (h : n ≤ i) : (putWord bs i w).take n = bs.take n := by
  rw [putWord, List.take_set_of_le (by omega), List.take_set_of_le h]

theorem take_putWord (bs : List UInt8) (n i w : ℕ) : (putWord bs i w).take n = putWord (bs.take n) i w := by
  rw [putWord, List.take_set, List.take_set, putWord]

theorem drop_putWord_of_le (h : i + 2 ≤ n) : (putWord bs i w).drop n = bs.drop n := by
  rw [putWord, List.drop_set_of_lt (by omega), List.drop_set_of_lt (by omega)]

theorem drop_putWord (h : n ≤ i) : (putWord bs i w).drop n = putWord (bs.drop n) (i - n) w := by
  rw [putWord, List.drop_set, List.drop_set, if_neg (by omega), if_neg (by omega), putWord]
  congr 1
  omega

/-- A slice around a word. -/
theorem slice_putWord {m : ℕ} (hm : m ≤ i) (hn : i + 2 ≤ m + n) (h : i + 2 ≤ bs.length) : ∃ pre post, pre.length = i - m ∧
    ∀ w, slice (putWord bs i w) m n = pre ++ UInt8.ofNat (w / 256) :: UInt8.ofNat w :: post := by
  obtain ⟨pre, a, b, post, rfl, rfl⟩ := exists_word h
  refine ⟨pre.drop m, post.take (m + n - (pre.length + 2)), List.length_drop, fun w => ?_⟩
  have htake : n - (pre.drop m).length = (m + n - (pre.length + 2)) + 1 + 1 := by
    rw [List.length_drop]
    omega
  rw [slice, putWord_append, List.drop_append_of_le_length hm, List.take_append,
    List.take_of_length_le (by rw [List.length_drop]; omega), htake, List.take_succ_cons, List.take_succ_cons]

/-- A slice before a word. -/
theorem slice_putWord_of_le {m : ℕ} (h : m + n ≤ i) : slice (putWord bs i w) m n = slice bs m n := by
  rw [slice, slice, drop_putWord (by omega), take_putWord_of_le (by omega)]

end

/-! ## What a packet says -/

/-- The length of the header. -/
def headerLen (p : List UInt8) : ℕ := (p.getD 0 0 &&& 0x0f).toNat * 4

/-- The bytes of the packet; what follows them is padding. -/
def packetLen (p : List UInt8) : ℕ := min p.length (u16At p 2)

def protocol (p : List UInt8) : UInt8 := p.getD 9 0

def segmentLen (p : List UInt8) : ℕ := packetLen p - headerLen p

/-- The addresses, the protocol and the length, which the checksum of the transport covers too. -/
def pseudoHeader (p : List UInt8) : List UInt8 := slice p 12 8 ++ [0, protocol p] ++ u16Bytes (segmentLen p)

/-- What the checksum of the transport covers. -/
def covered (p : List UInt8) : List UInt8 := pseudoHeader p ++ slice p (headerLen p) (segmentLen p)

/-- A packet that is left as it is. -/
def Refused (p : List UInt8) : Prop := p.length < 20 ∨ p.getD 0 0 >>> 4 ≠ 4 ∨ packetLen p < headerLen p

instance (p : List UInt8) : Decidable (Refused p) := inferInstanceAs (Decidable (_ ∨ _ ∨ _))

/-- A word, and the bytes that it is the checksum of. -/
structure Field where
  offset : ℕ
  bytes : List UInt8 → List UInt8

/-- The checksum is taken with zeros in its place. -/
def Field.fill (f : Field) (p : List UInt8) : List UInt8 :=
  putWord p f.offset (checksum (f.bytes (putWord p f.offset 0)))

/-- The field has its checksum already. -/
def Field.Holds (f : Field) (p : List UInt8) : Prop := u16At p f.offset = checksum (f.bytes (putWord p f.offset 0))

def headerField : Field := ⟨10, fun p => p.take (headerLen p)⟩

/-- The checksum of TCP or UDP, if there is room for its header. -/
def transportField (p : List UInt8) : Option Field :=
  if protocol p = 6 ∧ 20 ≤ segmentLen p then some ⟨headerLen p + 16, covered⟩
  else if protocol p = 17 ∧ 8 ≤ segmentLen p then some ⟨headerLen p + 6, covered⟩
  else none

/-- The words that are written last. A header of one word has the checksum of UDP in the place of its own. -/
def checksumFields (p : List UInt8) : List Field :=
  if Refused p then []
  else match transportField p with
    | none => [headerField]
    | some f => if f.offset = 10 then [f] else [headerField, f]

/-- What becomes of a packet. -/
def fixed (p : List UInt8) : List UInt8 := (checksumFields p).foldl (fun p f => f.fill p) p

section

variable {p q : List UInt8} {f : Field} {i w : ℕ}

/-- The bytes that say where everything is are the same. -/
structure SameLayout (p q : List UInt8) : Prop where
  length : q.length = p.length
  first : q.getD 0 0 = p.getD 0 0
  total : u16At q 2 = u16At p 2
  protocol : q.getD 9 0 = p.getD 9 0

namespace SameLayout

variable (h : SameLayout p q)
include h

theorem headerLen_eq : headerLen q = headerLen p := by rw [headerLen, h.first, headerLen]

theorem packetLen_eq : packetLen q = packetLen p := by rw [packetLen, h.length, h.total, packetLen]

theorem protocol_eq : RXCore.protocol q = RXCore.protocol p := h.protocol

theorem segmentLen_eq : segmentLen q = segmentLen p := by rw [segmentLen, h.packetLen_eq, h.headerLen_eq, segmentLen]

theorem refused_iff : Refused q ↔ Refused p := by rw [Refused, h.length, h.first, h.packetLen_eq, h.headerLen_eq, Refused]

theorem transportField_eq : transportField q = transportField p := by
  rw [transportField, h.protocol_eq, h.segmentLen_eq, h.headerLen_eq, transportField]

end SameLayout

theorem SameLayout.refl (p : List UInt8) : SameLayout p p := ⟨rfl, rfl, rfl, rfl⟩

theorem SameLayout.trans {r : List UInt8} (h : SameLayout p q) (h' : SameLayout q r) : SameLayout p r :=
  ⟨h'.length.trans h.length, h'.first.trans h.first, h'.total.trans h.total, h'.protocol.trans h.protocol⟩

/-- Nothing of the layout is in the words that are written. -/
theorem sameLayout_putWord (p : List UInt8) (w : ℕ) (hi : 4 ≤ i) (h9 : i ≠ 9) (h8 : i ≠ 8) :
    SameLayout p (putWord p i w) :=
  ⟨putWord_length p i w, putWord_getD_of_ne (by omega) (by omega), u16At_putWord_of_ne (.inl (by omega)),
    putWord_getD_of_ne (by omega) (by omega)⟩

/-! ## The code fills the fields -/

theorem sumPairs_eq {sum : ℕ} {data : List UInt8} (h : sum + wordSum data < 2 ^ 32) :
    sumPairs sum data = ok (sum + wordSum data) := by
  induction data using List.twoStepInduction generalizing sum with
  | nil => rfl
  | singleton a =>
    have hword : u16 a 0 = wordSum [a] := by simp [u16, wordSum]
    rw [sumPairs, addU32, hword, if_pos h]
  | cons_cons a b data ih _ =>
    have hword : wordSum (a :: b :: data) = u16 a b + wordSum data := rfl
    rw [hword] at h ⊢
    rw [sumPairs, addU32, if_pos (by omega), ok_bind, ih (by omega), Nat.add_assoc]

/-- **No sum overflows** on a packet. -/
theorem internetChecksum_eq {data : List UInt8} (h : data.length < 2 ^ 17) :
    internetChecksum data = ok (checksum data) := by
  have hsum := wordSum_le data
  have hfold := fold_le (wordSum data)
  have hresult : (2 ^ 32 - 1 - fold (wordSum data)) % 2 ^ 16 = checksum data := by
    rw [checksum]
    omega
  rw [internetChecksum, sumPairs_eq (by omega), ok_bind, Nat.zero_add, hresult]
  rfl

theorem packetLen_le (p : List UInt8) : packetLen p ≤ p.length := min_le_left _ _

theorem packetLen_lt (p : List UInt8) : packetLen p < 2 ^ 16 := (min_le_right _ _).trans_lt (u16_lt _ _)

theorem covered_length_le (p : List UInt8) : (covered p).length ≤ 12 + packetLen p := by
  simp only [covered, pseudoHeader, slice, segmentLen, List.length_append, List.length_take, List.length_cons,
    List.length_nil, u16Bytes_length]
  omega

/-- The slices that the code puts together. -/
theorem covered_eq (h : SameLayout p q) : (q.drop 12).take (16 - 12) ++ (q.drop 16).take (20 - 16) ++ [0, protocol p] ++
    u16Bytes (packetLen p - headerLen p) ++ (q.drop (headerLen p)).take (packetLen p - headerLen p) = covered q := by
  have haddresses : slice q 12 8 = (q.drop 12).take (16 - 12) ++ (q.drop 16).take (20 - 16) := by
    rw [slice, show (8 : ℕ) = 4 + 4 from rfl, List.take_add, List.drop_drop]
  rw [covered, pseudoHeader, haddresses, slice, h.protocol_eq, h.segmentLen_eq, h.headerLen_eq]
  rfl

theorem fixTransport_eq {minLen field : ℕ} (hlen : 20 ≤ p.length) (hheader : headerLen p ≤ packetLen p)
    (hfield : field + 2 ≤ minLen) (hsame : SameLayout p (putWord p (headerLen p + field) 0)) :
    fixTransport (protocol p) minLen field p (headerLen p) (packetLen p) =
      ok (if minLen ≤ segmentLen p then Field.fill ⟨headerLen p + field, covered⟩ p else p) := by
  have hle := packetLen_le p
  have hlt := packetLen_lt p
  rw [fixTransport, subLen_ok hheader, ok_bind]
  change (if minLen ≤ segmentLen p then _ else _) = _
  split_ifs with hroom
  · have hseg : segmentLen p = packetLen p - headerLen p := rfl
    have hbound := covered_length_le (putWord p (headerLen p + field) 0)
    rw [hsame.packetLen_eq] at hbound
    have hlength := putWord_length p (headerLen p + field) 0
    dsimp only
    rw [if_pos (by omega), setWord_ok (by omega), ok_bind, sliceRange_ok (by omega) (by omega), ok_bind,
      sliceRange_ok (by omega) (by omega), ok_bind, sliceRange_ok hheader (by omega), ok_bind, covered_eq hsame,
      internetChecksum_eq (by omega), ok_bind, setWord_ok (by omega), putWord_putWord]
    rfl
  · rfl

/-- A field is filled again in the same place. -/
theorem Field.fill_fill {g : Field} (h : g.offset = f.offset) (p : List UInt8) : g.fill (f.fill p) = g.fill p := by
  rw [Field.fill, Field.fill, h, putWord_putWord, putWord_putWord, Field.fill, h]

theorem fixed_of_refused (h : Refused p) : fixed p = p := by
  rw [fixed, checksumFields, if_pos h]
  rfl

/-- The header comes first, and then the transport. -/
theorem fixed_eq (h : ¬ Refused p) :
    fixed p = ((transportField p).elim id Field.fill) (headerField.fill p) := by
  rw [fixed, checksumFields, if_neg h]
  cases transportField p with
  | none => rfl
  | some f =>
    dsimp only
    split_ifs with hplace
    · exact (Field.fill_fill hplace p).symm
    · rfl

theorem sameLayout_header (p : List UInt8) : SameLayout p (headerField.fill p) :=
  sameLayout_putWord p _ (by decide) (by decide) (by decide)

/-- The field of a transport is at none of the bytes that say where everything is. -/
theorem sameLayout_transport (q : List UInt8) (hp : headerLen p % 4 = 0) {field : ℕ} (hfield : field = 16 ∨ field = 6) :
    SameLayout q (putWord q (headerLen p + field) w) :=
  sameLayout_putWord q _ (by omega) (by omega) (by omega)

theorem headerLen_mod (p : List UInt8) : headerLen p % 4 = 0 := Nat.mul_mod_left _ 4

theorem headerLen_le (p : List UInt8) : headerLen p ≤ 60 := by
  have h : (p.getD 0 0 &&& 0x0f).toNat ≤ 15 := by
    rw [UInt8.toNat_and]
    exact Nat.and_le_right
  rw [headerLen]
  omega

theorem transportField_tcp (h : protocol p = 6) :
    transportField p = if 20 ≤ segmentLen p then some ⟨headerLen p + 16, covered⟩ else none := by
  simp [transportField, h]

theorem transportField_udp (h : protocol p = 17) :
    transportField p = if 8 ≤ segmentLen p then some ⟨headerLen p + 6, covered⟩ else none := by
  simp [transportField, h]

theorem transportField_other (h : protocol p ≠ 6) (h' : protocol p ≠ 17) : transportField p = none := by
  simp [transportField, h, h']

theorem writeChecksums_eq (hlen : 20 ≤ p.length) (hheader : headerLen p ≤ packetLen p) :
    writeChecksums p (headerLen p) (packetLen p) = ok ((transportField p).elim id Field.fill (headerField.fill p)) := by
  have hle := packetLen_le p
  have hmax := headerLen_le p
  have hlength := putWord_length p 10 0
  have hsame := sameLayout_header p
  have hbytes : (putWord p 10 0).take (headerLen p) = headerField.bytes (putWord p 10 0) := by
    change _ = (putWord p 10 0).take (headerLen (putWord p 10 0))
    rw [(sameLayout_putWord p 0 (by decide) (by decide) (by decide)).headerLen_eq]
  have htransport : ∀ minLen field, field = 16 ∨ field = 6 → field + 2 ≤ minLen →
      fixTransport (protocol p) minLen field (headerField.fill p) (headerLen p) (packetLen p) = ok (if minLen ≤ segmentLen p
        then Field.fill ⟨headerLen p + field, covered⟩ (headerField.fill p) else headerField.fill p) := by
    intro minLen field hfield hroom
    have hplace : SameLayout (headerField.fill p) (putWord (headerField.fill p) (headerLen (headerField.fill p) + field) 0) :=
      sameLayout_transport _ (headerLen_mod _) hfield
    have hfix := fixTransport_eq (by rw [hsame.length]; exact hlen) (by rw [hsame.headerLen_eq, hsame.packetLen_eq]; exact hheader)
      hroom hplace
    rwa [hsame.headerLen_eq, hsame.packetLen_eq, hsame.protocol_eq, hsame.segmentLen_eq] at hfix
  rw [writeChecksums, index_ok (by omega), ok_bind, setWord_ok (by omega), ok_bind, sliceTo_ok (by omega), ok_bind,
    internetChecksum_eq (by rw [List.length_take]; omega), ok_bind, setWord_ok (by omega), ok_bind, putWord_putWord, hbytes]
  change (if protocol p = 6 then fixTransport 6 20 16 (headerField.fill p) _ _
    else if protocol p = 17 then fixTransport 17 8 6 (headerField.fill p) _ _ else ok (headerField.fill p)) = _
  by_cases htcp : protocol p = 6
  · have hfix := htransport 20 16 (.inl rfl) (by decide)
    rw [htcp] at hfix
    rw [if_pos htcp, hfix, transportField_tcp htcp]
    split_ifs <;> rfl
  by_cases hudp : protocol p = 17
  · have hfix := htransport 8 6 (.inr rfl) (by decide)
    rw [hudp] at hfix
    rw [if_neg htcp, if_pos hudp, hfix, transportField_udp hudp]
    split_ifs <;> rfl
  · rw [if_neg htcp, if_neg hudp, transportField_other htcp hudp]
    rfl

/-- **No access is outside of the packet**, and what is written is the checksums of the fields. -/
theorem fixIpv4Checksums_eq (p : List UInt8) : fixIpv4Checksums p = ok (fixed p) := by
  have hle := packetLen_le p
  by_cases hshort : p.length < 20
  · rw [fixIpv4Checksums, if_pos hshort, fixed_of_refused (.inl hshort)]
  rw [fixIpv4Checksums, if_neg hshort, index_ok (by omega), ok_bind]
  by_cases hversion : p.getD 0 0 >>> 4 ≠ 4
  · rw [if_pos hversion, fixed_of_refused (.inr (.inl hversion))]
    rfl
  rw [if_neg hversion]
  change (if p.length < headerLen p then _ else _) = _
  by_cases hheader : p.length < headerLen p
  · rw [if_pos hheader, fixed_of_refused (.inr (.inr (by omega)))]
    rfl
  rw [if_neg hheader, index_ok (by omega), ok_bind, index_ok (by omega), ok_bind]
  change (if packetLen p < headerLen p then _ else writeChecksums p (headerLen p) (packetLen p)) = _
  by_cases htotal : packetLen p < headerLen p
  · rw [if_pos htotal, fixed_of_refused (.inr (.inr htotal))]
    rfl
  have hrefused : ¬ Refused p := by
    rw [Refused, not_or, not_or]
    exact ⟨hshort, hversion, htotal⟩
  rw [if_neg htotal, writeChecksums_eq (by omega) (by omega), fixed_eq hrefused]

end

end RXCore
