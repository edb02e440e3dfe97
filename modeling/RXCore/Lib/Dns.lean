import RXCore.Lib.Encoding

/-!
# DNS messages

The wire format of RFC 1035: a header, questions and resource records. A name is a list of labels of 1 to 63 bytes that
ends with an empty one, or goes on at an earlier place of the message; it has at most 255 bytes.

* `readName`, `readQuestion`, `readRecord`, `readMessage`, `decode`: the decoder;
* `encodeName`, `encodeQuery`: a name, and a message with one question, as a writer of labels of any length puts them;
* `Fits`: the labels of a name;
* **`readName_labels`**: the decoder goes through short labels one by one;
* **`decode_encodeQuery`**: what is decoded from a message with one question.
-/

set_option autoImplicit false

namespace Dns

open Encoding

/-! ## The format -/

structure Question where
  name : List (List UInt8)
  qtype : ℕ
  qclass : ℕ
deriving DecidableEq

structure Record where
  name : List (List UInt8)
  type : ℕ
  cls : ℕ
  ttl : ℕ
  rdata : List UInt8
deriving DecidableEq

structure Message where
  id : ℕ
  flags : ℕ
  questions : List Question
  answers : List Record
  authorities : List Record
  additionals : List Record
deriving DecidableEq

/-- The bytes of a field, if the message is long enough. -/
def readBytes (msg : List UInt8) (k pos : ℕ) : Option (List UInt8) :=
  if pos + k ≤ msg.length then some ((msg.drop pos).take k) else none

/-- A number of `k` bytes. -/
def readNumber (msg : List UInt8) (k pos : ℕ) : Option ℕ := (readBytes msg k pos).map ofBe

/-- The name at `pos`, and where it ends. `room` is what is left of the 255 bytes of a name, without the empty label.
The two high bits of a length are zeros for a label and ones for a pointer, which leads to an earlier place. -/
def readName (msg : List UInt8) (room pos : ℕ) : Option (List (List UInt8) × ℕ) :=
  match msg[pos]? with
  | none => none
  | some len =>
    if len.toNat = 0 then some ([], pos + 1)
    else if len.toNat < 64 then
      if len.toNat + 1 ≤ room then
        match readBytes msg len.toNat (pos + 1) with
        | none => none
        | some label => (readName msg (room - (len.toNat + 1)) (pos + 1 + len.toNat)).map fun r => (label :: r.1, r.2)
      else none
    else if 192 ≤ len.toNat then
      match msg[pos + 1]? with
      | none => none
      | some low =>
        if (len.toNat - 192) * 256 + low.toNat < pos then
          (readName msg room ((len.toNat - 192) * 256 + low.toNat)).map fun r => (r.1, pos + 2)
        else none
    else none
termination_by (room, pos)

def readQuestion (msg : List UInt8) (pos : ℕ) : Option (Question × ℕ) := do
  let (name, pos) ← readName msg 254 pos
  let qtype ← readNumber msg 2 pos
  let qclass ← readNumber msg 2 (pos + 2)
  return (⟨name, qtype, qclass⟩, pos + 4)

def readRecord (msg : List UInt8) (pos : ℕ) : Option (Record × ℕ) := do
  let (name, pos) ← readName msg 254 pos
  let type ← readNumber msg 2 pos
  let cls ← readNumber msg 2 (pos + 2)
  let ttl ← readNumber msg 4 (pos + 4)
  let rdlength ← readNumber msg 2 (pos + 8)
  let rdata ← readBytes msg rdlength (pos + 10)
  return (⟨name, type, cls, ttl, rdata⟩, pos + 10 + rdlength)

/-- So many entries of a section, one after the other. -/
def readSection {α : Type} (read : ℕ → Option (α × ℕ)) : ℕ → ℕ → Option (List α × ℕ)
  | 0, pos => some ([], pos)
  | n + 1, pos => do
    let (a, pos) ← read pos
    let (as, pos) ← readSection read n pos
    return (a :: as, pos)

def readMessage (msg : List UInt8) : Option (Message × ℕ) := do
  let id ← readNumber msg 2 0
  let flags ← readNumber msg 2 2
  let qdcount ← readNumber msg 2 4
  let ancount ← readNumber msg 2 6
  let nscount ← readNumber msg 2 8
  let arcount ← readNumber msg 2 10
  let (questions, pos) ← readSection (readQuestion msg) qdcount 12
  let (answers, pos) ← readSection (readRecord msg) ancount pos
  let (authorities, pos) ← readSection (readRecord msg) nscount pos
  let (additionals, pos) ← readSection (readRecord msg) arcount pos
  return (⟨id, flags, questions, answers, authorities, additionals⟩, pos)

/-- A message that is read to its end. -/
def decode (msg : List UInt8) : Option Message :=
  match readMessage msg with
  | some (m, pos) => if pos = msg.length then some m else none
  | none => none

/-- Labels behind their lengths, without the empty label at the end. -/
def encodeLabels (labels : List (List UInt8)) : List UInt8 :=
  labels.flatMap fun label => UInt8.ofNat label.length :: label

/-- A message with one question. -/
def encodeQuery (id flags : ℕ) (q : Question) : List UInt8 :=
  beBytes 2 id ++ beBytes 2 flags ++ beBytes 2 1 ++ beBytes 2 0 ++ beBytes 2 0 ++ beBytes 2 0 ++
    (encodeLabels q.name ++ 0 :: (beBytes 2 q.qtype ++ beBytes 2 q.qclass))

/-- The labels have at most 63 bytes each, and make a name of at most 255 bytes. -/
def Fits (labels : List (List UInt8)) : Prop :=
  (∀ label ∈ labels, label.length ≤ 63) ∧ (labels.map fun label => label.length + 1).sum + 1 ≤ 255

instance (labels : List (List UInt8)) : Decidable (Fits labels) := inferInstanceAs (Decidable (_ ∧ _))

/-! ## Fields -/

section

variable {pre bs post msg : List UInt8} {k n pos : ℕ}

theorem readBytes_append (pre bs post : List UInt8) :
    readBytes (pre ++ (bs ++ post)) bs.length pre.length = some bs := by
  have hlen : pre.length + bs.length ≤ (pre ++ (bs ++ post)).length := by
    simp only [List.length_append]
    omega
  rw [readBytes, if_pos hlen, List.drop_left, List.take_left]

theorem readNumber_append (pre post : List UInt8) (k n : ℕ) (hn : n < 256 ^ k) :
    readNumber (pre ++ (beBytes k n ++ post)) k pre.length = some n := by
  have h := readBytes_append pre (beBytes k n) post
  rw [beBytes_length] at h
  rw [readNumber, h, Option.map_some, ofBe_beBytes, Nat.mod_eq_of_lt hn]

theorem encodeLabels_cons (label : List UInt8) (labels : List (List UInt8)) :
    encodeLabels (label :: labels) = UInt8.ofNat label.length :: (label ++ encodeLabels labels) := by
  rw [encodeLabels, List.flatMap_cons, List.cons_append]
  rfl

theorem encodeLabels_append (as bs : List (List UInt8)) :
    encodeLabels (as ++ bs) = encodeLabels as ++ encodeLabels bs := List.flatMap_append

theorem encodeLabels_length (labels : List (List UInt8)) :
    (encodeLabels labels).length = (labels.map fun label => label.length + 1).sum := by
  simp [encodeLabels, List.length_flatMap]

/-! ## Names -/

/-- The empty label ends a name. -/
theorem readName_zero (room : ℕ) (h : msg[pos]? = some 0) : readName msg room pos = some ([], pos + 1) := by
  rw [readName, h]
  rfl

/-- A length of 64 to 191 is neither that of a label nor a pointer. -/
theorem readName_reserved {len : UInt8} (room : ℕ) (h : msg[pos]? = some len) (hlow : 64 ≤ len.toNat)
    (hhigh : len.toNat < 192) : readName msg room pos = none := by
  rw [readName, h]
  simp only
  rw [if_neg (by omega), if_neg (by omega), if_neg (by omega)]

/-- **A pointer ends a name** as far as the place goes at which it stands. -/
theorem readName_pointer {len : UInt8} {room : ℕ} (h : msg[pos]? = some len) (hlen : 192 ≤ len.toNat)
    {r : List (List UInt8) × ℕ} (hr : readName msg room pos = some r) : r.2 = pos + 2 := by
  rw [readName, h] at hr
  simp only at hr
  rw [if_neg (by omega), if_neg (by omega), if_pos hlen] at hr
  split at hr
  · cases hr
  · split_ifs at hr
    obtain ⟨r', -, rfl⟩ := Option.map_eq_some_iff.mp hr
    rfl

/-- One label. -/
theorem readName_label (room : ℕ) {label : List UInt8} (hpos : 0 < label.length) (hlen : label.length ≤ 63)
    (pre post : List UInt8) :
    readName (pre ++ UInt8.ofNat label.length :: (label ++ post)) room pre.length =
      if label.length + 1 ≤ room then
        (readName (pre ++ UInt8.ofNat label.length :: (label ++ post)) (room - (label.length + 1))
          (pre.length + (label.length + 1))).map fun r => (label :: r.1, r.2)
      else none := by
  have hget : (pre ++ UInt8.ofNat label.length :: (label ++ post))[pre.length]? =
      some (UInt8.ofNat label.length) := by simp
  have hbyte : (UInt8.ofNat label.length).toNat = label.length := UInt8.toNat_ofNat_of_lt' (by
    have : UInt8.size = 256 := rfl
    omega)
  have hbytes := readBytes_append (pre ++ [UInt8.ofNat label.length]) label post
  rw [List.append_assoc, List.singleton_append, List.length_append, List.length_singleton] at hbytes
  rw [readName, hget]
  simp only [hbyte]
  rw [if_neg (by omega), if_pos (by omega)]
  split_ifs
  · rw [hbytes]
    simp only
    rw [show pre.length + 1 + label.length = pre.length + (label.length + 1) by omega]
  · rfl

/-- **The decoder goes through short labels one by one**, as far as there is room for them. -/
theorem readName_labels (room : ℕ) {labels : List (List UInt8)} (hpos : ∀ l ∈ labels, 0 < l.length)
    (hlen : ∀ l ∈ labels, l.length ≤ 63) (pre post : List UInt8) :
    readName (pre ++ (encodeLabels labels ++ post)) room pre.length =
      if (encodeLabels labels).length ≤ room then
        (readName (pre ++ (encodeLabels labels ++ post)) (room - (encodeLabels labels).length)
          (pre.length + (encodeLabels labels).length)).map fun r => (labels ++ r.1, r.2)
      else none := by
  induction labels generalizing room pre with
  | nil =>
    rw [show encodeLabels [] = [] from rfl, List.length_nil, if_pos (Nat.zero_le room), Nat.sub_zero, Nat.add_zero]
    simp
  | cons label labels ih =>
    obtain ⟨hp, hps⟩ := List.forall_mem_cons.mp hpos
    obtain ⟨hl, hls⟩ := List.forall_mem_cons.mp hlen
    have hmsg : pre ++ (encodeLabels (label :: labels) ++ post) =
        pre ++ UInt8.ofNat label.length :: (label ++ (encodeLabels labels ++ post)) := by
      rw [encodeLabels_cons, List.cons_append, List.append_assoc]
    have hmsg' : pre ++ UInt8.ofNat label.length :: (label ++ (encodeLabels labels ++ post)) =
        (pre ++ UInt8.ofNat label.length :: label) ++ (encodeLabels labels ++ post) := by simp
    have hpre : pre.length + (label.length + 1) = (pre ++ UInt8.ofNat label.length :: label).length := by simp
    have htotal : (encodeLabels (label :: labels)).length = label.length + 1 + (encodeLabels labels).length := by
      rw [encodeLabels_cons, List.length_cons, List.length_append]
      omega
    rw [hmsg, readName_label room hp hl, htotal]
    by_cases hroom : label.length + 1 ≤ room
    · rw [if_pos hroom, hmsg', hpre, ih (room - (label.length + 1)) hps hls]
      by_cases hrest : (encodeLabels labels).length ≤ room - (label.length + 1)
      · rw [if_pos hrest, if_pos (by omega), Option.map_map, Nat.sub_sub, ← hpre,
          ← Nat.add_assoc pre.length (label.length + 1)]
        rfl
      · rw [if_neg hrest, if_neg (by omega)]
        rfl
    · rw [if_neg hroom, if_neg (by omega)]

/-- Labels that are too long: the first of them, after short ones. -/
theorem exists_long_label {labels : List (List UInt8)} (h : ¬ ∀ l ∈ labels, l.length ≤ 63) :
    ∃ short label rest, labels = short ++ label :: rest ∧ (∀ l ∈ short, l.length ≤ 63) ∧ 63 < label.length := by
  induction labels with
  | nil => exact absurd (fun _ hl => (nomatch hl)) h
  | cons l ls ih =>
    by_cases hl : l.length ≤ 63
    · obtain ⟨short, label, rest, rfl, hshort, hlabel⟩ :=
        ih fun hls => h (List.forall_mem_cons.mpr ⟨hl, hls⟩)
      exact ⟨l :: short, label, rest, rfl, List.forall_mem_cons.mpr ⟨hl, hshort⟩, hlabel⟩
    · exact ⟨[], l, ls, rfl, nofun, not_le.mp hl⟩

/-- **The name of a writer that does not look at the length of its labels**: it is read as it was meant if it fits. If
it does not, nothing is read, or what is read ends early. -/
theorem readName_encode {labels : List (List UInt8)} (hpos : ∀ l ∈ labels, 0 < l.length)
    (hbyte : ∀ l ∈ labels, l.length ≤ 255) (pre post : List UInt8) :
    (Fits labels → readName (pre ++ (encodeLabels labels ++ 0 :: post)) 254 pre.length =
      some (labels, pre.length + (encodeLabels labels).length + 1)) ∧
    (¬ Fits labels → ∀ r, readName (pre ++ (encodeLabels labels ++ 0 :: post)) 254 pre.length = some r →
      r.2 < pre.length + (encodeLabels labels).length) := by
  have hsum := encodeLabels_length labels
  constructor
  · rintro ⟨hshort, htotal⟩
    have hzero : (pre ++ (encodeLabels labels ++ 0 :: post))[pre.length + (encodeLabels labels).length]? = some 0 := by
      simp
    rw [readName_labels 254 hpos hshort, if_pos (by omega), readName_zero _ hzero]
    simp
  · intro hfits r hr
    by_cases hshort : ∀ l ∈ labels, l.length ≤ 63
    · -- the name is too long
      have hlong : ¬ (encodeLabels labels).length ≤ 254 := fun hle => hfits ⟨hshort, by omega⟩
      rw [readName_labels 254 hpos hshort, if_neg hlong] at hr
      cases hr
    · obtain ⟨short, label, rest, rfl, hshort, hlabel⟩ := exists_long_label hshort
      have hlen : label.length ≤ 255 := hbyte label (by simp)
      have hmsg : pre ++ (encodeLabels (short ++ label :: rest) ++ 0 :: post) =
          pre ++ (encodeLabels short ++
            UInt8.ofNat label.length :: (label ++ (encodeLabels rest ++ 0 :: post))) := by
        rw [encodeLabels_append, encodeLabels_cons]
        simp
      have hget : (pre ++ (encodeLabels short ++
          UInt8.ofNat label.length :: (label ++ (encodeLabels rest ++ 0 :: post))))[
            pre.length + (encodeLabels short).length]? = some (UInt8.ofNat label.length) := by simp
      have hof : (UInt8.ofNat label.length).toNat = label.length := UInt8.toNat_ofNat_of_lt' (by
        have : UInt8.size = 256 := rfl
        omega)
      have htotal : (encodeLabels (short ++ label :: rest)).length =
          (encodeLabels short).length + (label.length + 1) + (encodeLabels rest).length := by
        rw [encodeLabels_append, encodeLabels_cons, List.length_append, List.length_cons, List.length_append]
        omega
      rw [hmsg, readName_labels 254 (fun l hl => hpos l (by simp [hl])) hshort] at hr
      split_ifs at hr
      obtain ⟨r', hr', rfl⟩ := Option.map_eq_some_iff.mp hr
      rcases Nat.lt_or_ge label.length 192 with hreserved | hpointer
      · rw [readName_reserved _ hget (by omega) (by omega)] at hr'
        cases hr'
      · -- the length of the label is read as a pointer
        have hend := readName_pointer hget (by omega) hr'
        simp only [hend, htotal]
        omega

/-! ## Messages -/

/-- The type and the class stand behind the name. -/
theorem readQuestion_some {r : Question × ℕ} (h : readQuestion msg pos = some r) :
    ∃ name, readName msg 254 pos = some name ∧ r.2 = name.2 + 4 := by
  obtain ⟨name, hname, h⟩ := Option.bind_eq_some_iff.mp h
  obtain ⟨qtype, -, h⟩ := Option.bind_eq_some_iff.mp h
  obtain ⟨qclass, -, h⟩ := Option.bind_eq_some_iff.mp h
  obtain rfl := Option.some.inj h
  exact ⟨name, hname, rfl⟩

/-- The header of a message with one question. -/
theorem readMessage_encodeQuery {id flags : ℕ} (hid : id < 65536) (hflags : flags < 65536) (q : Question) :
    readMessage (encodeQuery id flags q) = (readQuestion (encodeQuery id flags q) 12).map fun r =>
      (⟨id, flags, [r.1], [], [], []⟩, r.2) := by
  have h0 : readNumber (encodeQuery id flags q) 2 0 = some id := by
    simpa [encodeQuery] using readNumber_append [] _ 2 id hid
  have h2 : readNumber (encodeQuery id flags q) 2 2 = some flags := by
    simpa [encodeQuery] using readNumber_append (beBytes 2 id) _ 2 flags hflags
  have h4 : readNumber (encodeQuery id flags q) 2 4 = some 1 := by
    simpa [encodeQuery] using readNumber_append (beBytes 2 id ++ beBytes 2 flags) _ 2 1 (by decide)
  have h6 : readNumber (encodeQuery id flags q) 2 6 = some 0 := by
    simpa [encodeQuery] using readNumber_append (beBytes 2 id ++ beBytes 2 flags ++ beBytes 2 1) _ 2 0 (by decide)
  have h8 : readNumber (encodeQuery id flags q) 2 8 = some 0 := by
    simpa [encodeQuery] using
      readNumber_append (beBytes 2 id ++ beBytes 2 flags ++ beBytes 2 1 ++ beBytes 2 0) _ 2 0 (by decide)
  have h10 : readNumber (encodeQuery id flags q) 2 10 = some 0 := by
    simpa [encodeQuery] using
      readNumber_append (beBytes 2 id ++ beBytes 2 flags ++ beBytes 2 1 ++ beBytes 2 0 ++ beBytes 2 0) _ 2 0 (by decide)
  simp only [readMessage, h0, h2, h4, h6, h8, h10, Option.bind_eq_bind, Option.bind_some, readSection]
  cases readQuestion (encodeQuery id flags q) 12 <;> rfl

/-- **What is decoded from a message with one question**: that question if its name fits, and nothing else. -/
theorem decode_encodeQuery {id flags : ℕ} (hid : id < 65536) (hflags : flags < 65536) {q : Question}
    (hpos : ∀ l ∈ q.name, 0 < l.length) (hbyte : ∀ l ∈ q.name, l.length ≤ 255) (hqtype : q.qtype < 65536)
    (hqclass : q.qclass < 65536) :
    decode (encodeQuery id flags q) = if Fits q.name then some ⟨id, flags, [q], [], [], []⟩ else none := by
  obtain ⟨hfits, hlong⟩ := readName_encode hpos hbyte
    (beBytes 2 id ++ beBytes 2 flags ++ beBytes 2 1 ++ beBytes 2 0 ++ beBytes 2 0 ++ beBytes 2 0)
    (beBytes 2 q.qtype ++ beBytes 2 q.qclass)
  have hlen : (encodeQuery id flags q).length = 12 + (encodeLabels q.name).length + 5 := by
    simp only [encodeQuery, List.length_append, beBytes_length, List.length_cons]
    omega
  have hheader : (beBytes 2 id ++ beBytes 2 flags ++ beBytes 2 1 ++ beBytes 2 0 ++ beBytes 2 0 ++ beBytes 2 0).length =
      12 := by simp only [List.length_append, beBytes_length]
  rw [← encodeQuery, hheader] at hfits hlong
  rw [decode, readMessage_encodeQuery hid hflags]
  split_ifs with hname
  · have hqtype' : readNumber (encodeQuery id flags q) 2 (12 + (encodeLabels q.name).length + 1) = some q.qtype := by
      have h := readNumber_append (beBytes 2 id ++ beBytes 2 flags ++ beBytes 2 1 ++ beBytes 2 0 ++ beBytes 2 0 ++
        beBytes 2 0 ++ encodeLabels q.name ++ [0]) (beBytes 2 q.qclass) 2 q.qtype hqtype
      rw [List.length_append, List.length_append, hheader] at h
      simpa [encodeQuery] using h
    have hqclass' : readNumber (encodeQuery id flags q) 2 (12 + (encodeLabels q.name).length + 1 + 2) =
        some q.qclass := by
      have h := readNumber_append (beBytes 2 id ++ beBytes 2 flags ++ beBytes 2 1 ++ beBytes 2 0 ++ beBytes 2 0 ++
        beBytes 2 0 ++ encodeLabels q.name ++ [0] ++ beBytes 2 q.qtype) [] 2 q.qclass hqclass
      rw [List.length_append, List.length_append, List.length_append, hheader, beBytes_length] at h
      simpa [encodeQuery] using h
    have hquestion : readQuestion (encodeQuery id flags q) 12 =
        some (q, 12 + (encodeLabels q.name).length + 1 + 4) := by
      rw [readQuestion, hfits hname]
      simp only [Option.bind_eq_bind, Option.bind_some, hqtype', hqclass']
      rfl
    rw [hquestion]
    exact if_pos (by rw [hlen])
  · cases hq : readQuestion (encodeQuery id flags q) 12 with
    | none => rfl
    | some r =>
      obtain ⟨name, hread, hend⟩ := readQuestion_some hq
      have := hlong hname name hread
      exact if_neg (by rw [hlen]; omega)

end

end Dns
