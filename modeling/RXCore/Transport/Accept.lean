import RXCore.Lib.Run
import RXCore.Lib.Tls
import RXCore.Outbound.Stream
import RXCore.Transport.Reality

/-!
# The Reality accept path

`RealityServerRustls::accept` from the first read to one of its two exits: the TLS acceptor, which reads
through a `PrefixedStream`, or the relay to the fallback destination.

* `readTask`: the records of a ClientHello are read, raw and reassembled;
* `RealityServerRustls.accept`, `AcceptPath`; `PrefixedStream.pollRead`; `relayStep`;
* **`accept_transparent`**: at both exits the receiver sees the bytes of the client and no others;
* `readRecords_pieces`: a message in records of at most 18 KiB is put together again; `readTask_oversize`: one in a
  longer record is refused.
-/

set_option autoImplicit false

namespace RXCore

open Arrivals Encoding

/-! ## Reading the ClientHello -/

/-- What the read task of `accept` has read. -/
structure ReadTask where
  stream : List (Arrival UInt8)
  buffer : List UInt8
  handshakePayload : List UInt8

/-- The first message of the payload is complete, or is no ClientHello. -/
def helloRead (handshakePayload : List UInt8) : Bool :=
  if 4 ≤ handshakePayload.length then
    if handshakePayload.getD 0 0 = 1 then
      let msgLen := (handshakePayload.getD 1 0).toNat * 65536 + u16At handshakePayload 2
      4 + msgLen ≤ handshakePayload.length
    else true
  else false

def maxTlsRecord : ℕ := 18 * 1024

def maxClientHello : ℕ := 64 * 1024

/-- The loop of the read task, with so many records left to read; the text of a reading error is that of
an early end. -/
def readRecords : ℕ → ReadTask → Except String ReadTask
  | 0, s => .ok s
  | left + 1, s =>
    if 65536 ≤ s.handshakePayload.length then .ok s
    else match recvLoop 5 5 s.stream with
    | (none, _) => .error "Connection closed early"
    | (some header, stream) =>
      let contentType := header.getD 0 0
      let recordLen := u16At header 3
      if contentType ≠ 0x16 then .ok { s with stream := stream, buffer := s.buffer ++ header }
      else if recordLen = 0 ∨ maxTlsRecord < recordLen then .error "Invalid TLS record length"
      else if maxClientHello < s.handshakePayload.length + recordLen then
        .error "ClientHello exceeds maximum size"
      else match recvLoop 4096 recordLen stream with
      | (none, _) => .error "Connection closed early"
      | (some payload, stream) =>
        let s : ReadTask := ⟨stream, s.buffer ++ header ++ payload, s.handshakePayload ++ payload⟩
        if helloRead s.handshakePayload then .ok s else readRecords left s

/-- The read task. -/
def readTask (stream : List (Arrival UInt8)) : Except String ReadTask := readRecords 8 ⟨stream, [], []⟩

/-! ## The two exits -/

/-- `PrefixedStream`, with what is left of its prefix. -/
structure PrefixedStream where
  pre : List UInt8
  inner : List (Arrival UInt8)

/-- `PrefixedStream::poll_read` into a buffer with room for `cap` bytes. -/
def PrefixedStream.pollRead (p : PrefixedStream) (cap : ℕ) : Option (List UInt8) × PrefixedStream :=
  if p.pre ≠ [] then (some (p.pre.take cap), { p with pre := p.pre.drop cap })
  else ((recv cap p.inner).1, { p with inner := (recv cap p.inner).2 })

inductive AcceptPath where
  /-- The stream that the TLS acceptor reads. -/
  | handOver (prefixed : PrefixedStream)
  /-- `fallback`: the destination gets what was read, then what is still to come. -/
  | fallback (relay : Pipe)

/-- What surrounds an accept. -/
structure AcceptEnv where
  timedOut : Bool
  /-- `generate_reality_cert`. -/
  cert : Except String Unit
  /-- The connection to the fallback destination. -/
  connect : Except String Unit

/-- The server name is one of those configured, if any are. -/
def RealityServerRustls.sniValid (X : Crates) (server : RealityServerRustls) (info : ClientHelloInfo) : Bool :=
  if server.serverNames = [] then true
  else match info.serverName with
    | some sni => server.serverNames.any fun s => X.toLowercase s == X.toLowercase sni
    | none => false

/-- The message is a ClientHello of a Reality client. -/
def RealityServerRustls.admits (X : Crates) (server : RealityServerRustls) (handshakePayload : List UInt8) :
    Bool :=
  match parseClientHello handshakePayload with
  | .ok (some info) => server.sniValid X info && (verifyClientReality X server info handshakePayload).isSome
  | _ => false

/-- `RealityServerRustls::accept` up to its exit. -/
def RealityServerRustls.accept (X : Crates) (server : RealityServerRustls) (env : AcceptEnv)
    (stream : List (Arrival UInt8)) : Except String AcceptPath := do
  let s ← readTask stream
  refuseIf env.timedOut "Handshake timeout"
  if server.admits X s.handshakePayload then
    env.cert.map fun _ => .handOver ⟨s.buffer, s.stream⟩
  else env.connect.map fun _ => .fallback ⟨s.stream, s.buffer, none⟩

/-! ## What the receiver sees -/

/-- What a receiver gets that reads into buffers of the sizes `caps`, up to a failing read. -/
def PrefixedStream.reads : List ℕ → PrefixedStream → List UInt8
  | [], _ => []
  | cap :: caps, p => match p.pollRead cap with
    | (none, _) => []
    | (some bs, p) => bs ++ reads caps p

/-- A step of the relay to the fallback destination, with what the destination has got. -/
def relayStep (s : Pipe × List UInt8) (e : PipeEvent) : Option (Pipe × List UInt8) :=
  (s.1.step e).map fun (p, bs, _) => (p, s.2 ++ bs)

/-- The receiver sees the given bytes, in order, and no others; all of them once it has read often enough, or
the relay has come to its end. -/
def AcceptPath.Shows (bytes : List UInt8) : AcceptPath → Prop
  | handOver p => ∀ caps, p.reads caps <+: bytes ∧
      (bytes.length ≤ (caps.filter (0 < ·)).length → p.reads caps = bytes)
  | fallback relay => ∀ events p got, Run.exec relayStep (relay, []) events = some (p, got) →
      got <+: bytes ∧ (p.ended = some true → got = bytes)

/-- What a prefixed stream will deliver. -/
def PrefixedStream.content (p : PrefixedStream) : List UInt8 := p.pre ++ Arrivals.content p.inner

theorem PrefixedStream.pollRead_content {p p' : PrefixedStream} {cap : ℕ} {bs : List UInt8}
    (h : p.pollRead cap = (some bs, p')) : p.content = bs ++ p'.content := by
  unfold pollRead at h
  split_ifs at h with hpre
  · obtain ⟨rfl, rfl⟩ := by simpa using h
    simp only [PrefixedStream.content]
    rw [← List.append_assoc, List.take_append_drop]
  · obtain ⟨h1, rfl⟩ := Prod.mk.inj h
    have hc := recv_content (Prod.ext h1 rfl : recv cap p.inner = (some bs, (recv cap p.inner).2))
    simp only [PrefixedStream.content, not_not.mp hpre, List.nil_append]
    exact hc

/-- A read succeeds as long as there is anything, and gets something if it has room. -/
theorem PrefixedStream.pollRead_of_content {p : PrefixedStream} (cap : ℕ) (h : p.content ≠ []) :
    ∃ bs p', p.pollRead cap = (some bs, p') ∧ (0 < cap → bs ≠ []) := by
  unfold pollRead
  split_ifs with hpre
  · exact ⟨p.pre.take cap, { p with pre := p.pre.drop cap }, rfl, fun hcap => by simp [hpre, hcap.ne']⟩
  · simp only [PrefixedStream.content, not_not.mp hpre, List.nil_append] at h
    obtain ⟨bs, r', hr, -, hpos⟩ := recv_of_content cap h
    exact ⟨bs, { p with inner := r' }, by simp [hr], hpos⟩

theorem PrefixedStream.reads_prefix (caps : List ℕ) (p : PrefixedStream) : p.reads caps <+: p.content := by
  induction caps generalizing p with
  | nil => exact List.nil_prefix
  | cons cap caps ih =>
    rw [reads]
    rcases hr : p.pollRead cap with ⟨_ | bs, p'⟩
    · exact List.nil_prefix
    · dsimp only
      rw [pollRead_content hr]
      exact List.prefix_append_right_inj bs |>.mpr (ih p')

/-- **Enough reads get everything**, whatever the sizes of their buffers. -/
theorem PrefixedStream.reads_all (caps : List ℕ) (p : PrefixedStream)
    (h : p.content.length ≤ (caps.filter (0 < ·)).length) : p.reads caps = p.content := by
  induction caps generalizing p with
  | nil =>
    have hnil : p.content = [] := List.eq_nil_of_length_eq_zero (by simpa using h)
    rw [reads, hnil]
  | cons cap caps ih =>
    by_cases hnil : p.content = []
    · exact List.IsPrefix.eq_of_length_le (p.reads_prefix _) (by simp [hnil])
    · obtain ⟨bs, p', hr, hpos⟩ := pollRead_of_content cap hnil
      have hc := pollRead_content hr
      have hlen := congrArg List.length hc
      rw [List.length_append] at hlen
      rw [reads, hr, hc]
      dsimp only
      rw [ih p']
      by_cases hcap : 0 < cap
      · have hbs := List.length_pos_iff.mpr (hpos hcap)
        rw [List.filter_cons_of_pos (by simpa using hcap), List.length_cons] at h
        omega
      · rw [List.filter_cons_of_neg (by simpa using hcap)] at h
        omega

/-! ## The relay -/

/-- What the destination has got, what is on its way to it, and what is still to come. -/
def RelayKeeps (bytes : List UInt8) (s : Pipe × List UInt8) : Prop :=
  match s.1.ended with
  | none => s.2 ++ s.1.buf ++ Arrivals.content s.1.reader = bytes
  | some true => s.2 = bytes
  | some false => s.2 <+: bytes

theorem relayStep_keeps {bytes : List UInt8} {s s' : Pipe × List UInt8} {e : PipeEvent}
    (hk : RelayKeeps bytes s) (h : relayStep s e = some s') : RelayKeeps bytes s' := by
  obtain ⟨⟨reader, buf, ended⟩, got⟩ := s
  obtain ⟨⟨p, bs, n⟩, hp, rfl⟩ := Option.map_eq_some_iff.mp h
  cases ended with
  | some ok => cases hp
  | none =>
    simp only [RelayKeeps] at hk
    cases buf with
    | nil =>
      rw [List.append_nil] at hk
      cases e with
      | write fault => cases fault <;> cases hp
      | read =>
        simp only [Pipe.step] at hp
        rcases hr : recv 8192 reader with ⟨_ | _ | ⟨c, cs⟩, r⟩
        · -- the read fails
          simp [hr] at hp
          obtain ⟨rfl, rfl, -⟩ := hp
          exact ⟨Arrivals.content reader, by simpa using hk⟩
        · -- the client has sent everything
          simp [hr] at hp
          obtain ⟨rfl, rfl, -⟩ := hp
          have hend : Arrivals.content reader = [] := by
            by_contra hne
            obtain ⟨bs, r', hr', -, hpos⟩ := recv_of_content 8192 hne
            rw [hr] at hr'
            obtain ⟨h1, -⟩ := Prod.mk.inj hr'
            exact hpos (by omega) (Option.some.inj h1).symm
          rw [hend, List.append_nil] at hk
          simpa [RelayKeeps] using hk
        · simp [hr] at hp
          obtain ⟨rfl, rfl, -⟩ := hp
          rw [recv_content hr] at hk
          simpa [RelayKeeps] using hk
    | cons b buf =>
      cases e with
      | read => cases hp
      | write fault =>
        cases fault with
        | none =>
          simp [Pipe.step] at hp
          obtain ⟨rfl, rfl, -⟩ := hp
          simpa [RelayKeeps] using hk
        | some k =>
          simp [Pipe.step] at hp
          obtain ⟨rfl, rfl, -⟩ := hp
          refine ⟨(b :: buf).drop k ++ Arrivals.content reader, ?_⟩
          rw [← hk, List.append_assoc, List.append_assoc, ← List.append_assoc ((b :: buf).take k),
            List.take_append_drop]

theorem relay_shows (relay : Pipe) (hopen : relay.ended = none) :
    AcceptPath.Shows (relay.buf ++ Arrivals.content relay.reader) (.fallback relay) := by
  intro events p got h
  have hstart : RelayKeeps (relay.buf ++ Arrivals.content relay.reader) (relay, []) := by simp [RelayKeeps, hopen]
  have hk := Run.exec_invariant (fun _ _ _ => relayStep_keeps) hstart h
  unfold RelayKeeps at hk
  split at hk
  · next hend =>
    refine ⟨⟨p.buf ++ Arrivals.content p.reader, by rw [← hk, List.append_assoc]⟩, fun hended => ?_⟩
    cases hend.symm.trans hended
  · exact ⟨hk ▸ List.prefix_rfl, fun _ => hk⟩
  · next hend => exact ⟨hk, fun hended => by cases hend.symm.trans hended⟩

/-! ## Transparency -/

/-- **Nothing that is read is lost**: it is all in the buffer. -/
theorem readRecords_content {left : ℕ} {s s' : ReadTask} (h : readRecords left s = .ok s') :
    s'.buffer ++ Arrivals.content s'.stream = s.buffer ++ Arrivals.content s.stream := by
  induction left generalizing s with
  | zero =>
    obtain rfl := Except.ok.inj h
    rfl
  | succ left ih =>
    rw [readRecords] at h
    split_ifs at h
    · obtain rfl := Except.ok.inj h
      rfl
    · split at h
      · cases h
      · next header stream hheader =>
        have hc := recvLoop_content hheader
        dsimp only at h
        split_ifs at h
        · obtain rfl := Except.ok.inj h
          simp [hc]
        · split at h
          · cases h
          · next payload stream' hpayload =>
            have hc' := recvLoop_content hpayload
            split_ifs at h
            · obtain rfl := Except.ok.inj h
              simp [hc, hc']
            · rw [ih h]
              simp [hc, hc']

/-- **Transparency.** Whichever exit an accept takes, the receiver sees the bytes of the client. -/
theorem accept_shows {X : Crates} {server : RealityServerRustls} {env : AcceptEnv}
    {stream : List (Arrival UInt8)} {path : AcceptPath} (h : server.accept X env stream = .ok path) :
    path.Shows (Arrivals.content stream) := by
  simp only [RealityServerRustls.accept, bind_ok] at h
  obtain ⟨s, hs, -, -, h⟩ := h
  have hc : s.buffer ++ Arrivals.content s.stream = Arrivals.content stream := readRecords_content hs
  split_ifs at h
  · cases hcert : env.cert with
    | error e =>
      rw [hcert] at h
      cases h
    | ok u =>
      rw [hcert] at h
      obtain rfl := Except.ok.inj h
      intro caps
      have hp : PrefixedStream.content ⟨s.buffer, s.stream⟩ = Arrivals.content stream := hc
      rw [← hp]
      exact ⟨PrefixedStream.reads_prefix caps _, PrefixedStream.reads_all caps _⟩
  · cases hconnect : env.connect with
    | error e =>
      rw [hconnect] at h
      cases h
    | ok u =>
      rw [hconnect] at h
      obtain rfl := Except.ok.inj h
      rw [← hc]
      exact relay_shows ⟨s.stream, s.buffer, none⟩ rfl

/-! ## Reassembly -/

/-- The bytes are one ClientHello message. -/
def IsClientHello (m : List UInt8) : Prop :=
  4 ≤ m.length ∧ m.getD 0 0 = 1 ∧ 4 + ((m.getD 1 0).toNat * 65536 + u16At m 2) = m.length

/-- The handshake records that carry the given pieces, each with its version. -/
def handshakeRecords (pieces : List (Vector UInt8 2 × List UInt8)) : List UInt8 :=
  pieces.flatMap fun f => Tls.record f.1 f.2

/-- A part of the message is taken for complete only when it is all of it. -/
theorem helloRead_iff {m : List UInt8} (hm : IsClientHello m) {a b : List UInt8} (h : m = a ++ b) :
    helloRead a = true ↔ b = [] := by
  obtain ⟨h4, htype, hlen⟩ := hm
  have hl := congrArg List.length h
  rw [List.length_append] at hl
  unfold helloRead
  split_ifs with ha ha0
  · have hget : ∀ i < 4, a.getD i 0 = m.getD i 0 := fun i hi => by
      rw [h, List.getD_append _ _ _ _ (by omega)]
    have hu : u16At a 2 = u16At m 2 := by
      rw [u16At, u16At, hget 2 (by omega), hget 3 (by omega)]
    rw [hget 1 (by omega), hu, decide_eq_true_iff, hlen, ← List.length_eq_zero_iff]
    omega
  · refine absurd ?_ ha0
    rw [← htype, h, List.getD_append _ _ _ _ (by omega)]
  · constructor
    · intro hc
      cases hc
    · rintro rfl
      rw [List.length_nil] at hl
      omega

theorem record_header (version : Vector UInt8 2) {f : List UInt8} (h : f.length < 65536) :
    ∃ header, Tls.record version f = header ++ f ∧ header.length = 5 ∧ header.getD 0 0 = 0x16 ∧
      u16At header 3 = f.length := by
  have hlen := u16At_append (22 :: version.toList) [] f.length
  refine ⟨22 :: version.toList ++ u16Bytes f.length, by simp [Tls.record, Tls.vec, beBytes, u16Bytes], by simp,
    rfl, ?_⟩
  rw [List.append_nil, Nat.mod_eq_of_lt h, List.length_cons, Vector.length_toList] at hlen
  exact hlen

/-- **Reassembly**, from any point of the message on. -/
theorem readRecords_pieces {m : List UInt8} (hm : IsClientHello m) (hmax : m.length ≤ maxClientHello)
    {pieces : List (Vector UInt8 2 × List UInt8)} (hmore : pieces ≠ [])
    (hpieces : ∀ f ∈ pieces, f.2 ≠ [] ∧ f.2.length ≤ maxTlsRecord) {left : ℕ} (hleft : pieces.length ≤ left)
    {s : ReadTask} (hsplit : m = s.handshakePayload ++ pieces.flatMap Prod.snd) {rest : List UInt8}
    (hcontent : Arrivals.content s.stream = handshakeRecords pieces ++ rest) :
    ∃ stream, readRecords left s = .ok ⟨stream, s.buffer ++ handshakeRecords pieces, m⟩ ∧
      Arrivals.content stream = rest := by
  induction pieces generalizing left s with
  | nil => exact absurd rfl hmore
  | cons f pieces ih =>
    obtain ⟨hne, hle⟩ := hpieces f List.mem_cons_self
    have hfpos := List.length_pos_iff.mpr hne
    rw [maxTlsRecord] at hle
    rw [maxClientHello] at hmax
    obtain ⟨left, rfl⟩ : ∃ n, left = n + 1 := ⟨left - 1, by rw [List.length_cons] at hleft; omega⟩
    rw [List.flatMap_cons, ← List.append_assoc] at hsplit
    have hl := congrArg List.length hsplit
    rw [List.length_append, List.length_append] at hl
    -- the record is there, header first
    obtain ⟨header, hrecord, hheader, htype, hlen⟩ := record_header f.1 (f := f.2) (by omega)
    have hrecords : handshakeRecords (f :: pieces) = header ++ (f.2 ++ handshakeRecords pieces) := by
      rw [handshakeRecords, List.flatMap_cons, hrecord, List.append_assoc]
      rfl
    rw [hrecords, List.append_assoc, List.append_assoc] at hcontent
    obtain ⟨stream₁, hr₁, hc₁⟩ := recvLoop_eq (show 0 < 5 by decide) hcontent
    obtain ⟨stream₂, hr₂, hc₂⟩ := recvLoop_eq (show 0 < 4096 by decide) hc₁
    rw [hheader] at hr₁
    have hstep : readRecords (left + 1) s =
        if helloRead (s.handshakePayload ++ f.2) then
          .ok ⟨stream₂, s.buffer ++ header ++ f.2, s.handshakePayload ++ f.2⟩
        else readRecords left ⟨stream₂, s.buffer ++ header ++ f.2, s.handshakePayload ++ f.2⟩ := by
      rw [readRecords, if_neg (by omega), hr₁]
      dsimp only
      rw [htype, hlen, if_neg (by simp), if_neg (by rw [maxTlsRecord]; omega),
        if_neg (by rw [maxClientHello]; omega), hr₂]
    rw [hstep]
    cases pieces with
    | nil =>
      rw [List.flatMap_nil] at hsplit
      rw [if_pos ((helloRead_iff hm hsplit).mpr rfl), hrecords]
      refine ⟨stream₂, ?_, by simpa [handshakeRecords] using hc₂⟩
      simp [handshakeRecords, hsplit]
    | cons g pieces =>
      have hgne := (hpieces g (by simp)).1
      have hmore' : (g :: pieces).flatMap Prod.snd ≠ [] := by simp [hgne]
      rw [if_neg (fun hc => hmore' ((helloRead_iff hm hsplit).mp hc))]
      rw [List.length_cons] at hleft
      obtain ⟨stream, hr, hc⟩ := ih (by simp) (fun f' hf' => hpieces f' (List.mem_cons_of_mem _ hf'))
        (show (g :: pieces).length ≤ left by omega)
        (show m = (⟨stream₂, s.buffer ++ header ++ f.2, s.handshakePayload ++ f.2⟩ : ReadTask).handshakePayload ++
          (g :: pieces).flatMap Prod.snd from hsplit) hc₂
      refine ⟨stream, ?_, hc⟩
      rw [hr, hrecords]
      simp

/-- **A message in a record that is too long is refused.** -/
theorem readTask_oversize {version : Vector UInt8 2} {m : List UInt8} (h : maxTlsRecord < m.length)
    (hm : m.length < 65536) {stream : List (Arrival UInt8)} {rest : List UInt8}
    (hcontent : Arrivals.content stream = Tls.record version m ++ rest) :
    readTask stream = .error "Invalid TLS record length" := by
  obtain ⟨header, hrecord, hheader, htype, hlen⟩ := record_header version hm
  rw [hrecord, List.append_assoc] at hcontent
  obtain ⟨stream₁, hr₁, hc₁⟩ := recvLoop_eq (show 0 < 5 by decide) hcontent
  rw [hheader] at hr₁
  rw [readTask, readRecords, if_neg (by simp), hr₁]
  dsimp only
  rw [htype, hlen, if_neg (by simp), if_pos (.inr h)]

/-- `m` is a ClientHello of at most 64 KiB, and `pieces` are what at most eight non-empty records of a length
that the server takes carry of it. -/
structure SplitInto (m : List UInt8) (pieces : List (Vector UInt8 2 × List UInt8)) : Prop where
  message : IsClientHello m
  size : m.length ≤ maxClientHello
  count : pieces.length ≤ 8
  records : ∀ f ∈ pieces, f.2 ≠ [] ∧ f.2.length ≤ maxTlsRecord
  whole : pieces.flatMap Prod.snd = m

/-- **The accept path is transparent, and reassembles what it verifies.** -/
theorem accept_transparent :
    (∀ (X : Crates) (server : RealityServerRustls) (env : AcceptEnv) (stream : List (Arrival UInt8)) path,
      server.accept X env stream = .ok path → path.Shows (Arrivals.content stream)) ∧
    ∀ m pieces (stream : List (Arrival UInt8)) rest, SplitInto m pieces →
      Arrivals.content stream = handshakeRecords pieces ++ rest →
        ∃ stream', readTask stream = .ok ⟨stream', handshakeRecords pieces, m⟩ ∧
          Arrivals.content stream' = rest := by
  refine ⟨fun X server env stream path h => accept_shows h, fun m pieces stream rest h hcontent => ?_⟩
  have hmore : pieces ≠ [] := by
    rintro rfl
    have h4 := h.message.1
    rw [← h.whole] at h4
    simp at h4
  exact readRecords_pieces h.message h.size hmore h.records h.count (s := ⟨stream, [], []⟩) h.whole.symm hcontent

/-- A well-formed message is one ClientHello message. -/
theorem isClientHello_encode (h : Tls.ClientHello) : IsClientHello h.encode := by
  have hbody := h.body_lt
  have hlow := u16_ofNat h.body.length
  refine ⟨by simp, rfl, ?_⟩
  rw [Tls.ClientHello.encode_length]
  simp only [Tls.ClientHello.encode, Tls.vec, beBytes, u16At, List.cons_append, List.getD_cons_succ,
    List.getD_cons_zero, Nat.pow_one, Nat.pow_zero, Nat.div_one, hlow, UInt8.toNat_ofNat']
  omega

theorem nullMethod_lt : [(0 : UInt8)].length < 2 ^ 8 := by decide

/-- A message with so much padding. -/
def paddedHello (n : ℕ) (h : n < 65000) : Tls.ClientHello where
  random := Vector.replicate 32 1
  legacySessionId := []
  legacySessionId_le := by decide
  cipherSuites := [0x1301]
  cipherSuites_lt := by decide
  legacyCompressionMethods := [0]
  legacyCompressionMethods_lt := nullMethod_lt
  extensions := [.other 21 (List.replicate n 0) (by decide)]
  distinct := by simp
  extensions_lt := by
    simp [Tls.Extension.encode, Tls.Extension.data]
    omega

theorem paddedHello_length (n : ℕ) (h : n < 65000) : (paddedHello n h).encode.length = 51 + n := by
  rw [Tls.ClientHello.encode_length, Tls.ClientHello.body_length]
  simp [paddedHello, Tls.Extension.encode, Tls.Extension.data]
  omega

/-- A message in two records. -/
def twoRecords : List (Vector UInt8 2 × List UInt8) :=
  let m := (paddedHello 9 (by decide)).encode
  [(#v[3, 1], m.take 3), (#v[3, 3], m.drop 3)]

/-- A client that speaks no TLS, with its first five bytes in two pieces. -/
def plainRequest : List (Arrival UInt8) := [.data [71, 69], .data [84, 32, 47, 32, 72]]

def anyServer : RealityServerRustls := ⟨Sample.serverSecret, false, "example.com:443", [], []⟩

theorem twoRecords_and_plainRequest :
    (∃ stream, readTask ((handshakeRecords twoRecords).map fun b => .data [b]) =
        .ok ⟨stream, handshakeRecords twoRecords, (paddedHello 9 (by decide)).encode⟩ ∧
      Arrivals.content stream = []) ∧
    AcceptPath.Shows [71, 69, 84, 32, 47, 32, 72] (.fallback ⟨[.data [32, 72]], [71, 69, 84, 32, 47], none⟩) := by
  have hpieces : ∀ bs : List UInt8, Arrivals.content (bs.map fun b => .data [b]) = bs ++ [] := by
    intro bs
    induction bs with
    | nil => rfl
    | cons b bs ih => exact congrArg (b :: ·) ih
  refine ⟨accept_transparent.2 _ _ _ [] ⟨isClientHello_encode _, by decide, by decide, by decide, ?_⟩
    (hpieces _), ?_⟩
  · simp [twoRecords]
  · refine accept_transparent.1 Sample.crates anyServer ⟨false, .ok (), .ok ()⟩ plainRequest _ ?_
    have hread : readTask plainRequest = .ok ⟨[.data [32, 72]], [71, 69, 84, 32, 47], []⟩ := by
      simp [readTask, readRecords, recvLoop, plainRequest, recv, putBack]
    rw [RealityServerRustls.accept, hread]
    rfl

/-- **A ClientHello in one record of more than 18 KiB**: it is refused. -/
theorem oversize_refused : ∃ h : Tls.ClientHello, h.encode.length ≤ maxClientHello ∧
    IsClientHello h.encode ∧
    readTask [.data (Tls.record #v[3, 1] h.encode)] = .error "Invalid TLS record length" := by
  have hlen := paddedHello_length 18400 (by omega)
  refine ⟨paddedHello 18400 (by omega), ?_, isClientHello_encode _, ?_⟩
  · rw [hlen, maxClientHello]
    omega
  · refine readTask_oversize ?_ ?_
      (show Arrivals.content [.data (Tls.record #v[3, 1] _)] = Tls.record #v[3, 1] _ ++ [] from rfl)
    · rw [hlen, maxTlsRecord]
      omega
    · rw [hlen]
      omega

end RXCore
