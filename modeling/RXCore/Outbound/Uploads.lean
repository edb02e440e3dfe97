import RXCore.Outbound.Relay
import RXCore.Lib.Run

/-!
# What a relay uploads

The bytes that a relay over TCP passes on to its destination, in any run of its handler and of the tasks of
its handler: nothing of the stream that it was given is left out, put in or moved.

* `upstream`, `RelayRun`, `RelayRun.step`: a relay with what has gone up so far;
* `Half.Uploads`, `Pipe.Uploads`, `FragmentUp.Uploads`, `Relay.Uploads`: what has gone up, what waits and what
  is still to be read make up the stream;
* `Relay.step_uploads`, `Relay.task_uploads`: a step of the handler and a step of a task;
* **`relay_uploads`**: what has gone up begins the stream, and is all of it once a loop without a quota has
  come to its end.
-/

set_option autoImplicit false

namespace RXCore

open Arrivals

/-! ## Runs -/

/-- The bytes that leave over TCP towards the destination. -/
def upstream (sent : List Egress) : List UInt8 :=
  sent.flatMap fun
    | .tcp _ bytes => bytes
    | _ => []

/-- A relay, and what has gone up to its destination. -/
structure RelayRun where
  relay : Relay
  uploaded : List UInt8

inductive RelayAct where
  /-- A step of the handler, with the engine as it is then. -/
  | step (s : EngineState) (connId : Uuid) (e : RelayEvent)
  | task (s : EngineState) (e : TaskEvent)
  /-- The handler has returned or is dropped. -/
  | detach

def RelayRun.after (r : RelayRun) (o : Outcome) : RelayRun := ⟨o.relay, r.uploaded ++ upstream o.sent⟩

def RelayRun.step (X : Crates) (r : RelayRun) : RelayAct → Option RelayRun
  | .step s connId e => (r.relay.step X s connId e).map r.after
  | .task s e => (r.relay.task s e).map r.after
  | .detach => some { r with relay := r.relay.detach }

/-! ## Streams on their way -/

/-- A direction of the copy on its way; it can stop short only where a quota is checked, or with a fault. -/
def Half.Uploads (metered : Bool) (stream sent : List UInt8) (h : Half) : Prop :=
  match h.phase with
  | .checking => sent ++ content h.copy.reader = stream
  | .reading => sent ++ content h.copy.reader = stream
  | .writing allowed bs => (metered = false → allowed = bs.length) ∧ sent ++ (bs ++ content h.copy.reader) = stream
  | .closing => sent <+: stream ∧ (metered = false → sent = stream)
  | .ended ok => sent <+: stream ∧ (ok = true → metered = false → sent = stream)

def Pipe.Uploads (stream sent : List UInt8) (p : Pipe) : Prop :=
  match p.ended with
  | none => sent ++ (p.buf ++ content p.reader) = stream
  | some ok => sent <+: stream ∧ (ok = true → sent = stream)

def FragmentUp.Uploads (stream sent : List UInt8) (up : FragmentUp) : Prop :=
  match up.phase with
  | .reading => sent ++ content up.reader = stream
  | .splitting rest => sent ++ (rest ++ content up.reader) = stream
  | .writing buf => sent ++ (buf ++ content up.reader) = stream
  | .ended => sent <+: stream

/-- No piece of a first payload is drawn without bytes. -/
def NoEmptyPiece (settings : Option FragmentSettings) : Prop := ∀ s ∈ settings, 1 ≤ (parseRange s.length 1 10).1

/-- A handler that leaves nothing out. -/
def Handler.Whole : Handler → Prop
  | fragment settings => NoEmptyPiece settings
  | _ => True

def Relay.Uploads (stream sent : List UInt8) : Relay → Prop
  | starting h _ client _ => h.Whole ∧ sent = [] ∧ content client = stream
  | freedom _ _ kind up _ => 0 < kind.chunk ∧ up.Uploads kind.metered stream sent
  | fragment _ _ settings up _ => NoEmptyPiece settings ∧ up.Uploads stream sent
  | vless _ _ _ up _ _ _ => up.Uploads stream sent
  | udp _ => sent <+: stream
  | ended => sent <+: stream

/-- The upload has come to the end of its stream, over a path without a quota. -/
def Relay.UploadDone : Relay → Prop
  | freedom _ _ kind up _ => kind.metered = false ∧ (up.phase = .closing ∨ up.phase = .ended true)
  | vless _ _ _ up _ _ _ => up.ended = some true
  | _ => False

section

variable {X : Crates} {s : EngineState} {connId : Uuid} {stream sent bytes bs rest : List UInt8}

/-! ## The loops -/

theorem begins_of_append (h : sent ++ rest = stream) : sent <+: stream := ⟨rest, h⟩

/-- A part of what waits goes up. -/
theorem begins_of_part (h : sent ++ (bs ++ rest) = stream) (hpart : bytes <+: bs) :
    sent ++ bytes <+: stream := by
  obtain ⟨more, rfl⟩ := hpart
  exact ⟨more ++ rest, by rw [← h]; simp only [List.append_assoc]⟩

theorem Half.finish_uploads {metered : Bool} (d : Direction) (c : Copy) (hbegins : sent <+: stream)
    (hall : metered = false → sent = stream) : (Half.finish d c).Uploads metered stream sent :=
  ⟨hbegins, hall⟩

/-- A loop without a quota may write all that it has read. -/
theorem Copy.reserve_allowed {k : Kind} (hk : k.metered = false) (c : Copy) (n : ℕ) : (c.reserve k n).1 = n := by
  rw [Copy.reserve, hk]
  rfl

theorem Half.step_uploads {k : Kind} {d : Direction} {h h' : Half} {e : HalfEvent} (hchunk : 0 < k.chunk)
    (hup : h.Uploads k.metered stream sent) (hs : h.step k d e = some (h', bytes)) :
    h'.Uploads k.metered stream (sent ++ bytes) := by
  cases e with
  | check =>
    obtain ⟨hphase, rfl, hcheck⟩ := Half.check_cases hs
    rw [Half.Uploads, hphase] at hup
    rw [List.append_nil]
    obtain ⟨hcheck, rfl⟩ | ⟨-, rfl⟩ := hcheck
    · -- only a loop with a quota stops here
      refine Half.finish_uploads d h.copy (begins_of_append hup) fun hk => ?_
      rw [preReadCheck, hk] at hcheck
      cases hcheck
    · exact hup
  | read =>
    obtain ⟨hphase, rfl, hread⟩ := Half.read_cases hs
    rw [Half.Uploads, hphase] at hup
    dsimp only at hup
    rw [List.append_nil]
    obtain ⟨r, -, rfl⟩ | ⟨r, hrecv, rfl⟩ | ⟨b, bs, r, hrecv, rfl⟩ := hread
    · exact ⟨begins_of_append hup, by simp⟩
    · rw [content_of_recv_nil hchunk (.inr rfl) hrecv, List.append_nil] at hup
      exact Half.finish_uploads d _ (hup ▸ List.prefix_refl _) fun _ => hup
    · rw [recv_content hrecv] at hup
      rw [Half.reserve]
      dsimp only
      split_ifs with hzero
      · refine Half.finish_uploads d _ (begins_of_append hup) fun hk => ?_
        rw [Copy.reserve_allowed hk] at hzero
        cases hzero
      · refine ⟨fun hk => Copy.reserve_allowed hk _ _, ?_⟩
        dsimp only
        rw [Copy.reserve_reader]
        exact hup
  | write now fault commitDue =>
    obtain ⟨allowed, bs, c, hphase, rfl, hwrite⟩ := Half.write_cases hs
    rw [Half.Uploads, hphase] at hup
    obtain ⟨hall, hup⟩ := hup
    obtain ⟨n, -, rfl, rfl⟩ | ⟨-, rfl, ⟨hcut, rfl⟩ | ⟨hle, rfl⟩⟩ := hwrite
    · exact ⟨begins_of_part hup ((List.take_prefix _ _).trans (List.take_prefix _ _)), by simp⟩
    · refine Half.finish_uploads d _ (begins_of_part hup (List.take_prefix _ _)) fun hk => ?_
      exact absurd (hall hk) hcut.ne
    · rw [List.take_of_length_le hle, Half.Uploads]
      dsimp only
      rw [Copy.forward_reader, List.append_assoc]
      exact hup
  | shutdown ok =>
    obtain ⟨hphase, rfl, rfl⟩ := Half.shutdown_cases hs
    rw [Half.Uploads, hphase] at hup
    rw [List.append_nil]
    exact ⟨hup.1, fun _ => hup.2⟩

/-- The account that a direction works with is no part of the stream. -/
theorem Half.load_uploads {heap : Heap} {user : Option ℕ} {metered : Bool} {h : Half} :
    (h.load heap user).Uploads metered stream sent ↔ h.Uploads metered stream sent := Iff.rfl

theorem Pipe.step_uploads {p p' : Pipe} {e : PipeEvent} {n : ℕ} (hup : p.Uploads stream sent)
    (hs : p.step e = some (p', bytes, n)) : p'.Uploads stream (sent ++ bytes) := by
  obtain ⟨reader, buf, ended⟩ := p
  unfold Pipe.step at hs
  split_ifs at hs with hopen
  obtain rfl : ended = none := Option.not_isSome_iff_eq_none.mp hopen
  have hup : sent ++ (buf ++ content reader) = stream := hup
  dsimp only at hs
  split at hs
  · -- a fault, the end of the stream, or more of it
    rw [List.nil_append] at hup
    split at hs
    · obtain ⟨rfl, rfl, -⟩ := by simpa only [Option.some.injEq, Prod.mk.injEq] using hs
      rw [List.append_nil]
      exact ⟨begins_of_append hup, nofun⟩
    · next r hrecv =>
      obtain ⟨rfl, rfl, -⟩ := by simpa only [Option.some.injEq, Prod.mk.injEq] using hs
      rw [content_of_recv_nil (by decide) (.inr rfl) hrecv, List.append_nil] at hup
      rw [List.append_nil]
      exact ⟨hup ▸ List.prefix_refl _, fun _ => hup⟩
    · next bs r _ hrecv =>
      obtain ⟨rfl, rfl, -⟩ := by simpa only [Option.some.injEq, Prod.mk.injEq] using hs
      rw [recv_content hrecv] at hup
      rw [List.append_nil]
      exact hup
  · obtain ⟨rfl, rfl, -⟩ := by simpa only [Option.some.injEq, Prod.mk.injEq] using hs
    show sent ++ _ ++ ([] ++ content reader) = stream
    rw [List.nil_append, List.append_assoc]
    exact hup
  · obtain ⟨rfl, rfl, -⟩ := by simpa only [Option.some.injEq, Prod.mk.injEq] using hs
    exact ⟨begins_of_part hup (List.take_prefix _ _), nofun⟩
  · cases hs

/-- A piece of the first payload. -/
theorem FragmentUp.piece_uploads {settings : FragmentSettings} {up up' : FragmentUp} {size packets n : ℕ}
    {fault : Option ℕ} (hpiece : 1 ≤ (parseRange settings.length 1 10).1)
    (hup : sent ++ (rest ++ content up.reader) = stream)
    (hs : up.piece settings rest size packets fault = some (up', bytes, n)) : up'.Uploads stream (sent ++ bytes) := by
  have htake : rest.take (min size rest.length) <+: rest := List.take_prefix _ _
  -- a draw from an empty range, and an empty rest, send nothing
  have hpanic : sent ++ [] <+: stream := by
    rw [List.append_nil]
    exact begins_of_append hup
  have hdone : ¬(size < (parseRange settings.length 1 10).1 ∨ (parseRange settings.length 1 10).2 < size) →
      min size rest.length = 0 → sent ++ [] ++ content up.reader = stream := by
    intro hdrawn hempty
    obtain rfl : rest = [] := List.length_eq_zero_iff.mp (by omega)
    rw [List.append_nil]
    exact hup
  cases fault with
  | some k =>
    simp only [FragmentUp.piece] at hs
    split_ifs at hs with hrange hdrawn hempty
    all_goals obtain ⟨rfl, rfl, -⟩ := by simpa only [Option.some.injEq, Prod.mk.injEq] using hs
    · exact hpanic
    · exact hdone hdrawn hempty
    · exact begins_of_part hup ((List.take_prefix _ _).trans htake)
  | none =>
    simp only [FragmentUp.piece] at hs
    split_ifs at hs with hrange hdrawn hempty hcount hpackets hmore
    all_goals obtain ⟨rfl, rfl, -⟩ := by simpa only [Option.some.injEq, Prod.mk.injEq] using hs
    · exact hpanic
    · exact hdone hdrawn hempty
    · exact begins_of_part hup htake
    · show sent ++ _ ++ (rest.drop _ ++ content up.reader) = stream
      rw [List.append_assoc, ← List.append_assoc (rest.take _), List.take_append_drop]
      exact hup
    · show sent ++ _ ++ content up.reader = stream
      rw [List.take_of_length_le (Nat.le_of_not_lt hmore), List.append_assoc]
      exact hup

theorem FragmentUp.step_uploads {settings : Option FragmentSettings} {up up' : FragmentUp} {e : FragmentEvent} {n : ℕ}
    (hpiece : NoEmptyPiece settings) (hup : up.Uploads stream sent)
    (hs : up.step settings e = some (up', bytes, n)) : up'.Uploads stream (sent ++ bytes) := by
  obtain ⟨reader, first, phase⟩ := up
  rcases FragmentUp.step_cases (Option.isSome_of_mem hs) with
    ⟨rfl, hphase⟩ | ⟨fault, buf, rfl, hphase⟩ | ⟨size, packets, fault, rest, rfl, hphase, hsome⟩
  · obtain rfl : phase = .reading := hphase
    have hup : sent ++ content reader = stream := hup
    simp only [FragmentUp.step] at hs
    split at hs
    · obtain ⟨rfl, rfl, -⟩ := by simpa only [Option.some.injEq, Prod.mk.injEq] using hs
      rw [List.append_nil]
      exact begins_of_append hup
    · obtain ⟨rfl, rfl, -⟩ := by simpa only [Option.some.injEq, Prod.mk.injEq] using hs
      rw [List.append_nil]
      exact begins_of_append hup
    · next bs r _ hrecv =>
      rw [recv_content hrecv] at hup
      split_ifs at hs
      all_goals
        obtain ⟨rfl, rfl, -⟩ := by simpa only [Option.some.injEq, Prod.mk.injEq] using hs
        rw [List.append_nil]
        exact hup
  · obtain rfl : phase = .writing buf := hphase
    have hup : sent ++ (buf ++ content reader) = stream := hup
    cases fault with
    | none =>
      obtain ⟨rfl, rfl, -⟩ := by simpa only [FragmentUp.step, Option.some.injEq, Prod.mk.injEq] using hs
      show sent ++ buf ++ content reader = stream
      rw [List.append_assoc]
      exact hup
    | some k =>
      obtain ⟨rfl, rfl, -⟩ := by simpa only [FragmentUp.step, Option.some.injEq, Prod.mk.injEq] using hs
      exact begins_of_part hup (List.take_prefix _ _)
  · obtain rfl : phase = .splitting rest := hphase
    obtain ⟨settings, rfl⟩ := Option.isSome_iff_exists.mp hsome
    rw [FragmentUp.step_piece rfl] at hs
    exact FragmentUp.piece_uploads (hpiece settings rfl) hup hs

/-! ## The relay -/

@[simp] theorem upstream_nil : upstream [] = [] := rfl

@[simp] theorem upstream_tx (peer : TcpPeer) (bytes : List UInt8) : upstream (forwardTcp peer .tx bytes) = bytes := by
  rw [forwardTcp]
  split_ifs with hnil
  · exact hnil.symm
  · simp [upstream]

@[simp] theorem upstream_rx (peer : TcpPeer) (bytes : List UInt8) : upstream (forwardTcp peer .rx bytes) = [] := by
  rw [forwardTcp]
  split_ifs <;> rfl

@[simp] theorem upstream_udp (sent : Option Datagram) : upstream (sent.map Egress.udp).toList = [] := by
  cases sent <;> rfl

theorem UdpRelay.receive_upstream {r r' : UdpRelay} {key : SessionKey} {udpBuf : List UInt8} {remoteAddr : SocketAddr}
    {writeOk : Bool} {e : Option Egress} {n : ℕ} (h : r.receive key udpBuf remoteAddr writeOk = some (r', e, n)) :
    upstream e.toList = [] := by
  unfold UdpRelay.receive at h
  split at h
  · cases h
  · split_ifs at h
    · obtain ⟨-, rfl, -⟩ := by simpa using h
      rfl
    · split at h
      · obtain ⟨-, rfl, -⟩ := by simpa using h
        rfl
      · simp only [UdpRelay.deliver] at h
        split_ifs at h
        all_goals
          obtain ⟨-, rfl, -⟩ := by simpa using h
          rfl

theorem UdpRelay.write_upstream {r r' : UdpRelay} {writeOk : Bool} {e : Option Egress}
    (h : r.write writeOk = some (r', e)) : upstream e.toList = [] := by
  unfold UdpRelay.write at h
  split at h
  · cases h
  · split_ifs at h
    all_goals
      obtain ⟨-, rfl⟩ := by simpa using h
      rfl

/-- Whatever a relay is at, what has gone up begins the stream. -/
theorem Relay.Uploads.begins {r : Relay} (h : r.Uploads stream sent) : sent <+: stream := by
  cases r with
  | starting =>
    rw [h.2.1]
    exact List.nil_prefix
  | freedom peer user kind up down =>
    obtain ⟨copy, phase⟩ := up
    cases phase with
    | checking => exact begins_of_append h.2
    | reading => exact begins_of_append h.2
    | writing allowed bs => exact begins_of_append h.2.2
    | closing => exact h.2.1
    | ended ok => exact h.2.1
  | fragment peer stats settings up down =>
    obtain ⟨reader, first, phase⟩ := up
    cases phase with
    | reading => exact begins_of_append h.2
    | splitting rest => exact begins_of_append h.2
    | writing buf => exact begins_of_append h.2
    | ended => exact h.2
  | vless peer header stats up down upBytes downBytes =>
    obtain ⟨reader, buf, ended⟩ := up
    cases ended with
    | none => exact begins_of_append (show sent ++ (buf ++ content reader) = stream from h)
    | some ok => exact h.1
  | udp => exact h
  | ended => exact h

/-- The loops start with all of the stream ahead of them. -/
theorem Handler.start_uploads {h : Handler} {c : Connect} {t : Target} {client : List (Arrival UInt8)}
    {email : Option String} {r : Relay} (hwhole : h.Whole) (hs : h.start X s connId c t client email = .ok r) :
    r.Uploads (content client) [] := by
  cases h with
  | freedom outboundProxy bindAddress =>
    simp only [Handler.start, bind_ok] at hs
    obtain ⟨peer, -, hs⟩ := hs
    obtain rfl := Except.ok.inj hs
    refine ⟨?_, rfl⟩
    rw [copyKind]
    split
    · exact Nat.lt_of_lt_of_le (by decide) (le_max_left 256 _)
    · exact Nat.succ_pos _
  | fragment settings =>
    simp only [Handler.start, bind_ok] at hs
    obtain ⟨-, -, addr, -, hs⟩ := hs
    obtain rfl := Except.ok.inj hs
    exact ⟨hwhole, rfl⟩
  | vless config isUdp outboundProxy bindAddress =>
    simp only [Handler.start, bind_ok] at hs
    obtain ⟨-, -, peer, -, header, -, hs⟩ := hs
    obtain rfl := Except.ok.inj hs
    exact rfl
  | udp outbound =>
    simp only [Handler.start, bind_ok] at hs
    obtain ⟨u, -, hs⟩ := hs
    obtain rfl := Except.ok.inj hs
    exact List.nil_prefix
  | blackhole =>
    obtain rfl := Except.ok.inj hs
    exact List.nil_prefix

theorem Relay.select_uploads {peer : TcpPeer} {user : Option ℕ} {kind : Kind} {up down : Half} (hchunk : 0 < kind.chunk)
    (hup : up.Uploads kind.metered stream sent) : (Relay.select peer user kind up down).Uploads stream sent := by
  have hkeep : (Relay.freedom peer user kind up down).Uploads stream sent := ⟨hchunk, hup⟩
  rw [Relay.select]
  split
  · exact hkeep.begins
  · exact hkeep.begins
  · exact hkeep

theorem Relay.join_uploads {heap : Heap} {peer : TcpPeer} {header : List UInt8} {stats : Option ℕ} {up down : Pipe}
    (upBytes downBytes : ℕ) (passed : List Egress) (hup : up.Uploads stream sent) :
    (Relay.join heap peer header stats up down upBytes downBytes passed).relay.Uploads stream sent ∧
      (Relay.join heap peer header stats up down upBytes downBytes passed).sent = passed := by
  have hkeep : (Relay.vless peer header stats up down upBytes downBytes).Uploads stream sent := hup
  rw [Relay.join]
  split
  · exact ⟨hkeep.begins, rfl⟩
  · exact ⟨hkeep.begins, rfl⟩
  · exact ⟨hkeep.begins, rfl⟩
  · exact ⟨hkeep, rfl⟩

/-- **A step of a handler.** -/
theorem Relay.step_uploads {r : Relay} {e : RelayEvent} {o : Outcome} (h : r.Uploads stream sent)
    (hs : r.step X s connId e = some o) : o.relay.Uploads stream (sent ++ upstream o.sent) := by
  unfold Relay.step at hs
  split at hs
  · obtain ⟨hwhole, rfl, rfl⟩ := h
    split at hs
    · next hstart =>
      obtain rfl := Option.some.inj hs
      exact Handler.start_uploads hwhole hstart
    · obtain rfl := Option.some.inj hs
      exact List.nil_prefix
  · obtain ⟨⟨up, bytes⟩, hstep, rfl⟩ := Option.map_eq_some_iff.mp hs
    rw [upstream_tx]
    exact Relay.select_uploads h.1 (Half.step_uploads h.1 (Half.load_uploads.mpr h.2) hstep)
  · obtain ⟨⟨down, bytes⟩, -, rfl⟩ := Option.map_eq_some_iff.mp hs
    rw [upstream_rx, List.append_nil]
    exact Relay.select_uploads h.1 h.2
  · split at hs
    · obtain rfl := Option.some.inj hs
      rw [upstream_nil, List.append_nil]
      exact h.begins
    · cases hs
  · obtain ⟨⟨up, bytes, n⟩, hstep, rfl⟩ := Option.map_eq_some_iff.mp hs
    obtain ⟨huploads, hsent⟩ := Relay.join_uploads _ _ _ (Pipe.step_uploads h hstep)
    rw [hsent, upstream_tx]
    exact huploads
  · obtain ⟨⟨down, bytes, n⟩, -, rfl⟩ := Option.map_eq_some_iff.mp hs
    obtain ⟨huploads, hsent⟩ := Relay.join_uploads _ _ _ h
    rw [hsent, upstream_rx, List.append_nil]
    exact huploads
  · obtain ⟨⟨r', passed⟩, -, rfl⟩ := Option.map_eq_some_iff.mp hs
    rw [upstream_udp, List.append_nil]
    exact h
  · split at hs
    · obtain rfl := Option.some.inj hs
      rw [upstream_nil, List.append_nil]
      exact h.begins
    · cases hs
  · cases hs

/-- **A step of a task of a handler.** -/
theorem Relay.task_uploads {r : Relay} {e : TaskEvent} {o : Outcome} (h : r.Uploads stream sent)
    (hs : r.task s e = some o) : o.relay.Uploads stream (sent ++ upstream o.sent) := by
  unfold Relay.task at hs
  split at hs
  · obtain ⟨⟨up, bytes, n⟩, hstep, rfl⟩ := Option.map_eq_some_iff.mp hs
    rw [upstream_tx]
    exact ⟨h.1, FragmentUp.step_uploads h.1 h.2 hstep⟩
  · obtain ⟨⟨down, bytes, n⟩, -, rfl⟩ := Option.map_eq_some_iff.mp hs
    rw [upstream_rx, List.append_nil]
    exact h
  · obtain ⟨⟨r', passed, n⟩, hreceive, rfl⟩ := Option.map_eq_some_iff.mp hs
    rw [UdpRelay.receive_upstream hreceive, List.append_nil]
    exact h
  · obtain ⟨⟨r', passed⟩, hwrite, rfl⟩ := Option.map_eq_some_iff.mp hs
    rw [UdpRelay.write_upstream hwrite, List.append_nil]
    exact h
  · cases hs

theorem Relay.detach_uploads {r : Relay} (h : r.Uploads stream sent) : r.detach.Uploads stream sent := by
  cases r with
  | fragment => exact h
  | udp r => exact h
  | _ => exact h.begins

theorem RelayRun.step_uploads {r r' : RelayRun} {a : RelayAct} (h : r.relay.Uploads stream r.uploaded)
    (hs : RelayRun.step X r a = some r') : r'.relay.Uploads stream r'.uploaded := by
  cases a with
  | step s connId e =>
    obtain ⟨o, ho, rfl⟩ := Option.map_eq_some_iff.mp hs
    exact Relay.step_uploads h ho
  | task s e =>
    obtain ⟨o, ho, rfl⟩ := Option.map_eq_some_iff.mp hs
    exact Relay.task_uploads h ho
  | detach =>
    obtain rfl := Option.some.inj hs
    exact Relay.detach_uploads h

/-- An upload that is done has passed on all of the stream. -/
theorem Relay.Uploads.whole {r : Relay} (h : r.Uploads stream sent) (hdone : r.UploadDone) : sent = stream := by
  cases r with
  | freedom peer user kind up down =>
    obtain ⟨copy, phase⟩ := up
    obtain ⟨hk, rfl | rfl⟩ : kind.metered = false ∧ (phase = .closing ∨ phase = .ended true) := hdone
    · exact h.2.2 hk
    · exact h.2.2 rfl hk
  | vless peer header stats up down upBytes downBytes =>
    obtain ⟨reader, buf, ended⟩ := up
    obtain rfl : ended = some true := hdone
    exact h.2 rfl
  | _ => exact hdone.elim

/-- **What a relay uploads**, in every run: a beginning of the stream of its client, and all of it when the upload is
done. -/
theorem relay_uploads {h : Handler} {t : Target} {client : List (Arrival UInt8)} {email : Option String}
    {as : List RelayAct} {r : RelayRun} (hwhole : h.Whole)
    (hr : Run.exec (RelayRun.step X) ⟨.starting h t client email, []⟩ as = some r) :
    r.uploaded <+: content client ∧ (r.relay.UploadDone → r.uploaded = content client) := by
  have hstart : (Relay.starting h t client email).Uploads (content client) [] := ⟨hwhole, rfl, rfl⟩
  have huploads : r.relay.Uploads (content client) r.uploaded :=
    Run.exec_invariant (I := fun r => r.relay.Uploads (content client) r.uploaded)
      (fun _ _ _ hI hs => RelayRun.step_uploads hI hs) hstart hr
  exact ⟨huploads.begins, huploads.whole⟩

end

end RXCore
