import RXCore.Lib.Parties
import RXCore.Lib.Tables
import RXCore.Transport.Accept

/-!
# Bounded Reality handshakes

`accept_reality_bounded`: four permits for all connections, two slots for each address, and a timeout of
three seconds around `RealityServerRustls::accept`, which returns only after the relay to the fallback
destination has ended.

* `HandshakeGate`, `enter`, `release`, `handshakeStep`: connections in any order, with a clock;
* `HandshakeGate.Counted`: permits and slots are those of the connections that have not returned;
* `HandshakeGate.Unburdened`: relays hold nothing and are not cut off;
* **`unburdened_iff_admitted`**: a run keeps to that if and only if nothing is relayed;
* **`four_probes_block`**: four relays, and no other client gets in.
-/

set_option autoImplicit false

namespace RXCore

open Arrivals Parties Tables

/-- How `accept_reality_bounded` returns. -/
inductive HandshakeEnd where
  | accepted
  | failed
  | timedOut (relaying : Bool)
deriving DecidableEq

/-- Where the accept of a connection waits. -/
inductive HandshakePhase where
  | reading
  | tls
  /-- In `fallback`. -/
  | relaying
  | over (how : HandshakeEnd)
deriving DecidableEq

structure RealityConn where
  ip : IpAddr
  /-- The time, in milliseconds. -/
  startedAt : ℕ
  phase : HandshakePhase
deriving DecidableEq

/-- The connection has not returned, and so keeps its `HandshakeGuard`. -/
def RealityConn.guarded (c : RealityConn) : Bool :=
  match c.phase with
  | .over _ => false
  | _ => true

/-- The connection is in its handshake. -/
def RealityConn.handshaking (c : RealityConn) : Bool :=
  match c.phase with
  | .reading | .tls => true
  | _ => false

structure HandshakeGate where
  /-- The free permits of `handshake_semaphore`. -/
  permits : ℕ
  activeHandshakesPerIp : AList fun _ : IpAddr => ℕ
  conns : List RealityConn

def handshakePermits : ℕ := 4

def HandshakeGate.start : HandshakeGate := ⟨handshakePermits, ∅, []⟩

/-- The address that the slots of a client are counted under. -/
def slotIp (ip : IpAddr) : IpAddr :=
  match ip with
  | .v6 v6 => match v6.toIpv4 with
    | some v4 => .v4 v4
    | none => ip
  | .v4 _ => ip

/-- The slots that are taken by an address. -/
def HandshakeGate.taken (s : HandshakeGate) (ip : IpAddr) : ℕ := (s.activeHandshakesPerIp.lookup ip).getD 0

/-- `accept_reality_bounded` up to the accept: a permit and a slot. -/
def HandshakeGate.enter (s : HandshakeGate) (ip : IpAddr) : Except String HandshakeGate := do
  refuseIf (s.permits = 0) "Rejecting connection: Global handshake semaphore limit exceeded"
  let currentCnt := s.taken ip
  refuseIf (2 ≤ currentCnt) "Rejecting connection: IP active handshake limit exceeded"
  refuseIf (1000 ≤ s.activeHandshakesPerIp.keys.length ∧ currentCnt = 0)
    "Rejecting connection: IP tracking map is full"
  return { s with
    permits := s.permits - 1
    activeHandshakesPerIp := s.activeHandshakesPerIp.insert ip (currentCnt + 1) }

/-- A `HandshakeGuard` is dropped. -/
def HandshakeGate.release (s : HandshakeGate) (ip : IpAddr) : HandshakeGate :=
  { s with
    permits := s.permits + 1
    activeHandshakesPerIp := match s.activeHandshakesPerIp.lookup ip with
      | some cnt =>
        if 1 < cnt then s.activeHandshakesPerIp.insert ip (cnt - 1) else s.activeHandshakesPerIp.erase ip
      | none => s.activeHandshakesPerIp }

/-- A connection goes on to a phase. -/
def HandshakeGate.moveTo (s : HandshakeGate) (i : ℕ) (c : RealityConn) (phase : HandshakePhase) : HandshakeGate :=
  { s with conns := s.conns.set i { c with phase := phase } }

/-- A connection returns, and its guard is dropped. -/
def HandshakeGate.leave (s : HandshakeGate) (i : ℕ) (c : RealityConn) (how : HandshakeEnd) : HandshakeGate :=
  (s.moveTo i c (.over how)).release c.ip

inductive HandshakeAct where
  | connect (clientIp : IpAddr) (now : ℕ)
  /-- The accept of a connection has read what the client sent and takes one of its exits. -/
  | exit (i : ℕ) (env : AcceptEnv) (stream : List (Arrival UInt8))
  /-- The TLS acceptor or the relay comes to its end. -/
  | finish (i : ℕ) (ok : Bool)
  | timeout (i : ℕ) (now : ℕ)

/-- The timeout around the accept. -/
def handshakeTimeout : ℕ := 3000

def handshakeStep (X : Crates) (server : RealityServerRustls) (s : HandshakeGate) :
    HandshakeAct → Option HandshakeGate
  | .connect clientIp now =>
    match s.enter (slotIp clientIp) with
    | .error _ => some s
    | .ok s => some { s with conns := s.conns ++ [⟨slotIp clientIp, now, .reading⟩] }
  | .exit i env stream => match s.conns[i]? with
    | some c =>
      if c.phase ≠ .reading then none
      else match server.accept X env stream with
        | .error _ => some (s.leave i c .failed)
        | .ok (.handOver _) => some (s.moveTo i c .tls)
        | .ok (.fallback _) => some (s.moveTo i c .relaying)
    | none => none
  | .finish i ok => match s.conns[i]? with
    | some c => match c.phase with
      | .tls => some (s.leave i c (if ok then .accepted else .failed))
      -- "Fallback completed" is an error, too
      | .relaying => some (s.leave i c .failed)
      | _ => none
    | none => none
  | .timeout i now => match s.conns[i]? with
    | some c =>
      if c.guarded = false ∨ now < c.startedAt + handshakeTimeout then none
      else some (s.leave i c (.timedOut (c.phase = .relaying)))
    | none => none

/-! ## Permits and slots -/

namespace HandshakeGate

/-- Permits and slots are those of the connections that have not returned. -/
structure Counted (s : HandshakeGate) : Prop where
  permits : s.permits + s.conns.countP RealityConn.guarded = handshakePermits
  slots : ∀ ip, s.taken ip = s.conns.countP fun c => c.guarded && c.ip = ip

/-- A connection in the relay holds no permit and no slot, and no relay was cut off by the timeout. -/
structure Unburdened (s : HandshakeGate) : Prop where
  permits : s.permits + s.conns.countP RealityConn.handshaking = handshakePermits
  slots : ∀ ip, s.taken ip = s.conns.countP fun c => c.handshaking && c.ip = ip
  uncut : ∀ c ∈ s.conns, c.phase ≠ .over (.timedOut true)

variable {s s' : HandshakeGate} {c : RealityConn} {i : ℕ}

theorem taken_insert (s : HandshakeGate) (ip ip' : IpAddr) (n permits : ℕ) (conns : List RealityConn) :
    taken ⟨permits, s.activeHandshakesPerIp.insert ip n, conns⟩ ip' = if ip' = ip then n else s.taken ip' := by
  unfold taken
  by_cases h : ip' = ip
  · subst h
    rw [AList.lookup_insert, if_pos rfl]
    rfl
  · rw [AList.lookup_insert_ne h, if_neg h]

/-- A guard that is dropped gives its slot back. -/
theorem taken_release (s : HandshakeGate) (ip ip' : IpAddr) :
    (s.release ip).taken ip' = if ip' = ip then s.taken ip - 1 else s.taken ip' := by
  cases hl : s.activeHandshakesPerIp.lookup ip with
  | none =>
    have hr : (s.release ip).taken ip' = s.taken ip' := by simp [release, hl, taken]
    by_cases h : ip' = ip
    · subst h
      rw [hr, if_pos rfl]
      simp [taken, hl]
    · rw [hr, if_neg h]
  | some cnt =>
    by_cases hcnt : 1 < cnt
    · have hr : (s.release ip).taken ip' = if ip' = ip then cnt - 1 else s.taken ip' := by
        rw [← taken_insert s ip ip' (cnt - 1) (s.permits + 1) s.conns]
        simp [release, hl, hcnt]
      rw [hr]
      simp [taken, hl]
    · by_cases h : ip' = ip
      · subst h
        simp [release, taken, hl, hcnt]
        omega
      · simp [release, taken, hl, hcnt, h, AList.lookup_erase_ne h]

/-- **A connection that returns gives back what it holds.** -/
theorem Counted.leave (h : s.Counted) (hc : s.conns[i]? = some c) (hg : c.guarded = true) (how : HandshakeEnd) :
    (s.leave i c how).Counted := by
  have hset := fun p => countP_set p hc { c with phase := .over how }
  constructor
  · have hp := h.permits
    have hn := hset RealityConn.guarded
    have hover : RealityConn.guarded { c with phase := .over how } = false := rfl
    simp only [hg, hover, if_true, Bool.false_eq_true, if_false] at hn
    simp only [HandshakeGate.leave, release, moveTo]
    omega
  · intro ip
    have hs := h.slots ip
    have hn := hset fun c => c.guarded && c.ip = ip
    have hover : RealityConn.guarded { c with phase := .over how } = false := rfl
    have hmoved : ∀ ip, (s.moveTo i c (.over how)).taken ip = s.taken ip := fun ip => rfl
    rw [HandshakeGate.leave, taken_release, hmoved, hmoved]
    simp only [hg, hover, Bool.true_and, Bool.false_and, Bool.false_eq_true, if_false, decide_eq_true_eq] at hn
    simp only [release, moveTo]
    split_ifs with hip
    · subst hip
      rw [if_pos rfl] at hn
      omega
    · rw [if_neg (Ne.symm hip)] at hn
      omega

/-- A connection that goes on keeps what it holds. -/
theorem Counted.moveTo (h : s.Counted) (hc : s.conns[i]? = some c) {phase : HandshakePhase}
    (hg : RealityConn.guarded { c with phase := phase } = c.guarded) : (s.moveTo i c phase).Counted := by
  have hset := fun p => countP_set p hc { c with phase := phase }
  constructor
  · have hp := h.permits
    have hn := hset RealityConn.guarded
    rw [hg] at hn
    simp only [HandshakeGate.moveTo]
    omega
  · intro ip
    have hs := h.slots ip
    have hn := hset fun c => c.guarded && c.ip = ip
    rw [hg] at hn
    show s.taken ip = (s.conns.set i { c with phase := phase }).countP _
    rw [hs]
    exact (Nat.add_right_cancel hn).symm

/-- A connection that gets in takes a permit and a slot. -/
theorem enter_ok {ip : IpAddr} (h : s.enter ip = .ok s') :
    s.permits ≠ 0 ∧ s' = { s with
      permits := s.permits - 1
      activeHandshakesPerIp := s.activeHandshakesPerIp.insert ip (s.taken ip + 1) } := by
  simp only [HandshakeGate.enter, bind_ok] at h
  obtain ⟨u, hpermits, v, -, w, -, h⟩ := h
  exact ⟨refuseIf_ok.mp hpermits, (Except.ok.inj h).symm⟩

theorem Counted.enter {ip : IpAddr} (h : s.Counted) (he : s.enter ip = .ok s') (now : ℕ) :
    Counted { s' with conns := s'.conns ++ [⟨ip, now, .reading⟩] } := by
  obtain ⟨hpos, rfl⟩ := enter_ok he
  have hp := h.permits
  constructor
  · simp only [List.countP_append, List.countP_singleton, RealityConn.guarded, if_true]
    omega
  · intro ip'
    have hs := h.slots ip'
    rw [taken_insert]
    simp only [List.countP_append, List.countP_singleton, RealityConn.guarded, Bool.true_and, decide_eq_true_eq]
    by_cases hip : ip' = ip
    · subst hip
      rw [if_pos rfl, if_pos rfl, hs]
      rfl
    · rw [if_neg hip, if_neg (Ne.symm hip), hs]
      rfl

theorem counted_start : start.Counted := ⟨rfl, fun _ => rfl⟩

variable {X : Crates} {server : RealityServerRustls} {a : HandshakeAct}

/-- The accept of a connection reaches the relay. -/
def Relays (X : Crates) (server : RealityServerRustls) (a : HandshakeAct) : Prop :=
  ∃ i env stream relay, a = .exit i env stream ∧ server.accept X env stream = .ok (.fallback relay)

/-- What a step can do. -/
theorem handshakeStep_cases (h : handshakeStep X server s a = some s') :
    (s' = s ∧ ¬ Relays X server a) ∨
    (∃ clientIp now t, a = .connect clientIp now ∧ s.enter (slotIp clientIp) = .ok t ∧
      s' = { t with conns := t.conns ++ [⟨slotIp clientIp, now, .reading⟩] }) ∨
    (∃ i c, s.conns[i]? = some c ∧ c.phase = .reading ∧ s' = s.moveTo i c .tls ∧ ¬ Relays X server a) ∨
    (∃ i c, s.conns[i]? = some c ∧ c.phase = .reading ∧ s' = s.moveTo i c .relaying ∧ Relays X server a) ∨
    ∃ i c how, s.conns[i]? = some c ∧ c.guarded = true ∧ s' = s.leave i c how ∧
      (how = .timedOut true → c.phase = .relaying) ∧ ¬ Relays X server a := by
  cases a with
  | connect clientIp now =>
    simp only [handshakeStep] at h
    split at h
    · exact .inl ⟨(Option.some.inj h).symm, by simp [Relays]⟩
    · next t ht => exact .inr (.inl ⟨clientIp, now, t, rfl, ht, (Option.some.inj h).symm⟩)
  | exit i env stream =>
    simp only [handshakeStep] at h
    split at h
    · next c hc =>
      split_ifs at h with hphase
      rw [not_not] at hphase
      split at h
      · next e he =>
        obtain rfl := Option.some.inj h
        exact .inr (.inr (.inr (.inr ⟨i, c, .failed, hc, by simp [RealityConn.guarded, hphase], rfl, by simp,
          by simp [Relays, he]⟩)))
      · next p hp =>
        obtain rfl := Option.some.inj h
        exact .inr (.inr (.inl ⟨i, c, hc, hphase, rfl, by simp [Relays, hp]⟩))
      · next relay hr =>
        obtain rfl := Option.some.inj h
        exact .inr (.inr (.inr (.inl ⟨i, c, hc, hphase, rfl, i, env, stream, relay, rfl, hr⟩)))
    · cases h
  | finish i ok =>
    simp only [handshakeStep] at h
    split at h
    · next c hc =>
      split at h
      · next hphase =>
        obtain rfl := Option.some.inj h
        refine .inr (.inr (.inr (.inr ⟨i, c, _, hc, by simp [RealityConn.guarded, hphase], rfl, ?_,
          by simp [Relays]⟩)))
        cases ok <;> simp
      · next hphase =>
        obtain rfl := Option.some.inj h
        exact .inr (.inr (.inr (.inr ⟨i, c, .failed, hc, by simp [RealityConn.guarded, hphase], rfl, by simp,
          by simp [Relays]⟩)))
      · cases h
    · cases h
  | timeout i now =>
    simp only [handshakeStep] at h
    split at h
    · next c hc =>
      split_ifs at h with hg
      obtain rfl := Option.some.inj h
      exact .inr (.inr (.inr (.inr ⟨i, c, _, hc, by simpa using (not_or.mp hg).1, rfl, by simp,
        by simp [Relays]⟩)))
    · cases h

/-- Permits and slots are counted right, whatever happens. -/
theorem Counted.step (h : s.Counted) (hs : handshakeStep X server s a = some s') : s'.Counted := by
  obtain ⟨rfl, -⟩ | ⟨ip, now, t, -, ht, rfl⟩ | ⟨i, c, hc, hr, rfl, -⟩ | ⟨i, c, hc, hr, rfl, -⟩ |
    ⟨i, c, how, hc, hg, rfl, -⟩ := handshakeStep_cases hs
  · exact h
  · exact h.enter ht now
  · exact h.moveTo hc (by simp [RealityConn.guarded, hr])
  · exact h.moveTo hc (by simp [RealityConn.guarded, hr])
  · exact h.leave hc hg how

/-! ## Relays -/

/-- No connection is in a relay, and none was cut off there. -/
def Quiet (s : HandshakeGate) : Prop := ∀ c ∈ s.conns, c.phase ≠ .relaying ∧ c.phase ≠ .over (.timedOut true)

theorem countP_guarded (conns : List RealityConn) : conns.countP RealityConn.guarded =
    conns.countP RealityConn.handshaking + conns.countP fun c => c.phase = .relaying := by
  induction conns with
  | nil => rfl
  | cons c conns ih =>
    simp only [List.countP_cons, ih]
    cases hc : c.phase <;> simp [RealityConn.guarded, RealityConn.handshaking, hc] <;> omega

/-- **Relays hold nothing exactly when there are none**: every connection that has not returned holds a permit
and a slot. -/
theorem Counted.unburdened_iff (h : s.Counted) : s.Unburdened ↔ s.Quiet := by
  have hcount := countP_guarded s.conns
  constructor
  · intro hu c hc
    refine ⟨fun hr => ?_, hu.uncut c hc⟩
    have hpos : 0 < s.conns.countP fun c => c.phase = .relaying :=
      List.countP_pos_iff.mpr ⟨c, hc, by simpa using hr⟩
    have hp := h.permits
    have hp' := hu.permits
    omega
  · intro hq
    have hsame : ∀ c ∈ s.conns, c.guarded = c.handshaking := by
      intro c hc
      obtain ⟨hr, -⟩ := hq c hc
      cases hphase : c.phase <;> simp_all [RealityConn.guarded, RealityConn.handshaking]
    constructor
    · have hp := h.permits
      rwa [List.countP_congr (q := RealityConn.handshaking) fun c hc => by rw [hsame c hc]] at hp
    · intro ip
      rw [h.slots ip]
      exact List.countP_congr fun c hc => by rw [hsame c hc]
    · exact fun c hc => (hq c hc).2

/-- A step keeps to that unless an accept reaches the relay. -/
theorem quiet_step (hq : s.Quiet) (hs : handshakeStep X server s a = some s') :
    s'.Quiet ↔ ¬ Relays X server a := by
  have hset : ∀ {i c phase}, s.conns[i]? = some c → phase ≠ .relaying → phase ≠ .over (.timedOut true) →
      ∀ c' ∈ s.conns.set i { c with phase := phase },
        c'.phase ≠ .relaying ∧ c'.phase ≠ .over (.timedOut true) := by
    intro i c phase _ hr ho c' hc'
    rcases List.mem_or_eq_of_mem_set hc' with hc' | rfl
    · exact hq c' hc'
    · exact ⟨hr, ho⟩
  obtain ⟨rfl, hn⟩ | ⟨ip, now, t, rfl, ht, rfl⟩ | ⟨i, c, hc, -, rfl, hn⟩ | ⟨i, c, hc, -, rfl, hn⟩ |
    ⟨i, c, how, hc, -, rfl, hcut, hn⟩ := handshakeStep_cases hs
  · exact iff_of_true hq hn
  · obtain ⟨-, rfl⟩ := enter_ok ht
    refine iff_of_true (fun c hc => ?_) (by simp [Relays])
    rcases List.mem_append.mp hc with hc | hc
    · exact hq c hc
    · obtain rfl := List.mem_singleton.mp hc
      simp
  · exact iff_of_true (hset hc (by simp) (by simp)) hn
  · refine iff_of_false (fun hq' => ?_) (not_not.mpr hn)
    exact (hq' _ (List.mem_of_getElem? (getElem?_set_self hc _))).1 rfl
  · refine iff_of_true (hset hc (by simp) ?_) hn
    intro hcase
    exact (hq c (List.mem_of_getElem? hc)).1 (hcut (HandshakePhase.over.inj hcase))

/-- The accept reaches the relay if the destination can be reached and what the client sends is not admitted. -/
def Admitted (X : Crates) (server : RealityServerRustls) : HandshakeAct → Prop
  | .exit _ env stream => ∀ t, readTask stream = .ok t → env.timedOut = false → env.connect = .ok () →
      server.admits X t.handshakePayload = true
  | _ => True

theorem admitted_iff : Admitted X server a ↔ ¬ Relays X server a := by
  cases a with
  | exit i env stream =>
    constructor
    · rintro h ⟨i', env', stream', relay, he, hr⟩
      obtain ⟨rfl, rfl, rfl⟩ := HandshakeAct.exit.inj he
      simp only [RealityServerRustls.accept, bind_ok] at hr
      obtain ⟨t, ht, u, htime, hr⟩ := hr
      rw [refuseIf_ok, Bool.not_eq_true] at htime
      split_ifs at hr with hadmits
      · cases hcert : env.cert <;> rw [hcert] at hr <;> cases hr
      · cases hconnect : env.connect with
        | error e =>
          rw [hconnect] at hr
          cases hr
        | ok u => exact hadmits (h t ht htime hconnect)
    · intro h t ht htime hconnect
      by_contra hadmits
      refine h ⟨i, env, stream, ⟨t.stream, t.buffer, none⟩, rfl, ?_⟩
      simp [RealityServerRustls.accept, ht, refuseIf, htime, hadmits, hconnect, bind, Except.bind, Except.map]
  | _ => simp [Admitted, Relays]

end HandshakeGate

open HandshakeGate

/-- **Relays hold nothing, take nothing and are not cut off, exactly when there are none.** -/
theorem unburdened_iff_admitted (X : Crates) (server : RealityServerRustls) (as : List HandshakeAct) :
    Run.Always (handshakeStep X server) Unburdened .start as ↔
      Run.Meets (handshakeStep X server) (fun _ a => Admitted X server a) .start as := by
  refine Run.always_iff_meets (fun s a s' hc _ _ hs => hc.step hs) (fun s a s' hc hu hs => ?_) counted_start
    (counted_start.unburdened_iff.mpr (by simp [Quiet, start])) as
  rw [(hc.step hs).unburdened_iff, admitted_iff]
  exact quiet_step (hc.unburdened_iff.mp hu) hs

def probeIp (last : UInt8) : IpAddr := .v4 (.new 203 0 113 last)

/-- Two clients, of two connections each, that speak no TLS. -/
def fourProbes : List HandshakeAct :=
  let probe := fun i last => [HandshakeAct.connect (probeIp last) 0,
    HandshakeAct.exit i ⟨false, .ok (), .ok ()⟩ plainRequest]
  probe 0 7 ++ probe 1 7 ++ probe 2 8 ++ probe 3 8

theorem plainRequest_relayed : anyServer.accept Sample.crates ⟨false, .ok (), .ok ()⟩ plainRequest =
    .ok (.fallback ⟨[.data [32, 72]], [71, 69, 84, 32, 47], none⟩) := by
  have hread : readTask plainRequest = .ok ⟨[.data [32, 72]], [71, 69, 84, 32, 47], []⟩ := by
    simp [readTask, readRecords, recvLoop, plainRequest, recv, putBack]
  rw [RealityServerRustls.accept, hread]
  rfl

/-- **Four relays, and no client gets in**: each of them keeps its permit until the timeout cuts it off. -/
theorem four_probes_block : ∃ s, Run.exec (handshakeStep Sample.crates anyServer) .start fourProbes = some s ∧
    ¬ s.Unburdened ∧ s.conns.map RealityConn.phase = List.replicate 4 .relaying ∧
    (∀ ip, s.enter ip = .error "Rejecting connection: Global handshake semaphore limit exceeded") ∧
    (handshakeStep Sample.crates anyServer s (.timeout 0 handshakeTimeout)).map
      (fun s => s.conns.map RealityConn.phase) =
        some [.over (.timedOut true), .relaying, .relaying, .relaying] := by
  have hrun : Run.exec (handshakeStep Sample.crates anyServer) .start fourProbes = some
      ⟨0, (((AList.insert (probeIp 7) 1 ∅).insert (probeIp 7) 2).insert (probeIp 8) 1).insert (probeIp 8) 2,
        [⟨probeIp 7, 0, .relaying⟩, ⟨probeIp 7, 0, .relaying⟩, ⟨probeIp 8, 0, .relaying⟩,
        ⟨probeIp 8, 0, .relaying⟩]⟩ := by
    simp only [fourProbes, List.cons_append, List.nil_append, Run.exec, handshakeStep, plainRequest_relayed]
    rfl
  refine ⟨_, hrun, fun hu => ?_, rfl, fun ip => rfl, rfl⟩
  exact absurd hu.permits (by decide)

end RXCore
