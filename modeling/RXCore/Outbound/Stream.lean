import RXCore.Transport.Copy
import RXCore.State.UserMaps

/-!
# Streams step by step

The loops that carry a TCP stream, cut at their waits, so that they can be run side by side with the
loops of other connections.

* `Half`, `Half.step`: one direction of `copy_bidirectional_with_rate_limit`, with the functions of the
  copy loops;
* `Pipe`, `Pipe.step`: a loop that reads and writes and knows no quota;
* `FragmentUp`, `FragmentUp.step`: the upload loop of the fragmenting outbound;
* **`Half.step_conserves`**: what a metered direction has forwarded, holds and leaves never grows.
-/

set_option autoImplicit false

namespace RXCore

open Arrivals

/-! ## A direction with its quota -/

/-- Where a copy loop waits. -/
inductive Phase where
  /-- Before its check of the quota. -/
  | checking
  | reading
  /-- Before the write of `allowed` bytes of what it has read. -/
  | writing (allowed : ℕ) (bs : List UInt8)
  /-- After its end, before it shuts its writer down. -/
  | closing
  | ended (ok : Bool)
deriving DecidableEq

structure Half where
  copy : Copy
  phase : Phase

/-- The start of a copy loop. -/
def Half.start (reader : List (Arrival UInt8)) (now : ℚ) : Half :=
  ⟨.start reader none 0 false now, .checking⟩

/-- The bytes that are reserved and not written yet. -/
def Half.outstanding (h : Half) : ℕ :=
  match h.phase with
  | .writing allowed _ => allowed
  | _ => 0

/-- What a copy loop does next. -/
inductive HalfEvent where
  | check
  | read
  /-- The write, at the time `now`; it fails after so many bytes. -/
  | write (now : ℚ) (fault : Option ℕ) (commitDue : Bool)
  | shutdown (ok : Bool)

/-- The last commit of a loop that ends well. -/
def Half.finish (d : Direction) (c : Copy) : Half :=
  ⟨if 0 < c.accumulatedBytes then c.commit d else c, .closing⟩

/-- What was read is reserved as far as the quota allows. -/
def Half.reserve (k : Kind) (d : Direction) (c : Copy) (bs : List UInt8) : Half :=
  let (allowed, c) := c.reserve k bs.length
  if allowed = 0 then .finish d c else ⟨c, .writing allowed bs⟩

/-- The turn around the write of a loop that other loops run beside. -/
def writeTurn (now : ℚ) (fault : Option ℕ) (commitDue : Bool) : Turn := ⟨id, id, id, now, fault, commitDue⟩

/-- One step of a copy loop, and the bytes that it forwards. -/
def Half.step (k : Kind) (d : Direction) (h : Half) : HalfEvent → Option (Half × List UInt8)
  | .check => match h.phase with
    | .checking => some (if preReadCheck k h.copy then .finish d h.copy else { h with phase := .reading }, [])
    | _ => none
  | .read => match h.phase with
    | .reading => match recv k.chunk h.copy.reader with
      | (none, r) => some (⟨{ h.copy with reader := r }, .ended false⟩, [])
      | (some [], r) => some (.finish d { h.copy with reader := r }, [])
      | (some (b :: bs), r) => some (.reserve k d { h.copy with reader := r } (b :: bs), [])
    | _ => none
  | .write now fault commitDue => match h.phase with
    | .writing allowed bs =>
      match h.copy.forward k d (writeTurn now fault commitDue) allowed bs with
      | (c, false) => some (⟨c, .ended false⟩, (bs.take allowed).take (fault.getD 0))
      | (c, true) =>
        some (if allowed < bs.length then .finish d c else ⟨c, .checking⟩, bs.take allowed)
    | _ => none
  | .shutdown ok => match h.phase with
    | .closing => some ({ h with phase := .ended ok }, [])
    | _ => none

/-! ## Loops without a quota -/

/-- A loop that reads up to 8192 bytes and writes them. -/
structure Pipe where
  reader : List (Arrival UInt8)
  /-- What has been read and not written. -/
  buf : List UInt8
  /-- Whether the loop has ended, and how. -/
  ended : Option Bool

def Pipe.start (reader : List (Arrival UInt8)) : Pipe := ⟨reader, [], none⟩

inductive PipeEvent where
  | read
  /-- The write, which fails after so many bytes. -/
  | write (fault : Option ℕ)

/-- One step of a loop, the bytes that it forwards and those that it counts. -/
def Pipe.step (p : Pipe) (e : PipeEvent) : Option (Pipe × List UInt8 × ℕ) :=
  if p.ended.isSome then none
  else match e, p.buf with
    | .read, [] => match recv 8192 p.reader with
      | (none, r) => some ({ p with reader := r, ended := some false }, [], 0)
      | (some [], r) => some ({ p with reader := r, ended := some true }, [], 0)
      | (some bs, r) => some ({ p with reader := r, buf := bs }, [], 0)
    | .write none, b :: bs => some ({ p with buf := [] }, b :: bs, bs.length + 1)
    | .write (some k), b :: bs => some ({ p with ended := some false }, (b :: bs).take k, 0)
    | _, _ => none

/-- The upload loop of the fragmenting outbound. -/
inductive FragmentPhase where
  | reading
  /-- The rest of the first payload, which goes out in pieces. -/
  | splitting (rest : List UInt8)
  | writing (buf : List UInt8)
  | ended

structure FragmentUp where
  reader : List (Arrival UInt8)
  isFirstPayload : Bool
  phase : FragmentPhase

def FragmentUp.start (reader : List (Arrival UInt8)) : FragmentUp := ⟨reader, true, .reading⟩

/-- `FragmentOutbound::parse_range`. -/
def parseRange (rangeStr : String) (defaultMin defaultMax : ℕ) : ℕ × ℕ :=
  match splitAt '-' rangeStr with
  | [a, b] => ((parseUnsigned (2 ^ 64 - 1) (trim a)).getD defaultMin,
      (parseUnsigned (2 ^ 64 - 1) (trim b)).getD defaultMax)
  | _ => (defaultMin, defaultMax)

inductive FragmentEvent where
  | read
  | write (fault : Option ℕ)
  /-- The next piece of the first payload; its length and the number of packets are drawn. -/
  | piece (size packets : ℕ) (fault : Option ℕ)

/-- A piece of the first payload. A draw from an empty range panics, which ends the task. -/
def FragmentUp.piece (s : FragmentSettings) (f : FragmentUp) (rest : List UInt8) (size packets : ℕ)
    (fault : Option ℕ) : Option (FragmentUp × List UInt8 × ℕ) :=
  let (minPackets, maxPackets) := parseRange s.packets 1 5
  let (minLen, maxLen) := parseRange s.length 1 10
  let chunkSize := min size rest.length
  if maxLen < minLen then some ({ f with phase := .ended }, [], 0)
  else if size < minLen ∨ maxLen < size then none
  else if chunkSize = 0 then some ({ f with phase := .reading }, [], 0)
  else match fault with
    | some k => some ({ f with phase := .ended }, (rest.take chunkSize).take k, 0)
    | none =>
      if maxPackets < minPackets then some ({ f with phase := .ended }, rest.take chunkSize, chunkSize)
      else if packets < minPackets ∨ maxPackets < packets then none
      else
        let phase := if chunkSize < rest.length then .splitting (rest.drop chunkSize) else .reading
        some ({ f with phase := phase }, rest.take chunkSize, chunkSize)

/-- One step of the loop, the bytes that it forwards and those that it counts. -/
def FragmentUp.step (settings : Option FragmentSettings) (f : FragmentUp) :
    FragmentEvent → Option (FragmentUp × List UInt8 × ℕ)
  | .read => match f.phase with
    | .reading => match recv 8192 f.reader with
      | (none, r) => some ({ f with reader := r, phase := .ended }, [], 0)
      | (some [], r) => some ({ f with reader := r, phase := .ended }, [], 0)
      | (some bs, r) =>
        if f.isFirstPayload ∧ settings.isSome then some (⟨r, false, .splitting bs⟩, [], 0)
        else some ({ f with reader := r, phase := .writing bs }, [], 0)
    | _ => none
  | .write fault => match f.phase, fault with
    | .writing buf, none => some ({ f with phase := .reading }, buf, buf.length)
    | .writing buf, some k => some ({ f with phase := .ended }, buf.take k, 0)
    | _, _ => none
  | .piece size packets fault => match f.phase, settings with
    | .splitting rest, some s => f.piece s rest size packets fault
    | _, _ => none

section

variable {settings : Option FragmentSettings} {f : FragmentUp} {r : List (Arrival UInt8)}

/-- A read that finds the end of the stream, or a fault. -/
theorem FragmentUp.step_read_end {chunk : Option (List UInt8)} (hphase : f.phase = .reading)
    (hchunk : chunk = none ∨ chunk = some []) (hr : recv 8192 f.reader = (chunk, r)) :
    f.step settings .read = some ({ f with reader := r, phase := .ended }, [], 0) := by
  rcases hchunk with rfl | rfl <;> rw [step, hphase, hr]

/-- The first payload is split. -/
theorem FragmentUp.step_read_first {bs : List UInt8} (hphase : f.phase = .reading)
    (hr : recv 8192 f.reader = (some bs, r)) (hbs : bs ≠ []) (hfirst : f.isFirstPayload ∧ settings.isSome) :
    f.step settings .read = some (⟨r, false, .splitting bs⟩, [], 0) := by
  obtain ⟨b, bs, rfl⟩ := List.exists_cons_of_ne_nil hbs
  rw [step, hphase, hr]
  exact if_pos hfirst

theorem FragmentUp.step_read_next {bs : List UInt8} (hphase : f.phase = .reading)
    (hr : recv 8192 f.reader = (some bs, r)) (hbs : bs ≠ []) (hnext : ¬(f.isFirstPayload ∧ settings.isSome)) :
    f.step settings .read = some ({ f with reader := r, phase := .writing bs }, [], 0) := by
  obtain ⟨b, bs, rfl⟩ := List.exists_cons_of_ne_nil hbs
  rw [step, hphase, hr]
  exact if_neg hnext

theorem FragmentUp.step_write {buf : List UInt8} (hphase : f.phase = .writing buf) :
    f.step settings (.write none) = some ({ f with phase := .reading }, buf, buf.length) := by
  cases f
  cases hphase
  rfl

theorem FragmentUp.step_piece {s : FragmentSettings} {rest : List UInt8} {size packets : ℕ} {fault : Option ℕ}
    (hphase : f.phase = .splitting rest) :
    f.step (some s) (.piece size packets fault) = f.piece s rest size packets fault := by
  cases f
  cases hphase
  rfl

/-- What the loop does is given by its phase. -/
theorem FragmentUp.step_cases {e : FragmentEvent} (h : (f.step settings e).isSome) :
    (e = .read ∧ f.phase = .reading) ∨ (∃ fault buf, e = .write fault ∧ f.phase = .writing buf) ∨
      ∃ size packets fault rest, e = .piece size packets fault ∧ f.phase = .splitting rest ∧ settings.isSome := by
  obtain ⟨reader, first, phase⟩ := f
  cases e with
  | read =>
    cases phase with
    | reading => exact .inl ⟨rfl, rfl⟩
    | _ => cases h
  | write fault =>
    cases phase with
    | writing buf => exact .inr (.inl ⟨fault, buf, rfl, rfl⟩)
    | _ => cases h
  | piece size packets fault =>
    cases phase with
    | splitting rest =>
      cases settings with
      | none => cases h
      | some s => exact .inr (.inr ⟨size, packets, fault, rest, rfl, rfl, rfl⟩)
    | _ => cases h

end

/-! ## What a step of a direction does -/

section

variable {k : Kind} {d : Direction} {h h' : Half} {bytes : List UInt8}

theorem Half.check_cases (hs : h.step k d .check = some (h', bytes)) :
    h.phase = .checking ∧ bytes = [] ∧
      ((preReadCheck k h.copy = true ∧ h' = .finish d h.copy) ∨
        (¬preReadCheck k h.copy = true ∧ h' = { h with phase := .reading })) := by
  simp only [Half.step] at hs
  split at hs
  · next hphase =>
    obtain ⟨rfl, rfl⟩ := Prod.mk.inj (Option.some.inj hs)
    refine ⟨hphase, rfl, ?_⟩
    split_ifs with hcheck
    · exact .inl ⟨hcheck, rfl⟩
    · exact .inr ⟨hcheck, rfl⟩
  · cases hs

/-- A read finds a fault, the end of the stream, or more of it. -/
theorem Half.read_cases (hs : h.step k d .read = some (h', bytes)) :
    h.phase = .reading ∧ bytes = [] ∧
      ((∃ r, recv k.chunk h.copy.reader = (none, r) ∧ h' = ⟨{ h.copy with reader := r }, .ended false⟩) ∨
        (∃ r, recv k.chunk h.copy.reader = (some [], r) ∧ h' = .finish d { h.copy with reader := r }) ∨
        ∃ b bs r, recv k.chunk h.copy.reader = (some (b :: bs), r) ∧
          h' = .reserve k d { h.copy with reader := r } (b :: bs)) := by
  simp only [Half.step] at hs
  split at hs
  · next hphase =>
    refine ⟨hphase, ?_⟩
    split at hs
    · next r hrecv =>
      obtain ⟨rfl, rfl⟩ := Prod.mk.inj (Option.some.inj hs)
      exact ⟨rfl, .inl ⟨r, hrecv, rfl⟩⟩
    · next r hrecv =>
      obtain ⟨rfl, rfl⟩ := Prod.mk.inj (Option.some.inj hs)
      exact ⟨rfl, .inr (.inl ⟨r, hrecv, rfl⟩)⟩
    · next b bs r hrecv =>
      obtain ⟨rfl, rfl⟩ := Prod.mk.inj (Option.some.inj hs)
      exact ⟨rfl, .inr (.inr ⟨b, bs, r, hrecv, rfl⟩)⟩
  · cases hs

/-- Whether a turn goes well is up to its write. -/
theorem Copy.forward_snd (k : Kind) (d : Direction) (t : Turn) (c : Copy) (allowed : ℕ) (bs : List UInt8) :
    (c.forward k d t allowed bs).2 = t.writeFault.isNone := by
  unfold Copy.forward Copy.write
  cases t.writeFault <;> rfl

/-- A write fails, or it is complete; a piece that the quota has cut ends the loop. -/
theorem Half.write_cases {now : ℚ} {fault : Option ℕ} {commitDue : Bool}
    (hs : h.step k d (.write now fault commitDue) = some (h', bytes)) :
    ∃ allowed bs c, h.phase = .writing allowed bs ∧
      (h.copy.forward k d (writeTurn now fault commitDue) allowed bs).1 = c ∧
      ((∃ n, fault = some n ∧ bytes = (bs.take allowed).take n ∧ h' = ⟨c, .ended false⟩) ∨
        (fault = none ∧ bytes = bs.take allowed ∧
          ((allowed < bs.length ∧ h' = .finish d c) ∨ (bs.length ≤ allowed ∧ h' = ⟨c, .checking⟩)))) := by
  simp only [Half.step] at hs
  split at hs
  · next allowed bs hphase =>
    have hsnd := Copy.forward_snd k d (writeTurn now fault commitDue) h.copy allowed bs
    split at hs
    · next c heq =>
      rw [heq] at hsnd
      obtain ⟨n, rfl⟩ : ∃ n, fault = some n := Option.isSome_iff_exists.mp (Option.isNone_eq_false_iff.mp hsnd.symm)
      obtain ⟨rfl, rfl⟩ := Prod.mk.inj (Option.some.inj hs)
      exact ⟨allowed, bs, c, hphase, congrArg Prod.fst heq, .inl ⟨n, rfl, rfl, rfl⟩⟩
    · next c heq =>
      rw [heq] at hsnd
      obtain rfl : fault = none := Option.isNone_iff_eq_none.mp hsnd.symm
      obtain ⟨rfl, rfl⟩ := Prod.mk.inj (Option.some.inj hs)
      refine ⟨allowed, bs, c, hphase, congrArg Prod.fst heq, .inr ⟨rfl, rfl, ?_⟩⟩
      split_ifs with hcut
      · exact .inl ⟨hcut, rfl⟩
      · exact .inr ⟨not_lt.mp hcut, rfl⟩
  · cases hs

theorem Half.shutdown_cases {ok : Bool} (hs : h.step k d (.shutdown ok) = some (h', bytes)) :
    h.phase = .closing ∧ bytes = [] ∧ h' = { h with phase := .ended ok } := by
  simp only [Half.step] at hs
  split at hs
  · next hphase =>
    obtain ⟨rfl, rfl⟩ := Prod.mk.inj (Option.some.inj hs)
    exact ⟨hphase, rfl, rfl⟩
  · cases hs

end

/-! ## Conservation -/

section

variable {k : Kind} {d : Direction} {c : Copy} {u : UserStats}

@[simp] theorem Half.finish_outstanding (d : Direction) (c : Copy) : (Half.finish d c).outstanding = 0 := rfl

/-- A commit moves counters only. -/
theorem Copy.commit_user (d : Direction) (hc : c.user = some u) :
    ∃ u', (c.commit d).user = some u' ∧ u'.remainingBytes = u.remainingBytes := by
  refine ⟨u.count d c.accumulatedBytes, ?_, u.count_remainingBytes d _⟩
  rw [Copy.commit, hc, Option.map_some]

theorem Half.finish_user (d : Direction) (hc : c.user = some u) :
    ∃ u', (Half.finish d c).copy.user = some u' ∧ u'.remainingBytes = u.remainingBytes := by
  rw [Half.finish]
  split_ifs
  · exact c.commit_user d hc
  · exact ⟨u, hc, rfl⟩

/-- A reservation takes from the quota what the loop then holds. -/
theorem Half.reserve_conserves (hk : k.metered = true) (hc : c.user = some u) (hu : 0 ≤ u.remainingBytes)
    (bs : List UInt8) :
    ∃ u', (Half.reserve k d c bs).copy.user = some u' ∧ 0 ≤ u'.remainingBytes ∧
      (Half.reserve k d c bs).outstanding + u'.remainingBytes = u.remainingBytes := by
  have hr : c.reserve k bs.length = (min bs.length u.remainingBytes.toNat, { c with
      user := some { u with
        remainingBytes := u.remainingBytes - (min bs.length u.remainingBytes.toNat : ℕ) } }) := by
    rw [Copy.reserve, hk, hc, if_pos rfl]
    dsimp only
    rw [reserveQuota_alone hu]
  have hle : (min bs.length u.remainingBytes.toNat : ℕ) ≤ u.remainingBytes := by omega
  rw [Half.reserve, hr]
  dsimp only
  split_ifs with h0
  · obtain ⟨u', hu', hrem⟩ := Half.finish_user (u := { u with
      remainingBytes := u.remainingBytes - (min bs.length u.remainingBytes.toNat : ℕ) }) d
      (c := { c with user := some _ }) rfl
    dsimp only at hrem
    exact ⟨u', hu', by omega, by rw [Half.finish_outstanding]; omega⟩
  · refine ⟨_, rfl, ?_, ?_⟩
    · dsimp only
      omega
    · simp only [Half.outstanding]
      omega

/-- A write moves counters only. -/
theorem Copy.forward_user (k : Kind) (d : Direction) (now : ℚ) (fault : Option ℕ) (commitDue : Bool)
    (hc : c.user = some u) (allowed : ℕ) (bs : List UInt8) :
    ∃ u', (c.forward k d (writeTurn now fault commitDue) allowed bs).1.user = some u' ∧
      u'.remainingBytes = u.remainingBytes := by
  set t := writeTurn now fault commitDue with ht
  have hsleep : (c.sleepBeforeWrite k t allowed).user = some u := by
    rw [Copy.sleepBeforeWrite]
    split
    · exact hc
    · dsimp only
      split_ifs
      · rw [Copy.meanwhile, ht]
        dsimp only [writeTurn]
        rw [Option.map_id]
        exact hc
      · exact hc
      · exact hc
  have hwrite : ((c.sleepBeforeWrite k t allowed).write t (bs.take allowed)).1.user = some u := by
    rw [Copy.write]
    split
    · exact hsleep
    · rw [Copy.meanwhile, ht]
      dsimp only [writeTurn]
      rw [Option.map_id]
      exact hsleep
  rw [Copy.forward]
  dsimp only
  split_ifs
  · rw [Copy.account]
    dsimp only
    split_ifs
    · exact Copy.commit_user d hwrite
    · exact ⟨u, hwrite, rfl⟩
  · exact ⟨u, hwrite, rfl⟩

/-- **A metered direction**: what it forwards, holds and leaves to the account does not grow. -/
theorem Half.step_conserves {h h' : Half} {e : HalfEvent} {bytes : List UInt8} (hk : k.metered = true)
    (hc : h.copy.user = some u) (hu : 0 ≤ u.remainingBytes) (hs : h.step k d e = some (h', bytes)) :
    ∃ u', h'.copy.user = some u' ∧ 0 ≤ u'.remainingBytes ∧
      bytes.length + h'.outstanding + u'.remainingBytes ≤ h.outstanding + u.remainingBytes := by
  have hfinish : ∀ {c : Copy}, c.user = some u → ∃ u', (Half.finish d c).copy.user = some u' ∧
      0 ≤ u'.remainingBytes ∧ (0 : ℤ) + (Half.finish d c).outstanding + u'.remainingBytes ≤
        h.outstanding + u.remainingBytes := by
    intro c hc
    obtain ⟨u', hu', hrem⟩ := Half.finish_user d hc
    exact ⟨u', hu', by omega, by rw [Half.finish_outstanding]; omega⟩
  cases e with
  | check =>
    obtain ⟨-, rfl, ⟨-, rfl⟩ | ⟨-, rfl⟩⟩ := Half.check_cases hs
    · exact hfinish hc
    · exact ⟨u, hc, hu, by simp [Half.outstanding]⟩
  | read =>
    obtain ⟨-, rfl, ⟨r, -, rfl⟩ | ⟨r, -, rfl⟩ | ⟨b, bs, r, -, rfl⟩⟩ := Half.read_cases hs
    · exact ⟨u, hc, hu, by simp [Half.outstanding]⟩
    · exact hfinish hc
    · obtain ⟨u', hu', hrem, hsum⟩ :=
        Half.reserve_conserves (c := { h.copy with reader := r }) (d := d) hk hc hu (b :: bs)
      dsimp only at hsum
      exact ⟨u', hu', hrem, by simp only [List.length_nil]; omega⟩
  | write now fault commitDue =>
    obtain ⟨allowed, bs, c, hphase, hforward, hwrite⟩ := Half.write_cases hs
    have hout : h.outstanding = allowed := by rw [Half.outstanding, hphase]
    obtain ⟨u', hu', hrem⟩ := Copy.forward_user k d now fault commitDue hc allowed bs
    rw [hforward] at hu'
    obtain ⟨n, -, rfl, rfl⟩ | ⟨-, rfl, ⟨-, rfl⟩ | ⟨-, rfl⟩⟩ := hwrite
    · refine ⟨u', hu', by omega, ?_⟩
      simp only [Half.outstanding, List.length_take, hphase]
      omega
    · obtain ⟨u'', hu'', hrem'⟩ := Half.finish_user d hu'
      refine ⟨u'', hu'', by omega, ?_⟩
      rw [Half.finish_outstanding, List.length_take, hout]
      omega
    · refine ⟨u', hu', by omega, ?_⟩
      simp only [Half.outstanding, List.length_take, hphase]
      omega
  | shutdown ok =>
    obtain ⟨-, rfl, rfl⟩ := Half.shutdown_cases hs
    exact ⟨u, hc, hu, by simp [Half.outstanding]⟩

end

end RXCore
