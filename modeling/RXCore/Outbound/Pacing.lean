import RXCore.Outbound.Metered
import RXCore.Lib.Pacer

/-!
# The rate of a limited copy

`copy_one_way_rate_limited` paces its chunks with a virtual clock, `next_send`. Here the loop runs with the moments at
which its timer wakes, and keeps a list of the chunks that it has gone on to write.

* `Chunk`, `PacedCopy`, `PacedCopy.step`: the loop with its timer and its chunks;
* `PacedCopy.Kept`: the chunks are pieces of one pacer, and what was written;
* `PacedCopy.step_kept`: a step keeps that;
* **`rateLimited_window`**: what goes in a window, and the size of a chunk.
-/

set_option autoImplicit false

namespace RXCore

open Arrivals Pacer

/-! ## The loop and its timer -/

/-- A chunk that the loop goes on to write. -/
structure Chunk where
  bytes : ℕ
  piece : Piece ℚ

/-- The setting of `copy_one_way_rate_limited`. -/
abbrev pacedKind (limit : ℕ) : Kind := ⟨true, maxChunk limit, some limit⟩

/-- More arrears than 10 ms are given up. -/
def slack : ℚ := 1 / 100

/-- The loop, and the chunks it has gone on to write, the oldest first. -/
structure PacedCopy where
  half : Half
  chunks : List Chunk

inductive PacedEvent where
  /-- A step of the loop. If it sleeps before its write, its timer wakes at `wake`. -/
  | half (wake : ℚ) (e : HalfEvent)
  /-- Another task acts on the user. -/
  | others (f : UserStats → UserStats)

/-- The call. -/
def PacedCopy.start (reader : List (Arrival UInt8)) (user : Option UserStats) (connectionCounter : ℕ) (dirty : Bool)
    (now : ℚ) : PacedCopy :=
  ⟨⟨.start reader user connectionCounter dirty now, .checking⟩, []⟩

/-- The chunk that a step goes on to write. -/
def Half.chunk (limit : ℕ) (wake : ℚ) (h : Half) : HalfEvent → Option Chunk
  | .write now _ _ => match h.phase with
    | .writing allowed _ => some ⟨allowed, ⟨h.copy.nextSend, (allowed : ℚ) / limit, now, wake⟩⟩
    | _ => none
  | _ => none

/-- One step of the loop or of its surroundings. The timer does not wake before its deadline. -/
def PacedCopy.step (limit : ℕ) (d : Direction) (s : PacedCopy) : PacedEvent → Option PacedCopy
  | .half wake e =>
    if ∀ c ∈ s.half.chunk limit wake e, c.piece.Prompt then
      (s.half.step (pacedKind limit) d e).map fun (half, _) =>
        ⟨half, s.chunks ++ (s.half.chunk limit wake e).toList⟩
    else none
  | .others f => some { s with half := { s.half with copy := s.half.copy.meanwhile f } }

/-- The chunks are pieces of one pacer, which the loop goes on with, and they are what it has written. -/
structure PacedCopy.Kept (limit : ℕ) (s : PacedCopy) : Prop where
  chained : Chained slack (s.chunks.map Chunk.piece)
  clock : ∀ p ∈ (s.chunks.map Chunk.piece).getLast?, s.half.copy.nextSend = p.after slack
  prompt : ∀ c ∈ s.chunks, c.piece.Prompt
  cost : ∀ c ∈ s.chunks, c.piece.cost = c.bytes / limit
  small : ∀ c ∈ s.chunks, c.bytes ≤ maxChunk limit
  allowed : ∀ allowed bs, s.half.phase = .writing allowed bs → allowed ≤ bs.length ∧ bs.length ≤ maxChunk limit
  written : s.half.phase ≠ .ended false → s.half.copy.written.length = (s.chunks.map Chunk.bytes).sum

/-! ## The virtual clock of the loop -/

section

variable {limit : ℕ} {d : Direction} {h h' : Half} {c : Copy} {bytes : List UInt8}

theorem Half.finish_nextSend (d : Direction) (c : Copy) : (Half.finish d c).copy.nextSend = c.nextSend := by
  rw [Half.finish]
  split_ifs <;> rfl

theorem Copy.reserve_nextSend (k : Kind) (c : Copy) (n : ℕ) : (c.reserve k n).2.nextSend = c.nextSend := by
  unfold Copy.reserve
  split
  · split <;> rfl
  · rfl

/-- The sleep before a write moves the virtual clock as a pacer does. -/
theorem Copy.sleepBeforeWrite_nextSend (limit : ℕ) (t : Turn) (c : Copy) (n : ℕ) (wake : ℚ) :
    (c.sleepBeforeWrite (pacedKind limit) t n).nextSend =
      (Piece.mk c.nextSend ((n : ℚ) / limit) t.now wake).after slack := by
  rw [Copy.sleepBeforeWrite, Piece.after, Piece.deadline, slack]
  dsimp only
  split_ifs <;> rfl

theorem Copy.forward_nextSend (limit : ℕ) (d : Direction) (t : Turn) (c : Copy) (n : ℕ) (bs : List UInt8) (wake : ℚ) :
    (c.forward (pacedKind limit) d t n bs).1.nextSend =
      (Piece.mk c.nextSend ((n : ℚ) / limit) t.now wake).after slack := by
  rw [← c.sleepBeforeWrite_nextSend limit t n wake, Copy.forward, Copy.write]
  dsimp only
  cases t.writeFault with
  | some n => rfl
  | none =>
    rw [if_pos rfl, Copy.account]
    dsimp only
    split_ifs <;> rfl

/-- A step that is no write. -/
structure Half.Idle (limit : ℕ) (h h' : Half) : Prop where
  nextSend : h'.copy.nextSend = h.copy.nextSend
  written : h'.copy.written = h.copy.written
  allowed : ∀ allowed bs, h'.phase = .writing allowed bs → allowed ≤ bs.length ∧ bs.length ≤ maxChunk limit
  failed : h.phase ≠ .ended false

theorem Half.finish_idle (hnext : c.nextSend = h.copy.nextSend) (hwritten : c.written = h.copy.written)
    (hphase : h.phase ≠ .ended false) : h.Idle limit (Half.finish d c) :=
  ⟨(Half.finish_nextSend d c).trans hnext, (Half.finish_fields d c).1.trans hwritten, fun _ _ h => (nomatch h), hphase⟩

theorem Half.step_check (hs : h.step (pacedKind limit) d .check = some (h', bytes)) : h.Idle limit h' := by
  obtain ⟨hphase, -, ⟨-, rfl⟩ | ⟨-, rfl⟩⟩ := Half.check_cases hs
  · exact Half.finish_idle rfl rfl (by simp [hphase])
  · exact ⟨rfl, rfl, fun _ _ h => (by cases h), by simp [hphase]⟩

/-- What a read returns fits into the chunk of the loop. -/
theorem Half.step_read (hs : h.step (pacedKind limit) d .read = some (h', bytes)) : h.Idle limit h' := by
  obtain ⟨hphase, -, hread⟩ := Half.read_cases hs
  have hfailed : h.phase ≠ .ended false := by simp [hphase]
  obtain ⟨r, -, rfl⟩ | ⟨r, -, rfl⟩ | ⟨b, bs, r, hrecv, rfl⟩ := hread
  · exact ⟨rfl, rfl, fun _ _ h => (by cases h), hfailed⟩
  · exact Half.finish_idle rfl rfl hfailed
  · have hlen := recv_length_le hrecv
    have hnext := Copy.reserve_nextSend (pacedKind limit) { h.copy with reader := r } (b :: bs).length
    have hwritten := Copy.reserve_written (pacedKind limit) { h.copy with reader := r } (b :: bs).length
    have hle := (Copy.reserve_counts (pacedKind limit) .rx { h.copy with reader := r } (b :: bs).length).2
    rw [Half.reserve]
    dsimp only
    split_ifs
    · exact Half.finish_idle hnext hwritten hfailed
    · refine ⟨hnext, hwritten, fun allowed bs' hphase' => ?_, hfailed⟩
      obtain ⟨rfl, rfl⟩ := Phase.writing.inj hphase'
      exact ⟨hle, hlen⟩

theorem Half.step_shutdown {ok : Bool} (hs : h.step (pacedKind limit) d (.shutdown ok) = some (h', bytes)) :
    h.Idle limit h' := by
  obtain ⟨hphase, -, rfl⟩ := Half.shutdown_cases hs
  exact ⟨rfl, rfl, fun _ _ h => (by cases h), by simp [hphase]⟩

/-- **A write** moves the virtual clock on by what it writes. -/
theorem Half.step_write {now : ℚ} {fault : Option ℕ} {commitDue : Bool}
    (hs : h.step (pacedKind limit) d (.write now fault commitDue) = some (h', bytes)) :
    ∃ allowed bs, h.phase = .writing allowed bs ∧ (∀ a b, h'.phase ≠ .writing a b) ∧
      (∀ wake, h'.copy.nextSend =
        (Piece.mk h.copy.nextSend ((allowed : ℚ) / limit) now wake).after slack) ∧
      (h'.phase ≠ .ended false → h'.copy.written.length = h.copy.written.length + (bs.take allowed).length) := by
  obtain ⟨allowed, bs, c, hphase, rfl, hwrite⟩ := Half.write_cases hs
  have hnext := Copy.forward_nextSend limit d (writeTurn now fault commitDue) h.copy allowed bs
  refine ⟨allowed, bs, hphase, ?_⟩
  obtain ⟨n, -, -, rfl⟩ | ⟨rfl, -, hend⟩ := hwrite
  · exact ⟨fun _ _ h => (by cases h), hnext, fun hfailed => absurd rfl hfailed⟩
  · obtain ⟨-, hwritten, -⟩ :=
      Copy.forward_ok (pacedKind limit) d (t := writeTurn now none commitDue) h.copy allowed bs rfl
    have hlen := congrArg List.length hwritten
    rw [List.length_append] at hlen
    obtain ⟨-, rfl⟩ | ⟨-, rfl⟩ := hend
    · refine ⟨fun _ _ h => (by cases h), fun wake => (Half.finish_nextSend d _).trans (hnext wake), fun _ => ?_⟩
      rw [(Half.finish_fields d _).1]
      exact hlen
    · exact ⟨fun _ _ h => (by cases h), hnext, fun _ => hlen⟩

end

/-! ## The chunks of a run -/

section

variable {limit : ℕ} {d : Direction} {s s' : PacedCopy} {h' : Half}

theorem PacedCopy.start_kept (limit : ℕ) (reader : List (Arrival UInt8)) (user : Option UserStats)
    (connectionCounter : ℕ) (dirty : Bool) (now : ℚ) :
    (PacedCopy.start reader user connectionCounter dirty now).Kept limit :=
  ⟨List.isChain_nil, nofun, nofun, nofun, nofun, nofun, fun _ => rfl⟩

/-- A step that goes on to write no chunk. -/
theorem PacedCopy.Kept.idle (hkept : s.Kept limit) (hidle : s.half.Idle limit h') :
    (PacedCopy.mk h' s.chunks).Kept limit where
  chained := hkept.chained
  clock := fun p hp => hidle.nextSend.trans (hkept.clock p hp)
  prompt := hkept.prompt
  cost := hkept.cost
  small := hkept.small
  allowed := hidle.allowed
  written := fun _ => (congrArg List.length hidle.written).trans (hkept.written hidle.failed)

/-- **A chunk** meets the virtual clock that the chunks before it have left. -/
theorem PacedCopy.Kept.write (hkept : s.Kept limit) {allowed : ℕ} {bs : List UInt8} {now wake : ℚ}
    (hphase : s.half.phase = .writing allowed bs) (hphase' : ∀ a b, h'.phase ≠ .writing a b)
    (hprompt : (Piece.mk s.half.copy.nextSend ((allowed : ℚ) / limit) now wake).Prompt)
    (hnext : h'.copy.nextSend = (Piece.mk s.half.copy.nextSend ((allowed : ℚ) / limit) now wake).after slack)
    (hwritten : h'.phase ≠ .ended false →
      h'.copy.written.length = s.half.copy.written.length + (bs.take allowed).length) :
    (PacedCopy.mk h' (s.chunks ++ [⟨allowed, ⟨s.half.copy.nextSend, (allowed : ℚ) / limit, now, wake⟩⟩])).Kept
      limit := by
  obtain ⟨hallowed, hlen⟩ := hkept.allowed allowed bs hphase
  refine ⟨?_, ?_, ?_, ?_, ?_, fun a b h => absurd h (hphase' a b), fun hfailed => ?_⟩
  · rw [List.map_append]
    exact hkept.chained.concat hkept.clock
  · rw [List.map_append, List.map_singleton, List.getLast?_concat]
    rintro p ⟨⟩
    exact hnext
  · simpa [or_imp, forall_and] using ⟨hkept.prompt, hprompt⟩
  · simpa [or_imp, forall_and] using hkept.cost
  · simpa [or_imp, forall_and] using ⟨hkept.small, hallowed.trans hlen⟩
  · rw [hwritten hfailed, hkept.written (by rw [hphase]; nofun), List.map_append, List.sum_append,
      List.length_take_of_le hallowed]
    rfl

/-- **A step keeps the chunks the pieces of one pacer.** -/
theorem PacedCopy.step_kept {e : PacedEvent} (hkept : s.Kept limit) (hs : s.step limit d e = some s') :
    s'.Kept limit := by
  cases e with
  | others f =>
    obtain rfl := Option.some.inj hs
    exact ⟨hkept.chained, hkept.clock, hkept.prompt, hkept.cost, hkept.small, hkept.allowed, hkept.written⟩
  | half wake e =>
    rw [PacedCopy.step] at hs
    split_ifs at hs with hprompt
    obtain ⟨⟨h', bytes⟩, hstep, rfl⟩ := Option.map_eq_some_iff.mp hs
    cases e with
    | check => simpa [Half.chunk] using hkept.idle (Half.step_check hstep)
    | read => simpa [Half.chunk] using hkept.idle (Half.step_read hstep)
    | shutdown ok => simpa [Half.chunk] using hkept.idle (Half.step_shutdown hstep)
    | write now fault commitDue =>
      obtain ⟨allowed, bs, hphase, hphase', hnext, hwritten⟩ := Half.step_write hstep
      simp only [Half.chunk, hphase, Option.mem_def, Option.some.injEq, forall_eq', Option.toList_some] at hprompt ⊢
      exact hkept.write hphase hphase' hprompt (hnext wake) hwritten

end

/-! ## The rate -/

/-- A chunk is at most the bytes of 5 ms, unless these are fewer than 256. -/
theorem maxChunk_le (limit : ℕ) : (maxChunk limit : ℚ) ≤ max 256 ((limit : ℚ) * (5 / 1000)) := by
  have hdiv : ((limit * 5000000 / 1000000000 : ℕ) : ℚ) ≤ limit * (5 / 1000) := by
    calc ((limit * 5000000 / 1000000000 : ℕ) : ℚ) ≤ ((limit * 5000000 : ℕ) : ℚ) / (1000000000 : ℕ) := Nat.cast_div_le
      _ = limit * (5 / 1000) := by push_cast; ring
  rw [maxChunk, Nat.cast_max]
  refine max_le_max ?_ (le_trans (Nat.cast_le.mpr (min_le_left _ _)) hdiv)
  norm_num

theorem rateLimited_kept (limit : ℕ) (d : Direction) (reader : List (Arrival UInt8)) (user : Option UserStats)
    (connectionCounter : ℕ) (dirty : Bool) (now : ℚ) (events : List PacedEvent) {s : PacedCopy}
    (hrun : Run.exec (PacedCopy.step limit d) (.start reader user connectionCounter dirty now) events = some s) :
    s.Kept limit :=
  Run.exec_invariant (fun _ _ _ hkept hs => PacedCopy.step_kept hkept hs)
    (PacedCopy.start_kept limit reader user connectionCounter dirty now) hrun

/-- The chunks of a loop that has not failed are all that it has written. -/
theorem rateLimited_written (limit : ℕ) (d : Direction) (reader : List (Arrival UInt8)) (user : Option UserStats)
    (connectionCounter : ℕ) (dirty : Bool) (now : ℚ) (events : List PacedEvent) {s : PacedCopy}
    (hrun : Run.exec (PacedCopy.step limit d) (.start reader user connectionCounter dirty now) events = some s)
    (hok : s.half.phase ≠ .ended false) : s.half.copy.written.length = (s.chunks.map Chunk.bytes).sum :=
  (rateLimited_kept limit d reader user connectionCounter dirty now events hrun).written hok

/-- The cost of chunks, in seconds, is their bytes. -/
theorem cost_sum {limit : ℚ} (hlimit : limit ≠ 0) {cs : List Chunk} (h : ∀ c ∈ cs, c.piece.cost = c.bytes / limit) :
    (cs.map (Piece.cost ∘ Chunk.piece)).sum * limit = ((cs.map Chunk.bytes).sum : ℚ) := by
  induction cs with
  | nil => simp
  | cons c cs ih =>
    obtain ⟨hc, hcs⟩ := List.forall_mem_cons.mp h
    simp only [List.map_cons, List.sum_cons, Function.comp_apply, add_mul, hc, Nat.cast_add]
    rw [ih hcs, div_mul_cancel₀ _ hlimit]

/-- **The rate of a limited copy**: in whatever pieces the input comes, whatever other tasks do to the quota, and
whenever its timer wakes, as long as that is not before a deadline. The bytes of the chunks after chunk `i` up to chunk
`j` are at most those of the time between them and of 10 ms, and of the delay of the timer for chunk `i`; and a chunk is
at most the larger of 256 bytes and the bytes of 5 ms. -/
theorem rateLimited_window {limit : ℕ} (hlimit : 0 < limit) (d : Direction) (reader : List (Arrival UInt8))
    (user : Option UserStats) (connectionCounter : ℕ) (dirty : Bool) (now : ℚ) (events : List PacedEvent)
    {s : PacedCopy}
    (hrun : Run.exec (PacedCopy.step limit d) (.start reader user connectionCounter dirty now) events = some s) :
    (∀ i j : Fin s.chunks.length, i < j →
      ((((s.chunks.drop (i + 1)).take (j - i)).map Chunk.bytes).sum : ℚ) ≤
        limit * (s.chunks[j].piece.goes - s.chunks[i].piece.goes + 10 / 1000) +
          limit * s.chunks[i].piece.late) ∧
    ∀ c ∈ s.chunks, (c.bytes : ℚ) ≤ max 256 ((limit : ℚ) * (5 / 1000)) := by
  obtain ⟨hchained, -, hprompt, hcost, hsmall, -, -⟩ :=
    rateLimited_kept limit d reader user connectionCounter dirty now events hrun
  refine ⟨fun i j hij => ?_, fun c hc => (Nat.cast_le.mpr (hsmall c hc)).trans (maxChunk_le limit)⟩
  have hpos : (0 : ℚ) < limit := Nat.cast_pos.mpr hlimit
  -- the window, in seconds
  have hwindow := hchained.window (i := i.cast (List.length_map _).symm) (j := j.cast (List.length_map _).symm)
    (by norm_num [slack]) (by simpa using hprompt) hij
  have hsum : ((((s.chunks.map Chunk.piece).drop (i + 1)).take (j - i)).map Piece.cost).sum * limit =
      ((((s.chunks.drop (i + 1)).take (j - i)).map Chunk.bytes).sum : ℚ) := by
    rw [← List.map_drop, ← List.map_take, List.map_map]
    refine cost_sum hpos.ne' fun c hc => hcost c ?_
    exact List.mem_of_mem_drop (List.mem_of_mem_take hc)
  rw [← hsum]
  simp only [Fin.getElem_fin, Fin.val_cast, List.getElem_map] at hwindow ⊢
  calc _ ≤ (s.chunks[(j : ℕ)].piece.goes - s.chunks[(i : ℕ)].piece.goes + slack + s.chunks[(i : ℕ)].piece.late) *
        limit := mul_le_mul_of_nonneg_right hwindow hpos.le
    _ = _ := by rw [slack]; ring

/-- A run with two chunks. The timer is 1 ms late for the first; the second comes when its time is over. -/
def twoChunks : List PacedEvent :=
  [.half 0 .check, .half 0 .read, .half (3 / 1000) (.write 0 none false), .half 0 .check, .half 0 .read,
    .half 0 (.write (9 / 1000) none false)]

/-- The theorem on a run with two chunks. -/
theorem rateLimited_window_two : ∃ s, Run.exec (PacedCopy.step 1000 .tx)
    (.start [.data [71, 69], .data [84]] none 0 false 0) twoChunks = some s ∧ s.chunks.length = 2 ∧
    (∀ i j : Fin s.chunks.length, i < j →
      ((((s.chunks.drop (i + 1)).take (j - i)).map Chunk.bytes).sum : ℚ) ≤
        ((1000 : ℕ) : ℚ) * (s.chunks[j].piece.goes - s.chunks[i].piece.goes + 10 / 1000) +
          ((1000 : ℕ) : ℚ) * s.chunks[i].piece.late) ∧
    ∀ c ∈ s.chunks, (c.bytes : ℚ) ≤ max 256 (((1000 : ℕ) : ℚ) * (5 / 1000)) := by
  have hrun : (Run.exec (PacedCopy.step 1000 .tx) (.start [.data [71, 69], .data [84]] none 0 false 0) twoChunks).map
      (fun s => s.chunks.length) = some 2 := by with_unfolding_all rfl
  obtain ⟨s, hs, hlen⟩ := Option.map_eq_some_iff.mp hrun
  exact ⟨s, hs, hlen, rateLimited_window (by decide) .tx _ none 0 false 0 twoChunks hs⟩

end RXCore
