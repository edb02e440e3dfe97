import RXCore.Lib.Run
import RXCore.Outbound.Stream

/-!
# The upload of the fragmenting outbound

The first payload goes out in pieces of a random length, and after each piece a number of packets is drawn. Both ranges
are taken from the settings as they are.

* `FragmentRun`, `fragmentRunStep`: the upload loop over a writer that takes everything, with what it writes and counts;
* `FragmentRun.Panics`: a draw from an empty range;
* `FragmentUp.Transparent`: no panic, an end, and the input as the output, all of it counted;
* `FragmentSettings.Proper`: the ranges that can be drawn from, without pieces of no byte;
* `FragmentRun.Kept`: what holds along a run, with `Kept.step` and `Kept.decreases`;
* **`transparent_iff`**: an input comes through whatever is drawn if and only if it is empty or the ranges are proper;
* **`inverted_range_panics`**: the range 10-1, and the range 0-10.
-/

set_option autoImplicit false

namespace RXCore

open Arrivals

/-- What the upload loop does next; a piece comes with what is drawn for it. -/
inductive FragmentChoice where
  | read
  | write
  | piece (size packets : ℕ)

/-- The writer takes everything. -/
def FragmentChoice.event : FragmentChoice → FragmentEvent
  | read => .read
  | write => .write none
  | piece size packets => .piece size packets none

/-- The upload loop, what it has written and counted, and whether it has panicked. -/
structure FragmentRun where
  up : FragmentUp
  written : List UInt8
  txCounter : ℕ
  panicked : Bool

def FragmentRun.start (reader : List (Arrival UInt8)) : FragmentRun := ⟨.start reader, [], 0, false⟩

/-- A draw from an empty range: of the length, or of the number of packets behind a piece. -/
def FragmentRun.Panics (settings : Option FragmentSettings) (r : FragmentRun) : FragmentChoice → Bool
  | .piece size _ => match r.up.phase, settings with
    | .splitting rest, some s =>
      let (minPackets, maxPackets) := parseRange s.packets 1 5
      let (minLen, maxLen) := parseRange s.length 1 10
      decide (maxLen < minLen) || (decide (min size rest.length ≠ 0) && decide (maxPackets < minPackets))
    | _, _ => false
  | _ => false

/-- One step of the loop. -/
def fragmentRunStep (settings : Option FragmentSettings) (r : FragmentRun) (c : FragmentChoice) : Option FragmentRun :=
  (r.up.step settings c.event).map fun (up, bytes, n) =>
    ⟨up, r.written ++ bytes, r.txCounter + n, r.panicked || r.Panics settings c⟩

/-- The upload does what it is for, whatever is drawn: it does not panic, its runs are bounded and go on to the end, in
the end it has written what was to be read, and all that it writes is counted. -/
structure FragmentUp.Transparent (settings : Option FragmentSettings) (reader : List (Arrival UInt8)) : Prop where
  noPanic : ∀ cs r, Run.exec (fragmentRunStep settings) (.start reader) cs = some r → r.panicked = false
  bounded : ∃ n, ∀ cs r, Run.exec (fragmentRunStep settings) (.start reader) cs = some r → cs.length ≤ n
  goesOn : ∀ cs r, Run.exec (fragmentRunStep settings) (.start reader) cs = some r → r.up.phase ≠ .ended →
    ∃ c r', fragmentRunStep settings r c = some r'
  whole : ∀ cs r, Run.exec (fragmentRunStep settings) (.start reader) cs = some r → r.up.phase = .ended →
    r.written = content reader
  counted : ∀ cs r, Run.exec (fragmentRunStep settings) (.start reader) cs = some r → r.txCounter = r.written.length

/-- Both ranges can be drawn from, and no piece is without bytes. -/
structure FragmentSettings.Proper (s : FragmentSettings) : Prop where
  packets : (parseRange s.packets 1 5).1 ≤ (parseRange s.packets 1 5).2
  length : (parseRange s.length 1 10).1 ≤ (parseRange s.length 1 10).2
  positive : 1 ≤ (parseRange s.length 1 10).1

/-! ## Steps -/

section

variable {settings : Option FragmentSettings} {s : FragmentSettings} {reader r₁ : List (Arrival UInt8)}
  {r r' : FragmentRun} {bs rest : List UInt8} {size packets : ℕ}

/-- A piece of the first payload, if the ranges are proper. -/
theorem FragmentUp.piece_proper {up up' : FragmentUp} {bytes : List UInt8} {n : ℕ} (hs : s.Proper) (hrest : rest ≠ [])
    (h : up.piece s rest size packets none = some (up', bytes, n)) :
    ∃ chunkSize, 0 < chunkSize ∧ chunkSize ≤ rest.length ∧ bytes = rest.take chunkSize ∧ n = chunkSize ∧
      up' = { up with phase := if chunkSize < rest.length then .splitting (rest.drop chunkSize) else .reading } := by
  have hlength := not_lt.mpr hs.length
  have hpackets := not_lt.mpr hs.packets
  have hpositive := hs.positive
  have hpos := List.length_pos_of_ne_nil hrest
  simp only [FragmentUp.piece, if_neg hlength, if_neg hpackets] at h
  split_ifs at h with hdrawn hchunk hcount hmore
  · omega
  all_goals
    obtain ⟨rfl, hrest⟩ := Prod.mk.inj (Option.some.inj h)
    obtain ⟨rfl, rfl⟩ := Prod.mk.inj hrest
    refine ⟨min size rest.length, by omega, min_le_right _ _, rfl, rfl, ?_⟩
  · rw [if_pos hmore]
  · rw [if_neg hmore]

/-- From proper ranges a piece can be drawn. -/
theorem FragmentUp.piece_exists (up : FragmentUp) (hs : s.Proper) (rest : List UInt8) :
    (up.piece s rest (parseRange s.length 1 10).1 (parseRange s.packets 1 5).1 none).isSome := by
  have hlength := not_lt.mpr hs.length
  have hpackets := not_lt.mpr hs.packets
  simp only [FragmentUp.piece, if_neg hlength, if_neg hpackets, lt_irrefl, false_or]
  split_ifs <;> rfl

/-- A step of the run is a step of the loop. -/
theorem fragmentRunStep_of_step {c : FragmentChoice} {up : FragmentUp} {bytes : List UInt8} {n : ℕ}
    (h : r.up.step settings c.event = some (up, bytes, n)) : fragmentRunStep settings r c =
      some ⟨up, r.written ++ bytes, r.txCounter + n, r.panicked || r.Panics settings c⟩ := by
  rw [fragmentRunStep, h, Option.map_some]

/-- What holds along a run whose input comes through. -/
structure FragmentRun.Kept (settings : Option FragmentSettings) (reader : List (Arrival UInt8)) (r : FragmentRun) :
    Prop where
  panicked : r.panicked = false
  counted : r.txCounter = r.written.length
  stream : match r.up.phase with
    | .reading => r.written ++ content r.up.reader = content reader
    | .splitting rest => rest ≠ [] ∧ settings.isSome ∧ r.written ++ (rest ++ content r.up.reader) = content reader
    | .writing buf => buf ≠ [] ∧ r.written ++ (buf ++ content r.up.reader) = content reader
    | .ended => r.written = content reader

/-- What is still to be read and written. -/
def FragmentRun.todo (r : FragmentRun) : ℕ :=
  match r.up.phase with
  | .reading => 2 * Arrivals.size r.up.reader + 1
  | .splitting rest => 2 * rest.length + 2 * Arrivals.size r.up.reader
  | .writing buf => 2 * buf.length + 2 * Arrivals.size r.up.reader
  | .ended => 0

/-- The end of the loop, when nothing is left to read. -/
theorem FragmentRun.Kept.finish (h : r.Kept settings reader) (hphase : r.up.phase = .reading)
    (hnil : content r.up.reader = []) (first : Bool) :
    FragmentRun.Kept settings reader ⟨⟨r₁, first, .ended⟩, r.written ++ [], r.txCounter + 0, r.panicked || false⟩ := by
  have hstream := h.stream
  rw [hphase] at hstream
  dsimp only at hstream
  rw [hnil, List.append_nil] at hstream
  exact ⟨by rw [Bool.or_false, h.panicked], by rw [List.append_nil, Nat.add_zero, h.counted],
    by rw [← hstream, List.append_nil]⟩

/-- A read of the loop. -/
theorem FragmentRun.Kept.read (h : r.Kept settings reader) (hphase : r.up.phase = .reading)
    (hs : fragmentRunStep settings r .read = some r') : r'.Kept settings reader ∧ r'.todo < r.todo := by
  have hstream := h.stream
  rw [hphase] at hstream
  have htodo : r.todo = 2 * Arrivals.size r.up.reader + 1 := by rw [todo, hphase]
  rcases hr : recv 8192 r.up.reader with ⟨_ | bs, r₁⟩
  · rw [fragmentRunStep_of_step (FragmentUp.step_read_end hphase (.inl rfl) hr)] at hs
    obtain rfl := Option.some.inj hs
    refine ⟨h.finish hphase (content_of_recv_nil (by decide) (.inl rfl) hr) _, ?_⟩
    rw [htodo]
    exact Nat.succ_pos _
  cases bs with
  | nil =>
    rw [fragmentRunStep_of_step (FragmentUp.step_read_end hphase (.inr rfl) hr)] at hs
    obtain rfl := Option.some.inj hs
    refine ⟨h.finish hphase (content_of_recv_nil (by decide) (.inr rfl) hr) _, ?_⟩
    rw [htodo]
    exact Nat.succ_pos _
  | cons b bs =>
    have hsize := recv_size_add hr
    have hless : 2 * (b :: bs).length + 2 * Arrivals.size r₁ < r.todo := by
      rw [htodo]
      omega
    dsimp only at hstream
    rw [recv_content hr] at hstream
    by_cases hfirst : r.up.isFirstPayload ∧ settings.isSome
    · rw [fragmentRunStep_of_step (FragmentUp.step_read_first hphase hr (List.cons_ne_nil b bs) hfirst)] at hs
      obtain rfl := Option.some.inj hs
      refine ⟨⟨by simp [h.panicked, Panics], by simp [h.counted], ?_⟩, hless⟩
      exact ⟨List.cons_ne_nil _ _, hfirst.2, by simpa using hstream⟩
    · rw [fragmentRunStep_of_step (FragmentUp.step_read_next hphase hr (List.cons_ne_nil b bs) hfirst)] at hs
      obtain rfl := Option.some.inj hs
      refine ⟨⟨by simp [h.panicked, Panics], by simp [h.counted], ?_⟩, hless⟩
      exact ⟨List.cons_ne_nil _ _, by simpa using hstream⟩

/-- A write that is not split. -/
theorem FragmentRun.Kept.write (h : r.Kept settings reader) {buf : List UInt8} (hphase : r.up.phase = .writing buf)
    (hs : fragmentRunStep settings r .write = some r') : r'.Kept settings reader ∧ r'.todo < r.todo := by
  have hstream := h.stream
  rw [hphase] at hstream
  obtain ⟨hbuf, hstream⟩ := hstream
  have hpos := List.length_pos_of_ne_nil hbuf
  rw [fragmentRunStep_of_step (FragmentUp.step_write hphase)] at hs
  obtain rfl := Option.some.inj hs
  refine ⟨⟨by simp [h.panicked, Panics], by simp [h.counted], ?_⟩, ?_⟩
  · simpa [List.append_assoc] using hstream
  · have htodo : r.todo = 2 * buf.length + 2 * Arrivals.size r.up.reader := by rw [todo, hphase]
    rw [htodo]
    show 2 * Arrivals.size r.up.reader + 1 < _
    omega

/-- A piece, where the ranges are proper. -/
theorem FragmentRun.Kept.piece (h : r.Kept settings reader) (hsettings : settings = some s) (hproper : s.Proper)
    (hphase : r.up.phase = .splitting rest) (hs : fragmentRunStep settings r (.piece size packets) = some r') :
    r'.Kept settings reader ∧ r'.todo < r.todo := by
  have hstream := h.stream
  rw [hphase] at hstream
  obtain ⟨hrest, hsome, hstream⟩ := hstream
  have hnoPanic : r.Panics settings (.piece size packets) = false := by
    simp [Panics, hphase, hsettings, hproper.length, hproper.packets]
  have hstep : (r.up.step settings (.piece size packets none)) = r.up.piece s rest size packets none := by
    rw [hsettings, FragmentUp.step_piece hphase]
  simp only [fragmentRunStep, FragmentChoice.event, hstep, hnoPanic] at hs
  obtain ⟨⟨up', bytes, n⟩, hpiece, rfl⟩ := Option.map_eq_some_iff.mp hs
  obtain ⟨chunkSize, hpos, hle, rfl, rfl, rfl⟩ := FragmentUp.piece_proper hproper hrest hpiece
  have hlen : (rest.take n).length = n := by rw [List.length_take, min_eq_left hle]
  refine ⟨⟨by simp [h.panicked], by simp [h.counted, hle], ?_⟩, ?_⟩
  · dsimp only
    split_ifs with hmore
    · refine ⟨?_, hsome, ?_⟩
      · rw [ne_eq, List.drop_eq_nil_iff]
        omega
      · rw [List.append_assoc, ← List.append_assoc (rest.take n), List.take_append_drop]
        exact hstream
    · rw [List.take_of_length_le (by omega), List.append_assoc]
      exact hstream
  · have htodo : r.todo = 2 * rest.length + 2 * Arrivals.size r.up.reader := by rw [todo, hphase]
    rw [htodo]
    by_cases hmore : n < rest.length
    · simp only [todo, if_pos hmore, List.length_drop]
      omega
    · simp only [todo, if_neg hmore]
      omega

/-- **A step keeps all this**, and takes the loop nearer to its end. -/
theorem FragmentRun.Kept.step (hthrough : content reader = [] ∨ ∀ s ∈ settings, s.Proper) (h : r.Kept settings reader)
    {c : FragmentChoice} (hs : fragmentRunStep settings r c = some r') :
    r'.Kept settings reader ∧ r'.todo < r.todo := by
  obtain ⟨x, hx, -⟩ := Option.map_eq_some_iff.mp hs
  rcases FragmentUp.step_cases (Option.isSome_of_mem hx) with
    ⟨hread, hphase⟩ | ⟨fault, buf, hwrite, hphase⟩ | ⟨size, packets, fault, rest, hpiece, hphase, hsome⟩
  · cases c <;> cases hread
    exact h.read hphase hs
  · cases c <;> cases hwrite
    exact h.write hphase hs
  · cases c <;> cases hpiece
    have hstream := h.stream
    rw [hphase] at hstream
    obtain ⟨hrest, -, hstream⟩ := hstream
    obtain ⟨s, hsettings⟩ := Option.isSome_iff_exists.mp hsome
    rcases hthrough with hnil | hproper
    · -- an empty input is never split
      rw [hnil] at hstream
      simp [hrest] at hstream
    · exact h.piece hsettings (hproper s hsettings) hphase hs

theorem FragmentRun.start_kept (settings : Option FragmentSettings) (reader : List (Arrival UInt8)) :
    (FragmentRun.start reader).Kept settings reader := ⟨rfl, rfl, rfl⟩

/-- A loop that has not ended can go on. -/
theorem FragmentRun.Kept.goesOn (hthrough : content reader = [] ∨ ∀ s ∈ settings, s.Proper) (h : r.Kept settings reader)
    (hphase : r.up.phase ≠ .ended) : ∃ c r', fragmentRunStep settings r c = some r' := by
  have hstep : ∀ c, (r.up.step settings (FragmentChoice.event c)).isSome →
      ∃ c r', fragmentRunStep settings r c = some r' := by
    intro c hc
    obtain ⟨x, hx⟩ := Option.isSome_iff_exists.mp hc
    exact ⟨c, _, by rw [fragmentRunStep, hx]; rfl⟩
  have hstream := h.stream
  cases hp : r.up.phase with
  | reading =>
    refine hstep .read ?_
    rw [FragmentChoice.event]
    rcases hr : recv 8192 r.up.reader with ⟨_ | _ | ⟨b, bs⟩, r₁⟩
    · rw [FragmentUp.step_read_end hp (.inl rfl) hr, Option.isSome_some]
    · rw [FragmentUp.step_read_end hp (.inr rfl) hr, Option.isSome_some]
    · by_cases hfirst : r.up.isFirstPayload ∧ settings.isSome
      · rw [FragmentUp.step_read_first hp hr (List.cons_ne_nil b bs) hfirst, Option.isSome_some]
      · rw [FragmentUp.step_read_next hp hr (List.cons_ne_nil b bs) hfirst, Option.isSome_some]
  | writing buf =>
    refine hstep .write ?_
    rw [FragmentChoice.event, FragmentUp.step_write hp, Option.isSome_some]
  | splitting rest =>
    rw [hp] at hstream
    obtain ⟨hrest, hsome, hstream⟩ := hstream
    obtain ⟨s, hsettings⟩ := Option.isSome_iff_exists.mp hsome
    rcases hthrough with hnil | hproper
    · rw [hnil] at hstream
      simp [hrest] at hstream
    · refine hstep (.piece (parseRange s.length 1 10).1 (parseRange s.packets 1 5).1) ?_
      rw [FragmentChoice.event, hsettings, FragmentUp.step_piece hp]
      exact r.up.piece_exists (hproper s hsettings) rest
  | ended => exact (hphase hp).elim

/-! ## Runs -/

/-- Behind the first payload, the loop can be run to its end, and adds what is left to what it has written. -/
theorem exists_rest (settings : Option FragmentSettings) (reader : List (Arrival UInt8)) (written : List UInt8)
    (txCounter : ℕ) (panicked : Bool) : ∃ cs r, Run.exec (fragmentRunStep settings)
      ⟨⟨reader, false, .reading⟩, written, txCounter, panicked⟩ cs = some r ∧ r.up.phase = .ended ∧
        r.written = written ++ content reader := by
  induction hn : Arrivals.size reader using Nat.strong_induction_on generalizing reader written txCounter panicked with
  | _ n ih =>
    rcases hr : recv 8192 reader with ⟨_ | _ | ⟨b, bs⟩, r₁⟩
    · refine ⟨[.read], ⟨⟨r₁, false, .ended⟩, written ++ [], txCounter + 0, panicked || false⟩, ?_, rfl,
        by rw [content_of_recv_nil (by decide) (.inl rfl) hr]⟩
      exact Run.exec_cons_of_step (fragmentRunStep_of_step (FragmentUp.step_read_end rfl (.inl rfl) hr)) []
    · refine ⟨[.read], ⟨⟨r₁, false, .ended⟩, written ++ [], txCounter + 0, panicked || false⟩, ?_, rfl,
        by rw [content_of_recv_nil (by decide) (.inr rfl) hr]⟩
      exact Run.exec_cons_of_step (fragmentRunStep_of_step (FragmentUp.step_read_end rfl (.inr rfl) hr)) []
    · obtain ⟨cs, r, hrun, hended, hwritten⟩ := ih (Arrivals.size r₁) (by rw [← hn]; exact recv_size hr) r₁
        (written ++ [] ++ b :: bs) (txCounter + 0 + (b :: bs).length) (panicked || false || false) rfl
      refine ⟨.read :: .write :: cs, r, ?_, hended, ?_⟩
      · have hread : FragmentUp.step settings ⟨reader, false, .reading⟩ .read =
            some (⟨r₁, false, .writing (b :: bs)⟩, [], 0) :=
          FragmentUp.step_read_next rfl hr (List.cons_ne_nil b bs) (by simp)
        rw [← hrun, Run.exec_cons_of_step (fragmentRunStep_of_step hread),
          Run.exec_cons_of_step (fragmentRunStep_of_step (FragmentUp.step_write rfl))]
        rfl
      · rw [hwritten, recv_content hr, List.append_nil, List.append_assoc]

/-- A first payload that is to be split. -/
theorem exec_read (hs : settings = some s) (hr : recv 8192 reader = (some bs, r₁)) (hbs : bs ≠ []) :
    Run.exec (fragmentRunStep settings) (.start reader) [.read] = some ⟨⟨r₁, false, .splitting bs⟩, [], 0, false⟩ := by
  have hread : (FragmentUp.start reader).step settings .read = some (⟨r₁, false, .splitting bs⟩, [], 0) :=
    FragmentUp.step_read_first rfl hr hbs ⟨rfl, by rw [hs]; rfl⟩
  rw [Run.exec_cons_of_step (fragmentRunStep_of_step hread)]
  rfl

/-- A piece of it. -/
theorem exec_read_piece (hs : settings = some s) (hr : recv 8192 reader = (some bs, r₁)) (hbs : bs ≠ [])
    (hstep : fragmentRunStep settings ⟨⟨r₁, false, .splitting bs⟩, [], 0, false⟩ (.piece size packets) = some r) :
    Run.exec (fragmentRunStep settings) (.start reader) [.read, .piece size packets] = some r := by
  have happend : Run.exec (fragmentRunStep settings) (.start reader) ([.read] ++ [.piece size packets]) = _ :=
    Run.exec_append _ _ _
  rw [exec_read hs hr hbs] at happend
  exact happend.trans ((Run.exec_cons_of_step hstep []).trans rfl)

/-! ## What comes through -/

/-- A draw of the first length panics if there is none. -/
theorem FragmentUp.Transparent.length_le (h : FragmentUp.Transparent (some s) reader)
    (hr : recv 8192 reader = (some bs, r₁)) (hbs : bs ≠ []) :
    (parseRange s.length 1 10).1 ≤ (parseRange s.length 1 10).2 := by
  by_contra hinverted
  rw [not_le] at hinverted
  have hstep : fragmentRunStep (some s) ⟨⟨r₁, false, .splitting bs⟩, [], 0, false⟩ (.piece 0 0) =
      some ⟨⟨r₁, false, .ended⟩, [] ++ [], 0 + 0, true⟩ := by
    have hpiece : FragmentUp.step (some s) ⟨r₁, false, .splitting bs⟩ (.piece 0 0 none) =
        some (⟨r₁, false, .ended⟩, [], 0) := by
      rw [FragmentUp.step_piece rfl]
      exact if_pos hinverted
    rw [fragmentRunStep_of_step hpiece]
    simp [FragmentRun.Panics, hinverted]
  cases h.noPanic _ _ (exec_read_piece rfl hr hbs hstep)

/-- A length of 0 drops the first payload, and what follows is written. -/
theorem FragmentUp.Transparent.one_le (h : FragmentUp.Transparent (some s) reader)
    (hr : recv 8192 reader = (some bs, r₁)) (hbs : bs ≠ []) : 1 ≤ (parseRange s.length 1 10).1 := by
  by_contra hzero
  have hzero : (parseRange s.length 1 10).1 = 0 := by omega
  have hstep : fragmentRunStep (some s) ⟨⟨r₁, false, .splitting bs⟩, [], 0, false⟩ (.piece 0 0) =
      some ⟨⟨r₁, false, .reading⟩, [] ++ [], 0 + 0, false⟩ := by
    have hpiece : FragmentUp.step (some s) ⟨r₁, false, .splitting bs⟩ (.piece 0 0 none) =
        some (⟨r₁, false, .reading⟩, [], 0) := by
      rw [FragmentUp.step_piece rfl]
      simp [FragmentUp.piece, hzero]
    rw [fragmentRunStep_of_step hpiece]
    simp [FragmentRun.Panics, hzero]
  have hdropped := exec_read_piece rfl hr hbs hstep
  obtain ⟨cs, r, hrun, hended, hwritten⟩ := exists_rest (some s) r₁ ([] ++ []) (0 + 0) false
  have hwhole := h.whole ([.read, .piece 0 0] ++ cs) r (by rw [Run.exec_append, hdropped]; exact hrun) hended
  rw [hwritten, recv_content hr] at hwhole
  have hlen := congrArg List.length hwhole
  have hpos := List.length_pos_of_ne_nil hbs
  simp only [List.length_append, List.length_nil] at hlen
  omega

/-- A draw behind the first piece panics if there is none. -/
theorem FragmentUp.Transparent.packets_le (h : FragmentUp.Transparent (some s) reader)
    (hr : recv 8192 reader = (some bs, r₁)) (hbs : bs ≠ []) :
    (parseRange s.packets 1 5).1 ≤ (parseRange s.packets 1 5).2 := by
  by_contra hinverted
  rw [not_le] at hinverted
  have hlength := not_lt.mpr (h.length_le hr hbs)
  have hmin : min (parseRange s.length 1 10).1 bs.length ≠ 0 := by
    have := h.one_le hr hbs
    have := List.length_pos_of_ne_nil hbs
    omega
  have hstep : fragmentRunStep (some s) ⟨⟨r₁, false, .splitting bs⟩, [], 0, false⟩
      (.piece (parseRange s.length 1 10).1 0) =
        some ⟨⟨r₁, false, .ended⟩, [] ++ bs.take (min (parseRange s.length 1 10).1 bs.length),
          0 + min (parseRange s.length 1 10).1 bs.length, true⟩ := by
    have hpiece : FragmentUp.step (some s) ⟨r₁, false, .splitting bs⟩
        (.piece (parseRange s.length 1 10).1 0 none) = some (⟨r₁, false, .ended⟩,
          bs.take (min (parseRange s.length 1 10).1 bs.length), min (parseRange s.length 1 10).1 bs.length) := by
      rw [FragmentUp.step_piece rfl]
      simp only [FragmentUp.piece, if_neg hlength, lt_irrefl, false_or, if_neg hmin, if_pos hinverted]
    rw [fragmentRunStep_of_step hpiece]
    simp [FragmentRun.Panics, hinverted, hmin]
  cases h.noPanic _ _ (exec_read_piece rfl hr hbs hstep)

/-- **Proper ranges let every input through**, and an empty input needs none. -/
theorem transparent_of_through (hthrough : content reader = [] ∨ ∀ s ∈ settings, s.Proper) :
    FragmentUp.Transparent settings reader := by
  have hkept : ∀ cs r, Run.exec (fragmentRunStep settings) (.start reader) cs = some r → r.Kept settings reader :=
    fun cs r h => Run.exec_invariant (fun _ _ _ hI hs => (hI.step hthrough hs).1)
      (FragmentRun.start_kept settings reader) h
  refine ⟨fun cs r h => (hkept cs r h).panicked, ⟨(FragmentRun.start reader).todo, fun cs r h => ?_⟩,
    fun cs r h hphase => (hkept cs r h).goesOn hthrough hphase, fun cs r h hphase => ?_,
    fun cs r h => (hkept cs r h).counted⟩
  · have hle := Run.exec_length_le (I := FragmentRun.Kept settings reader) (μ := FragmentRun.todo)
      (fun _ _ _ hI hs => (hI.step hthrough hs).1) (fun _ _ _ hI hs => (hI.step hthrough hs).2)
      (FragmentRun.start_kept settings reader) h
    omega
  · have hstream := (hkept cs r h).stream
    rwa [hphase] at hstream

end

/-- **An input comes through, whatever is drawn, if and only if it is empty or the ranges are proper.** -/
theorem transparent_iff (settings : Option FragmentSettings) (reader : List (Arrival UInt8)) :
    FragmentUp.Transparent settings reader ↔ content reader = [] ∨ ∀ s ∈ settings, s.Proper := by
  constructor
  · intro h
    by_cases hne : content reader = []
    · exact .inl hne
    refine .inr fun s hs => ?_
    obtain rfl : settings = some s := hs
    obtain ⟨bs, r₁, hr, -, hbs⟩ := recv_of_content 8192 hne
    have hbs := hbs (by decide)
    exact ⟨h.packets_le hr hbs, h.length_le hr hbs, h.one_le hr hbs⟩
  · exact transparent_of_through

/-- Settings with a range of lengths, and the other range as the sample configuration has it. -/
def withLength (length : String) : FragmentSettings := ⟨"1-5", length, 20⟩

/-- **The range 10-1 panics, and the range 0-10 drops the first payload.** -/
theorem inverted_range_panics :
    (∃ r, Run.exec (fragmentRunStep (some (withLength "10-1"))) (.start [.data [22, 3, 1]]) [.read, .piece 5 1] =
      some r ∧ r.panicked = true ∧ r.written = []) ∧
    ∃ r, Run.exec (fragmentRunStep (some (withLength "0-10"))) (.start [.data [22, 3, 1]]) [.read, .piece 0 1, .read] =
      some r ∧ r.up.phase = .ended ∧ r.written = [] := by
  have hinverted : parseRange (withLength "10-1").length 1 10 = (10, 1) := by decide
  have hzero : parseRange (withLength "0-10").length 1 10 = (0, 10) := by decide
  refine ⟨⟨⟨⟨[], false, .ended⟩, [], 0, true⟩, ?_, rfl, rfl⟩, ⟨⟨[], false, .ended⟩, [], 0, false⟩, ?_, rfl, rfl⟩
  · simp [Run.exec, fragmentRunStep, FragmentChoice.event, FragmentRun.start, FragmentUp.start, FragmentUp.step,
      FragmentUp.piece, FragmentRun.Panics, recv, putBack, hinverted]
  · simp [Run.exec, fragmentRunStep, FragmentChoice.event, FragmentRun.start, FragmentUp.start, FragmentUp.step,
      FragmentUp.piece, FragmentRun.Panics, recv, putBack, hzero]

end RXCore
