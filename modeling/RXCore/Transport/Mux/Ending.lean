import RXCore.Transport.Mux.Delivery
import RXCore.Transport.Mux.Identity

/-!
# The streams of a mux connection whose reader has ended

The senders of the streams' data are in a map that the reader shares with the pool and with every stream, so they
outlive the reader.

* `Accepts`, `WritesForEver`: a stream whose writes are reported as accepted again and again;
* `MuxConnection.NotWaiting`: after the end of the reader no stream is left waiting;
* `Ended`, `EndsClean`, `ended_step`, **`mux_ending`**: the runs in which that holds;
* `left_waiting`, **`reader_end_leaves_waiting`**, **`writes_go_on`**: what happens to a stream otherwise.
-/

set_option autoImplicit false

namespace RXCore

open Channel Parties Tables Run

/-- The event is a write of stream `i` that is reported as accepted. -/
def MuxConnection.Accepts (s : MuxConnection) (i : ℕ) (e : MuxEvent) : Prop :=
  ∃ st buf n, s.streams[i]? = some st ∧ st.phase = .live ∧ e = .pollWrite i buf ∧
    (s.pollWrite i st buf).2 = .ready (.ok n)

/-- From here on writes of stream `i` may be accepted for ever. -/
def MuxConnection.WritesForEver (s : MuxConnection) (i : ℕ) : Prop :=
  ∃ (es : ℕ → MuxEvent) (ss : ℕ → MuxConnection), ss 0 = s ∧ (∀ n, (ss n).step (es n) = some (ss (n + 1))) ∧
    ∀ n, ∃ m, n ≤ m ∧ (ss m).Accepts i (es m)

/-- After the end of the reader, a stream that has read what was queued for it is not told to wait, and no stream can
write for ever. -/
def MuxConnection.NotWaiting (s : MuxConnection) : Prop :=
  s.readerEnd.isSome = true → ∀ (i : ℕ) (st : MuxVirtualStream), s.streams[i]? = some st → st.phase = .live →
    (st.currentReadChunk = none → st.rxData.queue = [] → ∀ n, (s.pollRead i st n).2 ≠ .pending) ∧ ¬ s.WritesForEver i

/-- After the end of the reader, live streams are not in the map, and the writer has ended too. -/
def Ended (s : MuxConnection) : Prop :=
  s.readerEnd.isSome = true → ∀ (i : ℕ) (st : MuxVirtualStream), s.streams[i]? = some st → st.phase = .live →
    s.senderAlive i st = false ∧ s.writerEnd.isSome = true

/-- When the reader ends, live streams are not in the map, and there are none unless the writer has ended; and after it no
open frame finds a place. -/
def EndsClean (s : MuxConnection) : MuxEvent → Prop
  | .readEnd _ => ∀ (i : ℕ) (st : MuxVirtualStream), s.streams[i]? = some st → st.phase = .live →
      s.senderAlive i st = false ∧ s.writerEnd.isSome = true
  | .opened i => s.readerEnd.isSome = true → ∀ st, s.streams[i]? = some st → ¬ (s.tx st.isUdp).Ready i
  | _ => True

section ending

variable {s s' : MuxConnection} {e : MuxEvent} {i : ℕ} {st st' : MuxVirtualStream}

/-- The writer does not start again. -/
theorem writerEnd_step (hw : s.writerEnd.isSome = true) (h : s.step e = some s') : s'.writerEnd.isSome = true := by
  by_cases hstream : e.ofStream
  · have hrest := MuxConnection.rest_of_ofStream h hstream
    simp only [MuxConnection.rest, Prod.mk.injEq] at hrest
    rw [hrest.2.2.2.1]
    exact hw
  · cases e with
    | read bs =>
      obtain ⟨-, -, rfl⟩ := read_some h
      exact hw
    | dispatch capacity =>
      obtain ⟨-, f, rest, -, rfl⟩ := dispatch_some h
      obtain ⟨streams, hstreams⟩ := dispatch_eq s f
      rw [hstreams]
      exact hw
    | readEnd failed =>
      obtain ⟨-, e, rfl⟩ := readEnd_some h
      exact hw
    | write =>
      obtain ⟨hnone, -⟩ := write_some h
      rw [hnone] at hw
      cases hw
    | writeFail =>
      obtain ⟨hnone, -⟩ := writeFail_some h
      rw [hnone] at hw
      cases hw
    | release =>
      obtain rfl := release_some h
      exact hw
    | _ => exact absurd rfl hstream

/-- Without a writer no write is accepted. -/
theorem not_writesForEver (hw : s.writerEnd.isSome = true) : ¬ s.WritesForEver i := by
  rintro ⟨es, ss, h0, hstep, hall⟩
  have hended : ∀ n, (ss n).writerEnd.isSome = true := by
    intro n
    induction n with
    | zero => rw [h0]; exact hw
    | succ n ih => exact writerEnd_step ih (hstep n)
  obtain ⟨m, -, st, buf, k, -, -, -, hok⟩ := hall 0
  rw [MuxConnection.pollWrite, if_pos (hended m)] at hok
  cases hok

/-- A stream that has read what was queued for it waits exactly if its sender is in the map. -/
theorem left_waiting (hcur : st.currentReadChunk = none) (hq : st.rxData.queue = []) (n : ℕ) :
    (s.pollRead i st n).2 = .pending ↔ s.senderAlive i st = true := by
  have hpoll : (s.pollRead i st n).2 = if s.senderAlive i st then .pending else .ready [] := by
    rw [MuxConnection.pollRead, pollRead_of_empty hcur hq]
  rw [hpoll]
  split_ifs with h
  · exact iff_of_true rfl h
  · exact iff_of_false (fun h => by cases h) h

theorem notWaiting_of_ended (h : Ended s) : s.NotWaiting := by
  intro hr i st hst hlive
  obtain ⟨hgone, hw⟩ := h hr i st hst hlive
  refine ⟨fun hcur hq n hpending => ?_, not_writesForEver hw⟩
  rw [left_waiting hcur hq, hgone] at hpending
  cases hpending

/-- One stream is set, and the map leads to no more streams than before. -/
theorem ended_set (hs : Ended s) (hst : s.streams[i]? = some st) (hset : s'.streams = s.streams.set i st')
    (hlive : s.readerEnd.isSome = true → st'.phase = .live → st.phase = .live ∧ st'.streamId = st.streamId)
    (hr : s'.readerEnd = s.readerEnd) (hw : s'.writerEnd = s.writerEnd)
    (hmap : ∀ k j, s'.activeStreams.lookup k = some j → s.activeStreams.lookup k = some j) : Ended s' := by
  intro hended j u hu hulive
  rw [hr] at hended
  have hold : ∃ v, s.streams[j]? = some v ∧ v.phase = .live ∧ u.streamId = v.streamId := by
    rw [hset] at hu
    rcases getElem?_set_cases hu with ⟨rfl, rfl⟩ | ⟨-, hu⟩
    · obtain ⟨h1, h2⟩ := hlive hended hulive
      exact ⟨st, hst, h1, h2⟩
    · exact ⟨u, hu, hulive, rfl⟩
  obtain ⟨v, hv, hvlive, hid⟩ := hold
  obtain ⟨hgone, hwriter⟩ := hs hended j v hv hvlive
  rw [hw]
  refine ⟨?_, hwriter⟩
  rw [MuxConnection.senderAlive, beq_eq_false_iff_ne] at hgone ⊢
  rw [hid]
  exact fun h => hgone (hmap _ _ h)

/-- Only a lease puts a sender into the map. -/
theorem lookup_of_step (h : s.step e = some s') (he : e.registry ≠ .lease) (k : UInt32) (j : ℕ)
    (hk : s'.activeStreams.lookup k = some j) : s.activeStreams.lookup k = some j := by
  have hreg := registry_step h
  cases hre : e.registry with
  | lease => exact absurd hre he
  | abandon i =>
    rw [hre] at hreg
    obtain ⟨id, -, heq⟩ := abandon_some hreg
    have hmap : s'.activeStreams = s.activeStreams := congrArg Registry.activeStreams heq
    rwa [hmap] at hk
  | drop i =>
    rw [hre] at hreg
    obtain ⟨id, -, heq⟩ := drop_some hreg
    have hmap : s'.activeStreams = s.activeStreams.erase id := congrArg Registry.activeStreams heq
    rw [hmap] at hk
    exact (lookup_erase_cases hk).2
  | other =>
    rw [hre] at hreg
    have hmap : s.activeStreams = s'.activeStreams := congrArg Registry.activeStreams (Option.some.inj hreg)
    rwa [← hmap] at hk

/-- **The steps that keep streams from waiting.** -/
theorem ended_step (hs : Ended s) (hclean : EndsClean s e) (h : s.step e = some s') : Ended s' := by
  -- what a step of a stream leaves alone
  have hrest : e.ofStream = true → s'.readerEnd = s.readerEnd ∧ s'.writerEnd = s.writerEnd := fun he => by
    have hrest := MuxConnection.rest_of_ofStream h he
    simp only [MuxConnection.rest, Prod.mk.injEq] at hrest
    exact ⟨hrest.2.2.2.2.2, hrest.2.2.2.1⟩
  cases e with
  | lease targetHost targetPort isUdp =>
    obtain ⟨-, rfl⟩ := lease_some h
    intro hr j u hu hlive
    rcases getElem?_append_cases hu with hu | ⟨-, rfl⟩
    · obtain ⟨hgone, hw⟩ := hs hr j u hu hlive
      refine ⟨?_, hw⟩
      rw [MuxConnection.senderAlive, beq_eq_false_iff_ne] at hgone ⊢
      intro hk
      rcases lookup_insert_cases hk with ⟨-, rfl⟩ | ⟨-, hk⟩
      · exact absurd (lt_of_getElem? hu) (lt_irrefl _)
      · exact hgone hk
    · -- a stream that has just been leased is not live
      cases hlive
  | opened i =>
    have hmap := lookup_of_step h (by simp [MuxEvent.registry])
    obtain ⟨hr, hw⟩ := hrest rfl
    obtain ⟨-, st, target, hst, hphase, rfl⟩ := opened_some h
    refine ended_set hs hst (MuxConnection.opened_streams target) (fun hend hlive => ?_) hr hw hmap
    simp only [if_neg (hclean hend st hst), hphase] at hlive
    cases hlive
  | abandon i =>
    have hmap := lookup_of_step h (by simp [MuxEvent.registry])
    obtain ⟨hr, hw⟩ := hrest rfl
    obtain ⟨st, target, hst, -, rfl⟩ := MuxConnection.onOpening_some h
    exact ended_set hs hst MuxConnection.abandon_streams (fun _ hlive => by cases hlive) hr hw hmap
  | pollRead i n =>
    have hmap := lookup_of_step h (by simp [MuxEvent.registry])
    obtain ⟨hr, hw⟩ := hrest rfl
    obtain ⟨st, hst, hlive, rfl⟩ := MuxConnection.onLive_some h
    exact ended_set hs hst (MuxConnection.pollRead_streams n)
      (fun _ _ => ⟨hlive, congrArg Prod.fst (pollRead_entry st _ n)⟩) hr hw hmap
  | pollWrite i buf =>
    have hmap := lookup_of_step h (by simp [MuxEvent.registry])
    obtain ⟨hr, hw⟩ := hrest rfl
    obtain ⟨st, hst, hlive, rfl⟩ := MuxConnection.onLive_some h
    exact ended_set hs hst (MuxConnection.pollWrite_streams hst buf) (fun _ _ => ⟨hlive, rfl⟩) hr hw hmap
  | pollShutdown i =>
    have hmap := lookup_of_step h (by simp [MuxEvent.registry])
    obtain ⟨hr, hw⟩ := hrest rfl
    obtain ⟨st, hst, hlive, rfl⟩ := MuxConnection.onLive_some h
    exact ended_set hs hst MuxConnection.pollShutdown_streams (fun _ _ => ⟨hlive, rfl⟩) hr hw hmap
  | dropStream i =>
    have hmap := lookup_of_step h (by simp [MuxEvent.registry])
    obtain ⟨hr, hw⟩ := hrest rfl
    obtain ⟨st, hst, -, rfl⟩ := MuxConnection.onLive_some h
    exact ended_set hs hst MuxConnection.dropStream_streams (fun _ hlive => by cases hlive) hr hw hmap
  | read bs =>
    obtain ⟨hnone, -, rfl⟩ := read_some h
    exact hs
  | dispatch capacity =>
    obtain ⟨hnone, f, rest, -, rfl⟩ := dispatch_some h
    obtain ⟨streams, hstreams⟩ := dispatch_eq s f
    intro hr
    rw [hstreams] at hr
    simp only [hnone] at hr
    cases hr
  | readEnd failed =>
    obtain ⟨-, e, rfl⟩ := readEnd_some h
    exact fun _ => hclean
  | write =>
    obtain ⟨hnone, ⟨isUdp, m, c, -, rfl⟩ | ⟨-, rfl⟩⟩ := write_some h
    · -- while the writer runs there is no live stream
      intro hr i st hst hlive
      rw [MuxConnection.taken_readerEnd] at hr
      rw [MuxConnection.taken_streams] at hst
      have hw := (hs hr i st hst hlive).2
      rw [hnone] at hw
      cases hw
    · exact fun hr i st hst hlive => ⟨(hs hr i st hst hlive).1, rfl⟩
  | writeFail =>
    obtain ⟨hnone, rfl⟩ := writeFail_some h
    exact fun hr i st hst hlive => ⟨(hs hr i st hst hlive).1, rfl⟩
  | release =>
    obtain rfl := release_some h
    exact hs

/-- **After the end of the reader**: in every run whose steps all meet `EndsClean`, no stream is left waiting in any
state. -/
theorem mux_ending (es : List MuxEvent) (h : Meets MuxConnection.step EndsClean .start es) :
    Always MuxConnection.step MuxConnection.NotWaiting .start es := by
  have hstart : Ended .start := fun _ i st hst => by cases hst
  exact always_of_meets (I := Ended) (fun s e s' hs hc h => ended_step hs hc h) (fun s hs => notWaiting_of_ended hs)
    hstart h

/-- A stream is opened and dropped before the reader ends. -/
theorem mux_ending_dropped : Always MuxConnection.step MuxConnection.NotWaiting .start
    [.lease "a" 80 false, .opened 0, .dropStream 0, .readEnd false] := by
  refine mux_ending _ ((meets_cons rfl).mpr ⟨trivial, (meets_cons rfl).mpr ⟨fun h => (by cases h),
    (meets_cons rfl).mpr ⟨trivial, (meets_cons rfl).mpr ⟨fun i st hst hlive => ?_, trivial⟩⟩⟩⟩)
  cases i with
  | zero =>
    obtain rfl := Option.some.inj hst
    cases hlive
  | succ i => cases hst

/-- **The end of the reader leaves a stream waiting**: its sender is in the map that the stream itself holds. -/
theorem reader_end_leaves_waiting :
    ¬ ∀ es : List MuxEvent, Always MuxConnection.step MuxConnection.NotWaiting .start es := by
  intro hall
  have hrun : (exec MuxConnection.step .start [.lease "a" 80 false, .opened 0, .readEnd false]).map (fun s =>
      (s.readerEnd.isSome, s.streams.map fun st => (decide (st.phase = .live), st.currentReadChunk.isNone,
        st.rxData.queue.isEmpty, s.senderAlive 0 st))) = some (true, [(true, true, true, true)]) := by
    decide
  obtain ⟨s, hs, hfacts⟩ := Option.map_eq_some_iff.mp hrun
  obtain ⟨hr, hstreams⟩ := Prod.mk.inj hfacts
  obtain ⟨st, hst, hstream⟩ := List.map_eq_singleton_iff.mp hstreams
  simp only [Prod.mk.injEq, decide_eq_true_eq, Option.isNone_iff_eq_none, List.isEmpty_iff] at hstream
  obtain ⟨hlive, hcur, hq, halive⟩ := hstream
  exact ((hall _).last hs hr 0 st (by rw [hst]; rfl) hlive).1 hcur hq 1 ((left_waiting hcur hq 1).mpr halive)

/-- In a drained connection a write is accepted. -/
theorem drained_pollWrite {n : ℕ} (h : Drained n s) (hlow : s.txLow.Idle) (hst : s.streams[i]? = some st)
    (hlive : st.phase = .live) (hudp : st.isUdp = false) (buf : List UInt8) :
    s.Accepts i (.pollWrite i buf) ∧ ∃ s' st', s.step (.pollWrite i buf) = some s' ∧ Drained n s' ∧ s'.txLow.Single ∧
      s'.streams[i]? = some st' ∧ st'.phase = .live ∧ st'.isUdp = false := by
  have htx : s.tx st.isUdp = s.txLow := by rw [hudp]; rfl
  have hsent : (s.txLow.pollSend i (i, st.dataFrame buf)).2 = true := by
    rw [Chan.pollSend_sent]
    exact decide_eq_true (hlow.ready i)
  have hpoll : s.pollWrite i st buf = (({ s with txLow := (s.txLow.pollSend i (i, st.dataFrame buf)).1 } :
      MuxConnection).setStream i { st with history := st.history.onWrite buf (.ready (.ok buf.length)) },
        .ready (.ok buf.length)) := by
    rw [MuxConnection.pollWrite, if_neg (by rw [h.writerEnd]; decide), htx]
    simp only [hsent, if_true]
    rw [hudp]
    rfl
  refine ⟨⟨st, buf, buf.length, hst, hlive, rfl, by rw [hpoll]⟩, (s.pollWrite i st buf).1,
    { st with history := st.history.onWrite buf (.ready (.ok buf.length)) }, MuxConnection.onLive_eq hst hlive, ?_⟩
  rw [hpoll]
  exact ⟨⟨h.nextStreamId, h.pooled, h.writerEnd, h.consecutiveHigh, h.high⟩, hlow.pollSend .., getElem?_set_self hst _,
    hlive, hudp⟩

/-- **Writes go on for ever** on a drained connection, whether its reader has ended or not. -/
theorem writes_go_on {n : ℕ} (h : Drained n s) (hlow : s.txLow.Idle) (hst : s.streams[i]? = some st)
    (hlive : st.phase = .live) (hudp : st.isUdp = false) : s.WritesForEver i := by
  let J : MuxConnection → Prop := fun s => Drained n s ∧ s.txLow.Idle ∧
    ∃ st, s.streams[i]? = some st ∧ st.phase = .live ∧ st.isUdp = false
  have hcycle : ∀ s, J s → ∃ t u, s.step (.pollWrite i [0]) = some t ∧ t.step .write = some u ∧ J u := by
    rintro s ⟨hq, hlow, st, hst, hlive, hudp⟩
    obtain ⟨-, t, st', ht, hqt, hsingle, hst', hlive', hudp'⟩ := drained_pollWrite hq hlow hst hlive hudp [0]
    obtain ⟨u, hu, hqu, hidle, hstreams⟩ := drained_write hqt hsingle
    exact ⟨t, u, ht, hu, hqu, hidle, st', by rw [hstreams]; exact hst', hlive', hudp'⟩
  obtain ⟨es, ss, h0, hsteps, hJ⟩ := exists_forever hcycle ⟨h, hlow, st, hst, hlive, hudp⟩
  refine ⟨es, ss, h0, hsteps, fun k => ⟨2 * k, by omega, ?_⟩⟩
  obtain ⟨he, hq, hlow, st, hst, hlive, hudp⟩ := hJ k
  rw [he]
  exact (drained_pollWrite hq hlow hst hlive hudp [0]).1

end ending

end RXCore
