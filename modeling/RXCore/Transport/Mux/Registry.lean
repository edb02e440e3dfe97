import RXCore.Transport.Mux

/-!
# The identifiers of a mux connection

What a connection keeps of its streams, without what they carry: the counter of the identifiers, the number of streams,
the map, and for each stream its identifier and whether it is present.

* `Registry`, `Registry.step`: a lease, an abandoned lease, a drop;
* **`registry_step`**: a step of a connection is one of its registry;
* `Registry.Valid`, `valid_step`, `valid_start`: the map leads to streams with the identifiers that it has for them.
-/

set_option autoImplicit false

namespace RXCore

open Channel Parties Tables

structure Registry where
  nextStreamId : UInt32
  streamCount : UInt32
  activeStreams : AList fun _ : UInt32 => ℕ
  entries : List (UInt32 × Bool)

inductive RegistryEvent where
  | lease
  | abandon (i : ℕ)
  | drop (i : ℕ)
  | other

/-- One step; an abandoned lease leaves the number and the map as they are. -/
def Registry.step (r : Registry) : RegistryEvent → Option Registry
  | .lease => some
      { nextStreamId := r.nextStreamId + 1
        streamCount := r.streamCount + 1
        activeStreams := r.activeStreams.insert r.nextStreamId r.entries.length
        entries := r.entries ++ [(r.nextStreamId, true)] }
  | .abandon i => match r.entries[i]? with
    | some (id, true) => some { r with entries := r.entries.set i (id, false) }
    | _ => none
  | .drop i => match r.entries[i]? with
    | some (id, true) => some
        { r with
          streamCount := r.streamCount - 1
          activeStreams := r.activeStreams.erase id
          entries := r.entries.set i (id, false) }
    | _ => none
  | .other => some r

/-- The identifier of a stream, and whether it is present. -/
def MuxVirtualStream.entry (st : MuxVirtualStream) : UInt32 × Bool := (st.streamId, st.present)

def MuxConnection.registry (s : MuxConnection) : Registry :=
  ⟨s.nextStreamId, s.streamCount, s.activeStreams, s.streams.map MuxVirtualStream.entry⟩

def MuxEvent.registry : MuxEvent → RegistryEvent
  | .lease .. => .lease
  | .abandon i => .abandon i
  | .dropStream i => .drop i
  | _ => .other

/-! ## The connection -/

section connection

variable {s s' : MuxConnection} {i : ℕ} {st st' : MuxVirtualStream} {e : MuxEvent}

theorem entries_getElem? : s.registry.entries[i]? = s.streams[i]?.map MuxVirtualStream.entry := List.getElem?_map ..

theorem entries_of_stream (h : s.streams[i]? = some st) : s.registry.entries[i]? = some st.entry := by
  rw [entries_getElem?, h]
  rfl

/-- A step that keeps the entry of its stream. -/
theorem setStream_registry {s₁ : MuxConnection} (hreg : s₁.registry = s.registry) (hstreams : s₁.streams = s.streams)
    (h : s.streams[i]? = some st) (hentry : st'.entry = st.entry) : (s₁.setStream i st').registry = s.registry := by
  rw [← hstreams] at h
  have hset : (s₁.streams.set i st').map MuxVirtualStream.entry = s₁.streams.map MuxVirtualStream.entry := by
    rw [List.map_set, hentry]
    exact set_of_getElem? (entries_of_stream h)
  rw [← hreg]
  simp only [MuxConnection.registry, MuxConnection.setStream, hset]

@[simp] theorem setTx_registry (isUdp : Bool) (c : Chan ℕ (ℕ × MuxFrame)) :
    (s.setTx isUdp c).registry = s.registry := by
  simp [MuxConnection.registry]

@[simp] theorem trySend_registry (frame : MuxFrame) : (s.trySend i st frame).registry = s.registry := by
  unfold MuxConnection.trySend
  split_ifs
  · rfl
  · exact setTx_registry ..

theorem pollRead_entry (st : MuxVirtualStream) (alive : Bool) (n : ℕ) : (st.pollRead alive n).1.entry = st.entry := by
  unfold MuxVirtualStream.pollRead
  split
  · rfl
  · split
    · split_ifs <;> rfl
    · rfl

theorem dispatch_registry (f : InFrame) : (s.dispatch f).registry = s.registry := by
  have hentries : (s.dispatch f).streams.map MuxVirtualStream.entry = s.streams.map MuxVirtualStream.entry := by
    refine List.ext_getElem? fun j => ?_
    obtain ⟨g, hg, hsame⟩ := dispatch_same (s := s) (f := f) j
    rw [List.getElem?_map, List.getElem?_map, hg, Option.map_map]
    refine congrArg (Option.map · _) (funext fun st => ?_)
    obtain ⟨hid, -, hphase, -⟩ := hsame st
    simp only [Function.comp_apply, MuxVirtualStream.entry, MuxVirtualStream.present, hid, hphase]
  obtain ⟨streams, hstreams⟩ := dispatch_eq s f
  rw [MuxConnection.registry, hentries, hstreams]
  rfl

/-- **A step of a connection is a step of its registry.** -/
theorem registry_step (h : s.step e = some s') : s.registry.step e.registry = some s'.registry := by
  cases e with
  | lease targetHost targetPort isUdp =>
    obtain ⟨-, rfl⟩ := lease_some h
    simp [MuxEvent.registry, Registry.step, MuxConnection.lease, MuxConnection.registry, MuxVirtualStream.entry,
      MuxVirtualStream.new, MuxVirtualStream.present]
  | opened i =>
    obtain ⟨-, st, target, hst, hphase, rfl⟩ := opened_some h
    refine congrArg some (Eq.symm ?_)
    refine setStream_registry (setTx_registry ..) MuxConnection.setTx_streams hst ?_
    -- a stream that is opened was present before
    simp only [MuxVirtualStream.entry, MuxVirtualStream.present, hphase]
    split_ifs <;> rfl
  | abandon i =>
    obtain ⟨st, target, hst, hphase, rfl⟩ := MuxConnection.onOpening_some h
    have hentry : st.entry = (st.streamId, true) := by simp [MuxVirtualStream.entry, MuxVirtualStream.present, hphase]
    simp only [MuxEvent.registry, Registry.step, entries_of_stream hst, hentry]
    simp [MuxConnection.abandon, MuxConnection.registry, MuxConnection.setStream, List.map_set, MuxVirtualStream.entry,
      MuxVirtualStream.present]
  | pollRead i n =>
    obtain ⟨st, hst, -, rfl⟩ := MuxConnection.onLive_some h
    exact congrArg some (Eq.symm (setStream_registry rfl rfl hst (pollRead_entry st _ n)))
  | pollWrite i buf =>
    obtain ⟨st, hst, -, rfl⟩ := MuxConnection.onLive_some h
    refine congrArg some (Eq.symm ?_)
    rw [MuxConnection.pollWrite]
    split_ifs
    · rfl
    · exact setStream_registry (setTx_registry ..) MuxConnection.setTx_streams hst rfl
  | pollShutdown i =>
    obtain ⟨st, hst, -, rfl⟩ := MuxConnection.onLive_some h
    exact congrArg some (Eq.symm (setStream_registry (trySend_registry _) (MuxConnection.trySend_streams _) hst rfl))
  | dropStream i =>
    obtain ⟨st, hst, hlive, rfl⟩ := MuxConnection.onLive_some h
    have hentry : st.entry = (st.streamId, true) := by simp [MuxVirtualStream.entry, MuxVirtualStream.present, hlive]
    have hreg : (s.trySend i st st.closeFrame).registry = s.registry := trySend_registry _
    simp only [MuxEvent.registry, Registry.step, entries_of_stream hst, hentry]
    simp only [MuxConnection.registry, Registry.mk.injEq] at hreg
    obtain ⟨h1, h2, h3, h4⟩ := hreg
    simp [MuxConnection.dropStream, MuxConnection.registry, MuxConnection.setStream, List.map_set,
      MuxVirtualStream.entry, MuxVirtualStream.present, h1, h2, h3]
  | read bs =>
    obtain ⟨-, -, rfl⟩ := read_some h
    rfl
  | dispatch capacity =>
    obtain ⟨-, f, rest, -, rfl⟩ := dispatch_some h
    exact congrArg some (dispatch_registry f).symm
  | readEnd failed =>
    obtain ⟨-, e, rfl⟩ := readEnd_some h
    rfl
  | write =>
    obtain ⟨-, ⟨isUdp, m, c, -, rfl⟩ | ⟨-, rfl⟩⟩ := write_some h
    · exact congrArg some (setTx_registry (s := s) ..).symm
    · rfl
  | writeFail =>
    obtain ⟨-, rfl⟩ := writeFail_some h
    rfl
  | release =>
    obtain rfl := release_some h
    rfl

end connection

/-! ## The map -/

/-- The map leads to streams with the identifiers that it has for them. -/
def Registry.Valid (r : Registry) : Prop := ∀ k j, r.activeStreams.lookup k = some j → ∃ b, r.entries[j]? = some (k, b)

section valid

variable {r r' : Registry} {e : RegistryEvent} {i : ℕ}

theorem abandon_some (h : r.step (.abandon i) = some r') :
    ∃ id, r.entries[i]? = some (id, true) ∧ r' = { r with entries := r.entries.set i (id, false) } := by
  simp only [Registry.step] at h
  split at h
  · next id hid => exact ⟨id, hid, (Option.some.inj h).symm⟩
  · cases h

theorem drop_some (h : r.step (.drop i) = some r') :
    ∃ id, r.entries[i]? = some (id, true) ∧
      r' = ⟨r.nextStreamId, r.streamCount - 1, r.activeStreams.erase id, r.entries.set i (id, false)⟩ := by
  simp only [Registry.step] at h
  split at h
  · next id hid => exact ⟨id, hid, (Option.some.inj h).symm⟩
  · cases h

/-- An entry after a stream has gone was there before, and those of other streams are the same. -/
theorem entries_set_gone {l : List (UInt32 × Bool)} {id k : UInt32} {j : ℕ} :
    (l.set i (id, false))[j]? = some (k, true) ↔ j ≠ i ∧ l[j]? = some (k, true) := by
  constructor
  · intro hj
    rcases getElem?_set_cases hj with ⟨-, hk⟩ | hj
    · cases hk
    · exact hj
  · rintro ⟨hne, hj⟩
    rw [List.getElem?_set_ne (Ne.symm hne)]
    exact hj

theorem valid_set_gone {id : UInt32} {b : Bool} (hid : r.entries[i]? = some (id, b)) (hr : r.Valid) (k : UInt32) (j : ℕ)
    (h : r.activeStreams.lookup k = some j) : ∃ b', (r.entries.set i (id, false))[j]? = some (k, b') := by
  obtain ⟨b', hj⟩ := hr k j h
  by_cases hji : j = i
  · subst hji
    obtain ⟨rfl, rfl⟩ := Prod.mk.inj (Option.some.inj (hid.symm.trans hj))
    exact ⟨false, getElem?_set_self hid _⟩
  · rw [List.getElem?_set_ne (Ne.symm hji)]
    exact ⟨b', hj⟩

theorem valid_step (hr : r.Valid) (h : r.step e = some r') : r'.Valid := by
  cases e with
  | lease =>
    obtain rfl := Option.some.inj h
    intro k j hk
    rcases lookup_insert_cases hk with ⟨rfl, rfl⟩ | ⟨-, hk⟩
    · exact ⟨true, List.getElem?_concat_length⟩
    · obtain ⟨b, hj⟩ := hr k j hk
      exact ⟨b, getElem?_append_of_some _ hj⟩
  | abandon i =>
    obtain ⟨id, hid, rfl⟩ := abandon_some h
    exact fun k j hk => valid_set_gone hid hr k j hk
  | drop i =>
    obtain ⟨id, hid, rfl⟩ := drop_some h
    exact fun k j hk => valid_set_gone hid hr k j (lookup_erase_cases hk).2
  | other =>
    obtain rfl := Option.some.inj h
    exact hr

theorem valid_start : MuxConnection.start.registry.Valid := by
  intro k j h
  cases h

end valid

end RXCore
