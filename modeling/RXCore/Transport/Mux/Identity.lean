import RXCore.Transport.Mux.Registry

/-!
# The identifiers of mux streams on the wire

Identifiers are drawn from a counter of 32 bits and are the keys of the map, but a header has only 30 bits of them.

* `cutId`: an identifier on the wire; `cutId_eq_self`;
* `Registry.Identified`, `identified_step`: present streams differ on the wire and the map leads to them by what is on
  the wire, and when a step keeps that;
* `MuxConnection.Identified`, `FreshId`, **`mux_identity_iff`**: the runs of a connection in which it holds;
* `Drained`, `drained_cycle`: a lease, its open frame, and the drop of the stream;
* **`mux_identity_lost`**: after as many of these as there are identifiers on the wire the next stream is lost.
-/

set_option autoImplicit false

namespace RXCore

open Channel Parties Tables Run

/-! ## On the wire -/

/-- `stream_id & 0x3F_FF_FF_FF`. -/
def cutId (id : UInt32) : UInt32 := id &&& (0x3FFFFFFF : UInt32)

theorem cutId_toNat (id : UInt32) : (cutId id).toNat = id.toNat % 2 ^ 30 := by
  rw [cutId, UInt32.toNat_and]
  exact Nat.and_two_pow_sub_one_eq_mod id.toNat 30

/-- The identifiers that are not cut. -/
theorem cutId_eq_self {id : UInt32} : cutId id = id ↔ id.toNat < 2 ^ 30 := by
  rw [← UInt32.toNat_inj, cutId_toNat]
  omega

/-! ## The registry -/

/-- Present streams have different identifiers on the wire, and the map leads to each of them by its own. -/
def Registry.Identified (r : Registry) : Prop :=
  (∀ (i j : ℕ) (a b : UInt32), r.entries[i]? = some (a, true) → r.entries[j]? = some (b, true) →
      cutId a = cutId b → i = j) ∧
    ∀ (i : ℕ) (a : UInt32), r.entries[i]? = some (a, true) → ∀ k, r.activeStreams.lookup k = some i ↔ k = cutId a

/-- The next identifier fits the wire and is no present stream's. -/
def Registry.Fresh (r : Registry) : Prop :=
  r.nextStreamId.toNat < 2 ^ 30 ∧ ∀ (j : ℕ) (a : UInt32), r.entries[j]? = some (a, true) → cutId a ≠ r.nextStreamId

section registry

variable {r r' : Registry} {i : ℕ}

/-- A stream that is led to by its identifier on the wire has that identifier. -/
theorem cutId_of_identified (hv : r.Valid) (hi : r.Identified) {a : UInt32} (h : r.entries[i]? = some (a, true)) :
    cutId a = a := by
  obtain ⟨b, hb⟩ := hv _ _ ((hi.2 i a h (cutId a)).mpr rfl)
  rw [h] at hb
  exact (Prod.mk.inj (Option.some.inj hb)).1.symm

theorem identified_lease (hv : r.Valid) (hi : r.Identified) (h : r.step .lease = some r') :
    r'.Identified ↔ r.Fresh := by
  obtain rfl := Option.some.inj h
  have hnew : (r.entries ++ [(r.nextStreamId, true)])[r.entries.length]? = some (r.nextStreamId, true) :=
    List.getElem?_concat_length
  constructor
  · rintro ⟨hdistinct, hrouted⟩
    -- the map leads to the new stream by its identifier, which must be what is on the wire
    have hcut : r.nextStreamId = cutId r.nextStreamId :=
      (hrouted _ _ hnew r.nextStreamId).mp (AList.lookup_insert _)
    refine ⟨cutId_eq_self.mp hcut.symm, fun j a hj hja => ?_⟩
    have hjn := hdistinct j _ a _ (getElem?_append_of_some _ hj) hnew (hja.trans hcut)
    exact absurd (lt_of_getElem? hj) (by rw [hjn]; exact lt_irrefl _)
  · rintro ⟨hlt, hfresh⟩
    have hcut := cutId_eq_self.mpr hlt
    refine ⟨fun j k a b hj hk hab => ?_, fun j a hj k => ?_⟩
    · rcases getElem?_append_cases hj with hj | ⟨rfl, hja⟩ <;> rcases getElem?_append_cases hk with hk | ⟨rfl, hkb⟩
      · exact hi.1 j k a b hj hk hab
      · obtain ⟨rfl, -⟩ := Prod.mk.inj hkb
        exact absurd (hab.trans hcut) (hfresh j a hj)
      · obtain ⟨rfl, -⟩ := Prod.mk.inj hja
        exact absurd (hab.symm.trans hcut) (hfresh k b hk)
      · rfl
    · rcases getElem?_append_cases hj with hj | ⟨rfl, hja⟩
      · by_cases hk : k = r.nextStreamId
        · subst hk
          rw [AList.lookup_insert]
          exact ⟨fun he => absurd (lt_of_getElem? hj) (by rw [Option.some.inj he]; exact lt_irrefl _),
            fun he => absurd he.symm (hfresh j a hj)⟩
        · rw [AList.lookup_insert_ne hk]
          exact hi.2 j a hj k
      · obtain ⟨rfl, -⟩ := Prod.mk.inj hja
        rw [hcut]
        constructor
        · intro hk
          rcases lookup_insert_cases hk with ⟨rfl, -⟩ | ⟨-, hk⟩
          · rfl
          · -- the old map leads to old streams only
            obtain ⟨b, hb⟩ := hv k _ hk
            exact absurd (lt_of_getElem? hb) (lt_irrefl _)
        · rintro rfl
          exact AList.lookup_insert _

theorem identified_abandon (hi : r.Identified) (h : r.step (.abandon i) = some r') : r'.Identified := by
  obtain ⟨id, hid, rfl⟩ := abandon_some h
  refine ⟨fun j k a b hj hk hab => ?_, fun j a hj k => ?_⟩
  · exact hi.1 j k a b (entries_set_gone.mp hj).2 (entries_set_gone.mp hk).2 hab
  · exact hi.2 j a (entries_set_gone.mp hj).2 k

theorem identified_drop (hv : r.Valid) (hi : r.Identified) (h : r.step (.drop i) = some r') : r'.Identified := by
  obtain ⟨id, hid, rfl⟩ := drop_some h
  refine ⟨fun j k a b hj hk hab => ?_, fun j a hj k => ?_⟩
  · exact hi.1 j k a b (entries_set_gone.mp hj).2 (entries_set_gone.mp hk).2 hab
  · obtain ⟨hne, hja⟩ := entries_set_gone.mp hj
    by_cases hk : k = id
    · -- the key that is erased is not the one of another stream
      subst hk
      rw [AList.lookup_erase]
      refine ⟨fun he => (by cases he), fun he => absurd (hi.1 j i a k hja hid ?_) hne⟩
      rw [← he, cutId_of_identified hv hi hid]
    · rw [AList.lookup_erase_ne hk]
      exact hi.2 j a hja k

/-- **Only a lease can break the identifiers**, and exactly if the next one is not fresh. -/
theorem identified_step {e : RegistryEvent} (hv : r.Valid) (hi : r.Identified) (h : r.step e = some r') :
    r'.Identified ↔ (e = .lease → r.Fresh) := by
  cases e with
  | lease => rw [identified_lease hv hi h]; simp
  | abandon i => simpa using identified_abandon hi h
  | drop i => simpa using identified_drop hv hi h
  | other =>
    obtain rfl := Option.some.inj h
    simpa using hi

end registry

/-! ## The connection -/

/-- Two present streams have different identifiers on the wire, and a present stream is the one that an incoming frame
is delivered to exactly if the frame has the identifier of the stream's own frames. -/
def MuxConnection.Identified (s : MuxConnection) : Prop :=
  (∀ (i j : ℕ) (st st' : MuxVirtualStream), s.streams[i]? = some st → s.streams[j]? = some st' →
      st.present → st'.present → st.wireId = st'.wireId → i = j) ∧
    ∀ (i : ℕ) (st : MuxVirtualStream), s.streams[i]? = some st → st.present → ∀ f : InFrame,
      s.activeStreams.lookup f.streamId = some i ↔ f.streamId = st.wireId

/-- A lease takes an identifier below 2^30 that is not on the wire of a present stream. -/
def FreshId (s : MuxConnection) : MuxEvent → Prop
  | .lease .. => s.nextStreamId.toNat < 2 ^ 30 ∧
      ∀ (i : ℕ) (st : MuxVirtualStream), s.streams[i]? = some st → st.present → st.wireId ≠ s.nextStreamId
  | _ => True

section connection

variable {s s' : MuxConnection} {e : MuxEvent}

theorem entries_some {i : ℕ} {a : UInt32} :
    s.registry.entries[i]? = some (a, true) ↔ ∃ st, s.streams[i]? = some st ∧ st.streamId = a ∧ st.present := by
  rw [entries_getElem?, Option.map_eq_some_iff]
  simp only [MuxVirtualStream.entry, Prod.mk.injEq]

theorem identified_iff : s.Identified ↔ s.registry.Identified := by
  constructor
  · rintro ⟨hdistinct, hrouted⟩
    refine ⟨fun i j a b hi hj hab => ?_, fun i a hi k => ?_⟩
    · obtain ⟨st, hst, rfl, hp⟩ := entries_some.mp hi
      obtain ⟨st', hst', rfl, hp'⟩ := entries_some.mp hj
      exact hdistinct i j st st' hst hst' hp hp' hab
    · obtain ⟨st, hst, rfl, hp⟩ := entries_some.mp hi
      exact hrouted i st hst hp ⟨k, 0, []⟩
  · rintro ⟨hdistinct, hrouted⟩
    refine ⟨fun i j st st' hst hst' hp hp' h => ?_, fun i st hst hp f => ?_⟩
    · exact hdistinct i j _ _ (entries_some.mpr ⟨st, hst, rfl, hp⟩) (entries_some.mpr ⟨st', hst', rfl, hp'⟩) h
    · exact hrouted i _ (entries_some.mpr ⟨st, hst, rfl, hp⟩) f.streamId

theorem freshId_iff : FreshId s e ↔ (e.registry = .lease → s.registry.Fresh) := by
  cases e with
  | lease targetHost targetPort isUdp =>
    simp only [FreshId, MuxEvent.registry, Registry.Fresh, forall_const]
    refine and_congr_right fun _ => ⟨fun h j a hj => ?_, fun h i st hst hp => ?_⟩
    · obtain ⟨st, hst, rfl, hp⟩ := entries_some.mp hj
      exact h j st hst hp
    · exact h i _ (entries_some.mpr ⟨st, hst, rfl, hp⟩)
  | _ => simp [FreshId, MuxEvent.registry]

/-- **Mux stream identity**: the runs in which present streams always differ on the wire and get the frames with their
identifiers are those in which every lease takes a fresh one. -/
theorem mux_identity_iff (es : List MuxEvent) :
    Always MuxConnection.step MuxConnection.Identified .start es ↔ Meets MuxConnection.step FreshId .start es := by
  have hstart : MuxConnection.start.Identified :=
    ⟨fun i j st st' h => (by cases h), fun i st h => (by cases h)⟩
  refine always_iff_meets (I := fun s => s.registry.Valid) (fun s e s' hv _ _ h => valid_step hv (registry_step h))
    (fun s e s' hv hi h => ?_) valid_start hstart es
  rw [identified_iff] at hi ⊢
  rw [freshId_iff]
  exact identified_step hv hi (registry_step h)

end connection

/-! ## A run through all identifiers -/

/-- The writer has nothing to take from the queue of datagrams, and the next identifier is `n`. -/
structure Drained (n : ℕ) (s : MuxConnection) : Prop where
  nextStreamId : s.nextStreamId.toNat = n
  pooled : s.pooled = true
  writerEnd : s.writerEnd = none
  consecutiveHigh : s.consecutiveHigh = 0
  high : s.txHigh.queue = []

section cycle

variable {n i : ℕ} {s : MuxConnection} {st : MuxVirtualStream}

theorem drained_lease (h : Drained n s) (hn : n + 1 < 2 ^ 32) (targetHost : String) (targetPort : UInt16) :
    ∃ s' target, s.step (.lease targetHost targetPort false) = some s' ∧ Drained (n + 1) s' ∧ s'.txLow = s.txLow ∧
      s'.streams[s.streams.length]? = some (.new s.nextStreamId false target) := by
  refine ⟨s.lease targetHost targetPort false, _, if_pos h.pooled, ?_, rfl, List.getElem?_concat_length⟩
  constructor
  · have : (s.nextStreamId + 1).toNat = n + 1 := by
      rw [UInt32.toNat_add, h.nextStreamId]
      exact Nat.mod_eq_of_lt hn
    exact this
  · exact h.pooled
  · exact h.writerEnd
  · exact h.consecutiveHigh
  · exact h.high

/-- The open frame finds a place. -/
theorem drained_opened (h : Drained n s) (hlow : s.txLow.Idle) {target : String} (hst : s.streams[i]? = some st)
    (hphase : st.phase = .opening target) (hudp : st.isUdp = false) :
    ∃ s', s.step (.opened i) = some s' ∧ Drained n s' ∧ s'.txLow.Single ∧
      s'.streams[i]? = some { st with phase := .live } := by
  refine ⟨s.opened i st target, ?_, ?_⟩
  · simp only [MuxConnection.step, h.writerEnd]
    exact MuxConnection.onOpening_eq hst hphase
  · have htx : s.tx st.isUdp = s.txLow := by rw [hudp]; rfl
    have hsent : (s.txLow.pollSend i (i, st.openFrame target)).2 = true := by
      rw [Chan.pollSend_sent]
      exact decide_eq_true (hlow.ready i)
    have hopened : s.opened i st target = ({ s with txLow := (s.txLow.pollSend i (i, st.openFrame target)).1 } :
        MuxConnection).setStream i { st with phase := .live } := by
      rw [MuxConnection.opened, htx, hsent, hudp]
      rfl
    rw [hopened]
    exact ⟨⟨h.nextStreamId, h.pooled, h.writerEnd, h.consecutiveHigh, h.high⟩, hlow.pollSend .., getElem?_set_self hst _⟩

/-- So does the close frame of a drop. -/
theorem drained_drop (h : Drained n s) (hlow : s.txLow.Idle) (hst : s.streams[i]? = some st) (hlive : st.phase = .live)
    (hudp : st.isUdp = false) :
    ∃ s', s.step (.dropStream i) = some s' ∧ Drained n s' ∧ s'.txLow.Single := by
  refine ⟨s.dropStream i st, MuxConnection.onLive_eq hst hlive, ?_⟩
  have htx : s.tx st.isUdp = s.txLow := by rw [hudp]; rfl
  have hsend : s.trySend i st st.closeFrame = { s with txLow := s.txLow.trySend (i, st.closeFrame) } := by
    rw [MuxConnection.trySend, if_neg (by rw [h.writerEnd]; decide), htx, hudp]
    rfl
  simp only [MuxConnection.dropStream, hsend, hudp]
  exact ⟨⟨h.nextStreamId, h.pooled, h.writerEnd, h.consecutiveHigh, h.high⟩, hlow.trySend_leave ..⟩

/-- The writer takes the only frame that is there. -/
theorem drained_write (h : Drained n s) (hlow : s.txLow.Single) :
    ∃ s', s.step .write = some s' ∧ Drained n s' ∧ s'.txLow.Idle ∧ s'.streams = s.streams := by
  obtain ⟨m, c, hrecv, hidle⟩ := hlow.recv
  have hfirst : s.first = true := by rw [MuxConnection.first, h.consecutiveHigh]; rfl
  have hhigh : s.recv true = .pending := by
    have hnone : (s.tx true).recv = none := Chan.recv_eq_none.mpr h.high
    rw [MuxConnection.recv, hnone, MuxConnection.closed, h.pooled]
    rfl
  have hlow' : s.recv false = .ready (some (m, c)) := by
    have hsome : (s.tx false).recv = some (m, c) := hrecv
    rw [MuxConnection.recv, hsome]
  have hselect : s.select = (false, .ready (some (m, c))) := by
    simp only [MuxConnection.select, hfirst, hhigh, Bool.not_true, hlow']
  refine ⟨s.taken false m c, ?_, ⟨h.nextStreamId, h.pooled, h.writerEnd, rfl, h.high⟩, hidle, rfl⟩
  simp only [MuxConnection.step, h.writerEnd, hselect]
  rfl

/-- **A stream comes and goes**: its lease, its open frame, its drop, and the turns of the writer between them. -/
theorem drained_cycle (h : Drained n s) (hlow : s.txLow.Idle) (hn : n + 1 < 2 ^ 32) :
    ∃ es s', exec MuxConnection.step s es = some s' ∧ Drained (n + 1) s' ∧ s'.txLow.Idle := by
  obtain ⟨s₁, target, h₁, hq₁, hlow₁, hst₁⟩ := drained_lease h hn "a" 80
  obtain ⟨s₂, h₂, hq₂, hlow₂, hst₂⟩ := drained_opened hq₁ (by rwa [hlow₁]) hst₁ rfl rfl
  obtain ⟨s₃, h₃, hq₃, hlow₃, hst₃⟩ := drained_write hq₂ hlow₂
  obtain ⟨s₄, h₄, hq₄, hlow₄⟩ := drained_drop hq₃ hlow₃ (by rw [hst₃]; exact hst₂) rfl rfl
  obtain ⟨s₅, h₅, hq₅, hlow₅, -⟩ := drained_write hq₄ hlow₄
  refine ⟨[.lease "a" 80 false, .opened s.streams.length, .write, .dropStream s.streams.length, .write], s₅, ?_, hq₅,
    hlow₅⟩
  rw [exec_cons_of_step h₁, exec_cons_of_step h₂, exec_cons_of_step h₃, exec_cons_of_step h₄, exec_cons_of_step h₅,
    exec_nil]

theorem drained_start : Drained 1 .start ∧ MuxConnection.start.txLow.Idle :=
  ⟨⟨rfl, rfl, rfl, rfl, rfl⟩, ⟨rfl, rfl, rfl, by decide⟩⟩

/-- The counter reaches every identifier. -/
theorem reaches (n : ℕ) (hn : n + 1 < 2 ^ 32) :
    ∃ es s, exec MuxConnection.step .start es = some s ∧ Drained (n + 1) s ∧ s.txLow.Idle := by
  induction n with
  | zero => exact ⟨[], .start, rfl, drained_start⟩
  | succ n ih =>
    obtain ⟨es, s, hes, hq, hlow⟩ := ih (by omega)
    obtain ⟨es', s', hes', hq', hlow'⟩ := drained_cycle hq hlow (by omega)
    exact ⟨es ++ es', s', by rw [exec_append, hes]; exact hes', hq', hlow'⟩

end cycle

/-- **The identity of streams is lost**: after 2^30 - 1 streams the identifier of the next one is 2^30, its frames carry
0, and the frames that arrive for 0 are delivered to nobody. -/
theorem mux_identity_lost : ¬ ∀ es : List MuxEvent, Always MuxConnection.step MuxConnection.Identified .start es := by
  intro hall
  obtain ⟨es, s, hes, hq, -⟩ := reaches (2 ^ 30 - 1) (by norm_num)
  obtain ⟨s', target, hs', -, -, hst⟩ := drained_lease hq (by norm_num) "a" 80
  have hrun : exec MuxConnection.step .start (es ++ [.lease "a" 80 false]) = some s' := by
    rw [exec_append, hes]
    exact exec_cons_of_step hs' []
  have hid : s.nextStreamId = 2 ^ 30 := UInt32.toNat_inj.mp hq.nextStreamId
  have hend := (hall _).last hrun
  -- the stream is in the map, under an identifier that is not the one of its frames
  have hlookup : s'.activeStreams.lookup s.nextStreamId = some s.streams.length := by
    obtain rfl := Option.some.inj (hs'.symm.trans (if_pos hq.pooled))
    exact AList.lookup_insert _
  have hwire : s.nextStreamId = cutId s.nextStreamId := (hend.2 _ _ hst rfl ⟨s.nextStreamId, 0, []⟩).mp hlookup
  rw [hid] at hwire
  exact absurd hwire (by decide)

end RXCore
