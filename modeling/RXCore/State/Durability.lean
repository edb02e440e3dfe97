import RXCore.State.Persist
import RXCore.Api
import RXCore.Lib.Run

/-!
# Durability

The engine with the persistence worker, the dirty sweep and the configuration file, under the operations
of the control plane in any order. Every write of the file succeeds.

* `SerdeJson`: the file holds the JSON text of a configuration, and a remaining amount may be read back as
  another number than was written;
* `Daemon`, `DaemonAct`, `daemonStep`;
* `Synced`: the invariant; the newest request, or else the file, is the current configuration unless
  the dirty flag is set;
* `Faithful`: no account takes the UUID of another, the amounts that the worker writes are read back, and
  what it does not write is in the file already;
* **`durable_of_faithful`**: in every quiescent state of a faithful run the file is current;
* **`deleted_account_stays`**: the deletion of the only account is never written;
* **`amount_read_back_short`**: an amount that is read back as the number below it.
-/

set_option autoImplicit false

namespace RXCore

/-! ## The file -/

/-- `serde_json` on configurations, whose only floating-point field is `remaining_gb`. -/
structure SerdeJson (Text : Type) where
  /-- `serde_json::to_string`. -/
  toString : Config → Text
  /-- `serde_json::from_str(..).ok()`. -/
  fromStr : Text → Option Config
  /-- The `f64` that is read back for an amount: the amount as an `f64`, printed and parsed. Without the
  feature `float_roundtrip` the parser may miss the number that was printed. -/
  readBack : ℚ → ℚ

/-- A client as it is read back. -/
def Client.readBack (f : ℚ → ℚ) (c : Client) : Client := { c with remainingGb := c.remainingGb.map f }

/-- What `serde_json` promises. -/
structure SerdeJson.Laws {Text : Type} (J : SerdeJson Text) : Prop where
  /-- A configuration is read back as it was written, up to the amounts. -/
  fromStr_toString : ∀ c, J.fromStr (J.toString c) = some (c.mapClients (Client.readBack J.readBack))

/-- Every amount of the configuration is read back as it is. -/
def SerdeJson.Keeps {Text : Type} (J : SerdeJson Text) (c : Config) : Prop :=
  ∀ x ∈ c.clients, ∀ gb ∈ x.remainingGb, J.readBack gb = gb

theorem Config.mapClients_eq_self {f : Client → Client} {c : Config} (h : ∀ x ∈ c.clients, f x = x) :
    c.mapClients f = c := by
  have hid : InboundConfig.mapClients id = id := by
    funext i
    simp [InboundConfig.mapClients]
  rw [Config.mapClients_congr (g := id) h, Config.mapClients, hid, List.map_id]

theorem Client.readBack_eq_self {f : ℚ → ℚ} {c : Client} (h : ∀ gb ∈ c.remainingGb, f gb = gb) :
    c.readBack f = c := by
  obtain ⟨id, email, limitIp, totalGb, expiryTime, speedLimit, remainingGb⟩ := c
  cases remainingGb with
  | none => rfl
  | some gb => simp [Client.readBack, h gb rfl]

theorem SerdeJson.fromStr_of_keeps {Text : Type} {J : SerdeJson Text} (hJ : J.Laws) {c : Config}
    (h : J.Keeps c) : J.fromStr (J.toString c) = some c := by
  rw [hJ.fromStr_toString]
  exact congrArg some (Config.mapClients_eq_self fun x hx => Client.readBack_eq_self (h x hx))

/-! ## The system -/

/-- A profile that is being created, and the account that is to follow it. -/
structure Pending where
  profile : RealityProfile
  account : Option CreateVpnAccountPayload

inductive WorkerPhase where
  | idle
  /-- The file is about to be written for a request, or not. -/
  | loaded (req : PersistRequest)
  | written (generation : ℕ)

structure Daemon (Text : Type) where
  engine : EngineState
  pending : List Pending
  phase : WorkerPhase
  lastWrittenGen : ℕ
  /-- The content of `config.json`. -/
  file : Text

inductive DaemonAct where
  | createUser (newClient : Client)
  | deleteUser (id : String)
  | addQuota (id : String) (amountGb : ℚ)
  | regenerateSubToken (id : String) (tokenBytes : List UInt8)
  | applyRoutingUpdate (newConfig : Config)
  | createRealityProfile (profile : RealityProfile)
  | createVpnAccount (payload : CreateVpnAccountPayload) (profileId : Uuid) (now : ℤ) (d : VpnDraws)
  /-- A creation goes on, with the operating system's answer for the port. -/
  | resume (i : ℕ) (bind : Except String Unit) (d : VpnDraws)
  | recv
  | write
  | finish
  | sweep

section

variable {Text : Type}

/-- The first part of the creation of a profile. -/
def Daemon.beginProfile (X : Crates) (d : Daemon Text) (p : RealityProfile)
    (account : Option CreateVpnAccountPayload) : Daemon Text :=
  match d.engine.checkRealityProfile X p with
  | .ok p => { d with pending := d.pending ++ [⟨p, account⟩] }
  | .error _ => d

/-- The second part, and the account that follows. -/
def Daemon.resume (X : Crates) (d : Daemon Text) (p : Pending) (bind : Except String Unit)
    (draws : VpnDraws) : Daemon Text :=
  match d.engine.publishRealityProfile X p.profile bind with
  | (engine, .error _) => { d with engine := engine }
  | (engine, .ok _) => match p.account with
    | none => { d with engine := engine }
    | some payload =>
      let target : VpnTarget := ⟨some p.profile.id, p.profile.inboundTag⟩
      { d with engine := (finishVpnAccount X engine payload target draws).1 }

/-- The sweep of the dirty flag, once a minute. -/
def EngineState.sweep (s : EngineState) : EngineState :=
  if s.dirty then { s with dirty := false }.persistConfigToDisk else s

def daemonStep (X : Crates) (J : SerdeJson Text) (d : Daemon Text) : DaemonAct → Option (Daemon Text)
  | .createUser c => some { d with engine := (createUser X d.engine c).1 }
  | .deleteUser id => some { d with engine := (deleteUser X d.engine id).1 }
  | .addQuota id amountGb => some { d with engine := (addQuota d.engine id amountGb).1 }
  | .regenerateSubToken id bs => some { d with engine := (regenerateSubToken X d.engine id bs).1 }
  | .applyRoutingUpdate cfg => some { d with engine := d.engine.applyRoutingUpdate X cfg }
  | .createRealityProfile p => some (d.beginProfile X p none)
  | .createVpnAccount payload id now draws =>
    match startVpnAccount d.engine payload id now with
    | .refuse _ => some d
    | .insert t => some { d with engine := (finishVpnAccount X d.engine payload t draws).1 }
    | .createProfile p => some (d.beginProfile X p (some payload))
  | .resume i bind draws => match d.pending[i]? with
    | none => none
    | some p => some ({ d with pending := d.pending.eraseIdx i }.resume X p bind draws)
  | .recv => match d.phase, d.engine.persistTx with
    | .idle, req :: rest =>
      let req := newest req rest
      let d := { d with engine := { d.engine with persistTx := [] } }
      if req.generation ≤ d.lastWrittenGen then some d else some { d with phase := .loaded req }
    | _, _ => none
  | .write => match d.phase with
    | .loaded req => some { d with
        phase := .written req.generation
        file := if req.changed then J.toString req.merged else d.file }
    | _ => none
  | .finish => match d.phase with
    | .written gen => some { d with phase := .idle, lastWrittenGen := gen }
    | _ => none
  | .sweep => some { d with engine := d.engine.sweep }

/-- Nothing is left to be persisted. -/
def Daemon.Quiescent (d : Daemon Text) : Prop :=
  d.engine.persistTx = [] ∧ (match d.phase with | .idle => True | _ => False) ∧ d.engine.dirty = false

/-- In a quiescent state the file decodes to the configuration with the current counters. -/
def Daemon.Durable (X : Crates) (J : SerdeJson Text) (d : Daemon Text) : Prop :=
  d.Quiescent → J.fromStr d.file = some (d.engine.rendered X)

/-! ## The invariant -/

/-- The generation that the worker is at. -/
def Daemon.floor (d : Daemon Text) : ℕ :=
  match d.phase with
  | .idle => d.lastWrittenGen
  | .loaded req => req.generation
  | .written gen => gen

/-- What the file will be when the worker has caught up: what the newest request asks for, or what is
there. -/
def Daemon.upcoming (J : SerdeJson Text) (d : Daemon Text) : Option Config :=
  match d.engine.persistTx.getLast? with
  | some req => some req.merged
  | none => match d.phase with
    | .loaded req => some req.merged
    | _ => J.fromStr d.file

/-- The invariant. -/
structure Synced (X : Crates) (J : SerdeJson Text) (d : Daemon Text) : Prop where
  coherent : Coherent X d.engine
  distinct : Distinct X d.engine.config.clients
  listens : ∀ p ∈ d.pending, parseIpAddr p.profile.listen ≠ none
  /-- Requests are in the order of their generations. -/
  ordered : (d.floor :: d.engine.persistTx.map (·.generation)).Pairwise (· < ·)
  issued : ∀ g ∈ d.floor :: d.engine.persistTx.map (·.generation), g ≤ d.engine.persistGen
  current : d.engine.dirty = false → d.upcoming J = some (d.engine.rendered X)

variable {X : Crates} {J : SerdeJson Text} {d d' : Daemon Text}

/-- Of requests in order the newest is the last. -/
theorem newest_getLast {req : PersistRequest} {rest : List PersistRequest}
    (h : ((req :: rest).map (·.generation)).Pairwise (· < ·)) :
    (req :: rest).getLast? = some (newest req rest) := by
  induction rest generalizing req with
  | nil => rfl
  | cons next rest ih =>
    obtain ⟨hlt, h⟩ := List.pairwise_cons.mp h
    have hlt : req.generation < next.generation := hlt _ List.mem_cons_self
    have hstep : newest req (next :: rest) = newest next rest := by
      rw [newest, List.foldl_cons, if_pos hlt]
      rfl
    rw [hstep, List.getLast?_cons_cons]
    exact ih h

/-- A request, or a set flag, for the state that is current. -/
theorem Synced.persist (h : Synced X J d) {t : EngineState} (hs : Coherent X t)
    (hd : Distinct X t.config.clients) (htx : t.persistTx = d.engine.persistTx)
    (hgen : t.persistGen = d.engine.persistGen) :
    Synced X J { d with engine := t.persistConfigToDisk } := by
  have hissued : ∀ g ∈ d.floor :: t.persistTx.map (·.generation), g ≤ t.persistGen := by
    rw [htx, hgen]
    exact h.issued
  have hordered : (d.floor :: t.persistTx.map (·.generation)).Pairwise (· < ·) := by
    rw [htx]
    exact h.ordered
  rw [EngineState.persistConfigToDisk]
  split_ifs with hfull
  · have hlast : (t.persistTx ++ [PersistRequest.mk (t.persistGen + 1) t.config t.userSnapshots]).map
        (·.generation) = t.persistTx.map (·.generation) ++ [t.persistGen + 1] := List.map_append
    refine ⟨hs.of_eq rfl rfl rfl fun _ => rfl, hd, h.listens, ?_, ?_, fun _ => ?_⟩
    · change (d.floor :: _).Pairwise _
      dsimp only
      rw [hlast, ← List.cons_append]
      refine List.pairwise_append.mpr ⟨hordered, List.pairwise_singleton _ _, fun g hg g' hg' => ?_⟩
      rw [List.mem_singleton.mp hg']
      exact Nat.lt_succ_of_le (hissued g hg)
    · intro g hg
      dsimp only at hg ⊢
      rw [hlast, ← List.cons_append] at hg
      rcases List.mem_append.mp hg with hg | hg
      · exact Nat.le_succ_of_le (hissued g hg)
      · exact (List.mem_singleton.mp hg).le
    · rw [Daemon.upcoming]
      dsimp only
      rw [List.getLast?_append, List.getLast?_singleton]
      exact congrArg some (persist_merged hs hd _)
  · exact ⟨hs.of_eq rfl rfl rfl fun _ => rfl, hd, h.listens, hordered,
      fun g hg => Nat.le_succ_of_le (hissued g hg), fun hdirty => by cases hdirty⟩

theorem Synced.committed (h : Synced X J d) {s : EngineState} (hc : Committed X d.engine s) :
    Synced X J { d with engine := s } := by
  cases hc with
  | same => exact h
  | persist t hs hd htx hgen => exact h.persist hs hd htx hgen

theorem Synced.beginProfile (h : Synced X J d) (p : RealityProfile)
    (account : Option CreateVpnAccountPayload) : Synced X J (d.beginProfile X p account) := by
  rw [Daemon.beginProfile]
  split
  · next q hq =>
    refine ⟨h.coherent, h.distinct, fun p' hp' => ?_, h.ordered, h.issued, h.current⟩
    rcases List.mem_append.mp hp' with hp' | hp'
    · exact h.listens p' hp'
    · rw [List.mem_singleton.mp hp']
      exact checkRealityProfile_listen hq
  · exact h

theorem Synced.resume (h : Synced X J d) {p : Pending} (hl : parseIpAddr p.profile.listen ≠ none)
    (bind : Except String Unit) {draws : VpnDraws}
    (hc : ∀ payload ∈ p.account, ∀ t : VpnTarget,
      (payload.toClient X t draws).CompatibleWith X d.engine.config.clients) :
    Synced X J (d.resume X p bind draws) := by
  obtain ⟨hpub, hclients⟩ := publishRealityProfile_committed h.coherent h.distinct hl bind
  have h1 := h.committed hpub
  rw [Daemon.resume]
  split
  · next engine e heq =>
    rw [heq] at h1
    exact h1
  · next engine r heq =>
    rw [heq] at h1 hclients
    split
    · exact h1
    · next payload hp =>
      refine h1.committed (finishVpnAccount_committed h1.coherent h1.distinct ?_)
      dsimp only at hclients ⊢
      rw [hclients]
      exact hc payload hp _

theorem Synced.recv (h : Synced X J d) {req : PersistRequest} {rest : List PersistRequest}
    (hphase : d.phase = .idle) (hq : d.engine.persistTx = req :: rest) :
    d.lastWrittenGen < (newest req rest).generation ∧
      Synced X J { d with
        engine := { d.engine with persistTx := [] }
        phase := .loaded (newest req rest) } := by
  have hfloor : d.floor = d.lastWrittenGen := by rw [Daemon.floor, hphase]
  obtain ⟨hfirst, hord⟩ := List.pairwise_cons.mp h.ordered
  rw [hq] at hfirst hord
  have hlast := newest_getLast hord
  have hmem : (newest req rest).generation ∈ (req :: rest).map (·.generation) :=
    List.mem_map_of_mem (List.mem_of_getLast? hlast)
  refine ⟨hfloor ▸ hfirst _ hmem, h.coherent.of_eq rfl rfl rfl fun _ => rfl, h.distinct, h.listens,
    List.pairwise_singleton _ _, fun g hg => ?_, fun hdirty => ?_⟩
  · rw [List.mem_singleton.mp hg]
    exact h.issued _ (List.mem_cons_of_mem _ (hq ▸ hmem))
  · have hcur := h.current hdirty
    rw [Daemon.upcoming, hq, hlast] at hcur
    exact hcur

theorem Synced.write (hJ : J.Laws) (h : Synced X J d) {req : PersistRequest}
    (hphase : d.phase = .loaded req) (hkeeps : req.changed = true → J.Keeps req.merged)
    (hthere : req.changed = false → J.fromStr d.file = some req.merged) :
    Synced X J { d with
      phase := .written req.generation
      file := if req.changed then J.toString req.merged else d.file } := by
  have hfloor : d.floor = req.generation := by rw [Daemon.floor, hphase]
  have hfile : J.fromStr (if req.changed then J.toString req.merged else d.file) = some req.merged := by
    split_ifs with hch
    · exact SerdeJson.fromStr_of_keeps hJ (hkeeps hch)
    · exact hthere (Bool.eq_false_of_not_eq_true hch)
  refine ⟨h.coherent, h.distinct, h.listens, hfloor ▸ h.ordered, hfloor ▸ h.issued, fun hdirty => ?_⟩
  have hcur := h.current hdirty
  rw [Daemon.upcoming] at hcur ⊢
  dsimp only
  rw [hfile]
  cases hq : d.engine.persistTx.getLast? with
  | none =>
    rw [hq, hphase] at hcur
    exact hcur
  | some last =>
    rw [hq] at hcur
    exact hcur

theorem Synced.finish (h : Synced X J d) {gen : ℕ} (hphase : d.phase = .written gen) :
    Synced X J { d with phase := .idle, lastWrittenGen := gen } := by
  have hfloor : d.floor = gen := by rw [Daemon.floor, hphase]
  refine ⟨h.coherent, h.distinct, h.listens, hfloor ▸ h.ordered, hfloor ▸ h.issued, fun hdirty => ?_⟩
  have hcur := h.current hdirty
  rw [Daemon.upcoming, hphase] at hcur
  exact hcur

theorem Synced.sweep (h : Synced X J d) : Synced X J { d with engine := d.engine.sweep } := by
  rw [EngineState.sweep]
  split_ifs
  · refine h.persist ?_ h.distinct rfl rfl
    exact h.coherent.of_eq rfl rfl rfl fun _ => rfl
  · exact h

/-! ## Runs -/

/-- The condition on a step: a new account takes no UUID of another one, the amounts that the worker
writes are read back as they are, and when it has nothing to write, because no saved field of a client
differs from its snapshot, the file is what the request asks for already. -/
def DaemonAct.Faithful (X : Crates) (J : SerdeJson Text) (d : Daemon Text) : DaemonAct → Prop
  | .createUser c => c.CompatibleWith X d.engine.config.clients
  | .createVpnAccount payload _ _ draws =>
    ∀ t, (payload.toClient X t draws).CompatibleWith X d.engine.config.clients
  | .resume i _ draws => ∀ p ∈ d.pending[i]?, ∀ payload ∈ p.account, ∀ t,
    (payload.toClient X t draws).CompatibleWith X d.engine.config.clients
  | .write => ∀ req, d.phase = .loaded req → (req.changed = true → J.Keeps req.merged) ∧
    (req.changed = false → J.fromStr d.file = some req.merged)
  | _ => True

/-- One step keeps the invariant. -/
theorem Synced.step (hJ : J.Laws) (h : Synced X J d) {a : DaemonAct} (hf : a.Faithful X J d)
    (hstep : daemonStep X J d a = some d') : Synced X J d' := by
  have hs := h.coherent
  have hd := h.distinct
  cases a with
  | createUser c =>
    obtain rfl := Option.some.inj hstep
    exact h.committed (createUser_committed hs hd hf)
  | deleteUser id =>
    obtain rfl := Option.some.inj hstep
    exact h.committed (deleteUser_committed hs hd id)
  | addQuota id amountGb =>
    obtain rfl := Option.some.inj hstep
    exact h.committed (addQuota_committed hs hd id amountGb)
  | regenerateSubToken id bs =>
    obtain rfl := Option.some.inj hstep
    exact h.committed (regenerateSubToken_committed hs hd id bs)
  | applyRoutingUpdate cfg =>
    obtain rfl := Option.some.inj hstep
    exact h.committed (applyRoutingUpdate_committed hs hd cfg)
  | createRealityProfile p =>
    obtain rfl := Option.some.inj hstep
    exact h.beginProfile p none
  | createVpnAccount payload id now draws =>
    rw [daemonStep] at hstep
    split at hstep
    · obtain rfl := Option.some.inj hstep
      exact h
    · next t _ =>
      obtain rfl := Option.some.inj hstep
      exact h.committed (finishVpnAccount_committed hs hd (hf t))
    · next p _ =>
      obtain rfl := Option.some.inj hstep
      exact h.beginProfile p (some payload)
  | resume i bind draws =>
    rw [daemonStep] at hstep
    split at hstep
    · cases hstep
    · next p hp =>
      obtain rfl := Option.some.inj hstep
      have herase : Synced X J { d with pending := d.pending.eraseIdx i } :=
        ⟨hs, hd, fun q hq => h.listens q (List.mem_of_mem_eraseIdx hq), h.ordered, h.issued, h.current⟩
      exact herase.resume (h.listens p (List.mem_of_getElem? hp)) bind (hf p hp)
  | recv =>
    rw [daemonStep] at hstep
    split at hstep
    · next req rest hphase hq =>
      obtain ⟨hlt, hsync⟩ := h.recv hphase hq
      dsimp only at hstep
      rw [if_neg (not_le.mpr hlt)] at hstep
      obtain rfl := Option.some.inj hstep
      exact hsync
    · cases hstep
  | write =>
    rw [daemonStep] at hstep
    split at hstep
    · next req hphase =>
      obtain rfl := Option.some.inj hstep
      obtain ⟨hkeeps, hthere⟩ := hf req hphase
      exact h.write hJ hphase hkeeps hthere
    · cases hstep
  | finish =>
    rw [daemonStep] at hstep
    split at hstep
    · next gen hphase =>
      obtain rfl := Option.some.inj hstep
      exact h.finish hphase
    · cases hstep
  | sweep =>
    obtain rfl := Option.some.inj hstep
    exact h.sweep

theorem Synced.durable (h : Synced X J d) : d.Durable X J := by
  rintro ⟨hq, hphase, hdirty⟩
  have hcur := h.current hdirty
  rw [Daemon.upcoming, hq] at hcur
  cases hp : d.phase with
  | idle =>
    rw [hp] at hcur
    exact hcur
  | loaded req =>
    rw [hp] at hphase
    exact hphase.elim
  | written gen =>
    rw [hp] at hphase
    exact hphase.elim

/-- A daemon at rest, with distinct accounts and a file that is current. -/
structure Daemon.AtRest (X : Crates) (J : SerdeJson Text) (d : Daemon Text) : Prop where
  quiescent : d.Quiescent
  coherent : Coherent X d.engine
  distinct : Distinct X d.engine.config.clients
  pending : d.pending = []
  written : d.lastWrittenGen ≤ d.engine.persistGen
  file : J.fromStr d.file = some (d.engine.rendered X)

theorem Daemon.AtRest.synced (h : d.AtRest X J) : Synced X J d := by
  obtain ⟨hq, hphase, -⟩ := h.quiescent
  have hidle : d.phase = .idle := by
    cases hp : d.phase with
    | idle => rfl
    | loaded req =>
      rw [hp] at hphase
      exact hphase.elim
    | written gen =>
      rw [hp] at hphase
      exact hphase.elim
  have hfloor : d.floor = d.lastWrittenGen := by rw [Daemon.floor, hidle]
  refine ⟨h.coherent, h.distinct, fun p hp => ?_, ?_, fun g hg => ?_, fun _ => ?_⟩
  · rw [h.pending] at hp
    exact absurd hp List.not_mem_nil
  · rw [hq]
    exact List.pairwise_singleton _ _
  · rw [hq] at hg
    rw [List.mem_singleton.mp hg, hfloor]
    exact h.written
  · rw [Daemon.upcoming, hq, hidle]
    exact h.file

/-- **Durability**: from a daemon at rest, in any run whose steps are all faithful, the file is current
in every quiescent state. -/
theorem durable_of_faithful (hJ : J.Laws) (h : d.AtRest X J) {as : List DaemonAct}
    (hf : Run.Meets (daemonStep X J) (DaemonAct.Faithful X J) d as) :
    Run.Always (daemonStep X J) (Daemon.Durable X J) d as :=
  Run.always_of_meets (fun _ _ _ hI hC hstep => hI.step hJ hC hstep) (fun _ hI => hI.durable) h.synced hf

end

/-! ## The built-in configuration -/

/-- 99148770270 bytes in gigabytes, a number that is printed as 92.33948799781501. -/
def shortAmount : ℚ := 99148770270 / gigabyte

/-- What 92.33948799781501 is parsed as: 92.339487997815, the `f64` below it. -/
def shortAmountReadBack : ℚ := 6497813808414719 / 70368744177664

/-- `serde_json` on that amount and, as far as these runs use it, on others. A text stands for the
configuration with the numbers that are parsed from it. -/
def Sample.json : SerdeJson Config where
  toString c := c.mapClients (Client.readBack fun gb => if gb = shortAmount then shortAmountReadBack else gb)
  fromStr := some
  readBack gb := if gb = shortAmount then shortAmountReadBack else gb

theorem sample_json_laws : Sample.json.Laws := ⟨fun _ => rfl⟩

/-- What the migration of the built-in configuration draws. -/
def builtInDraws : Draws := ⟨fun n => Vector.replicate 16 (UInt8.ofNat (n + 1)), 0⟩

/-- The engine started on the built-in configuration, with a file that is current. -/
def builtInDaemon : Daemon Config where
  engine := .new Sample.crates builtInDraws builtInConfig
  pending := []
  phase := .idle
  lastWrittenGen := 0
  file := (EngineState.new Sample.crates builtInDraws builtInConfig).rendered Sample.crates

theorem builtInDaemon_atRest : builtInDaemon.AtRest Sample.crates Sample.json := by
  have hone : ∀ c ∈ (builtInConfig.migrateIfNeeded Sample.crates builtInDraws).clients,
      c.id = "ad60c2b2-cc0c-492a-89aa-c92330a10cc9" := by decide
  have hd : Distinct Sample.crates (builtInConfig.migrateIfNeeded Sample.crates builtInDraws).clients :=
    fun c hc d hd _ _ _ => (hone c hc).trans (hone d hd).symm
  exact ⟨⟨rfl, trivial, rfl⟩, new_coherent builtInDraws hd, hd, rfl, le_rfl, rfl⟩

/-- If the worker is about to write, it has something to write, and no amount that is missed. -/
def Daemon.writesKept (d : Daemon Config) : Bool :=
  match d.phase with
  | .loaded req => req.changed && req.merged.clients.all fun x => x.remainingGb != some shortAmount
  | _ => true

theorem faithful_write {X : Crates} {d : Daemon Config} (h : d.writesKept = true) :
    DaemonAct.Faithful X Sample.json d .write := by
  intro req hreq
  rw [Daemon.writesKept, hreq, Bool.and_eq_true, List.all_eq_true] at h
  obtain ⟨hchanged, hkept⟩ := h
  refine ⟨fun _ x hx gb hgb => if_neg fun hshort => ?_, fun hch => absurd (hchanged.symm.trans hch) (by simp)⟩
  exact bne_iff_ne.mp (hkept x hx) (hshort ▸ hgb)

/-- More quota, persisted, is durable. -/
theorem durable_after_add_quota :
    Run.Always (daemonStep Sample.crates Sample.json) (Daemon.Durable Sample.crates Sample.json)
      builtInDaemon
      [.addQuota "ad60c2b2-cc0c-492a-89aa-c92330a10cc9" 1, .recv, .write, .finish] :=
  durable_of_faithful sample_json_laws builtInDaemon_atRest
    ⟨trivial, trivial, faithful_write (by decide +kernel), trivial, trivial⟩

def deleteAndSweep : List DaemonAct :=
  [.deleteUser "ad60c2b2-cc0c-492a-89aa-c92330a10cc9", .recv, .write, .finish, .sweep, .recv, .write,
    .finish]

theorem quiescent_of_parts {Text : Type} {d : Daemon Text} (htx : d.engine.persistTx.length = 0)
    (hphase : (d.phase matches .idle) = true) (hdirty : d.engine.dirty = false) : d.Quiescent := by
  refine ⟨List.length_eq_zero_iff.mp htx, ?_, hdirty⟩
  split at hphase <;> simp_all

/-- **The only account is deleted**, the worker and the sweep run, and the account is still in the
file. -/
theorem deleted_account_stays :
    builtInDaemon.AtRest Sample.crates Sample.json ∧
      ¬ Run.Always (daemonStep Sample.crates Sample.json) (Daemon.Durable Sample.crates Sample.json)
        builtInDaemon deleteAndSweep := by
  refine ⟨builtInDaemon_atRest, fun h => ?_⟩
  have hend : (Run.exec (daemonStep Sample.crates Sample.json) builtInDaemon deleteAndSweep).map (fun d =>
      (d.engine.persistTx.length, d.phase matches .idle, d.engine.dirty, d.file.clients.length,
        (d.engine.rendered Sample.crates).clients.length)) = some (0, true, false, 1, 0) := by
    decide
  obtain ⟨d, hd, heq⟩ := Option.map_eq_some_iff.mp hend
  simp only [Prod.mk.injEq] at heq
  obtain ⟨htx, hphase, hdirty, hfile, hrendered⟩ := heq
  have hdecoded : d.file = d.engine.rendered Sample.crates :=
    Option.some.inj (h.last hd (quiescent_of_parts htx hphase hdirty))
  rw [hdecoded, hrendered] at hfile
  exact absurd hfile (by decide)

def addShortAmount : List DaemonAct :=
  [.addQuota "ad60c2b2-cc0c-492a-89aa-c92330a10cc9" shortAmount, .recv, .write, .finish]

set_option synthInstance.maxSize 256 in
/-- **An account is given 99148770270 bytes**, and the file says that fewer are left. -/
theorem amount_read_back_short :
    ¬ Run.Always (daemonStep Sample.crates Sample.json) (Daemon.Durable Sample.crates Sample.json)
      builtInDaemon addShortAmount := by
  intro h
  have hend : (Run.exec (daemonStep Sample.crates Sample.json) builtInDaemon addShortAmount).map (fun d =>
      (d.engine.persistTx.length, d.phase matches .idle, d.engine.dirty,
        d.file.clients.map (·.remainingGb),
        (d.engine.rendered Sample.crates).clients.map (·.remainingGb))) =
      some (0, true, false, [some shortAmountReadBack], [some shortAmount]) := by
    decide +kernel
  obtain ⟨d, hd, heq⟩ := Option.map_eq_some_iff.mp hend
  simp only [Prod.mk.injEq] at heq
  obtain ⟨htx, hphase, hdirty, hfile, hrendered⟩ := heq
  have hdecoded : d.file = d.engine.rendered Sample.crates :=
    Option.some.inj (h.last hd (quiescent_of_parts htx hphase hdirty))
  rw [hdecoded, hrendered] at hfile
  exact absurd hfile (by decide +kernel)

end RXCore
