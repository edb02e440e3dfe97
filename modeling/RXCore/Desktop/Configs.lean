import RXCore.Desktop.Commands

/-!
# The configurations of the desktop client

The list of configurations, the active identifier and the file that holds both, over any sequence of commands. A
failure to save is ignored by the client: the file may not be created, and keeps what it had, or its writing may be
cut off.

* `AppState.execute`: a command as a whole; **`exec_alone`**: it is what the command does when no other one runs;
* `DesktopState`, `DesktopState.step`: a command and the end of its save;
* `AppState.Valid`, `DesktopState.Consistent`: the active identifier, the identifiers, the file;
* `Command.Keeps`, `Command.Idle`: what a command may change in a valid state, and when it changes nothing;
* **`configs_consistent_iff`**: the sequences of commands that keep everything consistent;
* **`select_unknown`**: an identifier of no configuration is selected.
-/

set_option autoImplicit false

namespace RXCore

open Locks Parties Command

/-! ## A command alone -/

/-- A command from the first of its locks to the end of its work. -/
def AppState.execute (s : AppState) (written : Bool) (c : Command) : AppState :=
  ((c.locks s.connected).foldl (fun s l => s.onTake c l) s).work written c

/-- The state with other commands running. -/
def AppState.withRunning (s : AppState) (running : List Running) : AppState := { s with running := running }

section

variable {s : AppState} {c : Command} {t : ℕ}

theorem onTake_withRunning (s : AppState) (running : List Running) (c : Command) (l : Lock) :
    (s.withRunning running).onTake c l = (s.onTake c l).withRunning running := by
  unfold AppState.onTake
  split <;> rfl

theorem work_withRunning (s : AppState) (running : List Running) (written : Bool) (c : Command) :
    (s.withRunning running).work written c = (s.work written c).withRunning running := by
  cases c with
  | importConfigLink drawn link =>
    simp only [AppState.work]
    split
    · cases written <;> rfl
    · rfl
  | toggleProxy | getLatency | getConfigs | getActiveConfigId => rfl
  | selectConfig | deleteConfig | addConfig | updateConfig => cases written <;> rfl

/-- The other commands that run do not matter for the taking of locks. -/
theorem foldl_onTake_withRunning (ls : List Lock) (s : AppState) (running : List Running) (c : Command) :
    ls.foldl (fun s l => s.onTake c l) (s.withRunning running) =
      (ls.foldl (fun s l => s.onTake c l) s).withRunning running := by
  induction ls generalizing s with
  | nil => rfl
  | cons l ls ih => rw [List.foldl_cons, onTake_withRunning, ih, List.foldl_cons]

/-- A command that runs takes all its locks, when nobody else holds any. -/
theorem exec_take (todo : List Lock) {held : List Lock} (ht : s.running[t]? = some ⟨c, ⟨todo, held⟩, false, none⟩)
    (hnodup : todo.Nodup) (hheld : ∀ l ∈ todo, l ∉ held)
    (hothers : ∀ i r, i ≠ t → s.running[i]? = some r → r.party.held = []) :
    Run.exec AppState.step s (List.replicate todo.length (.take t)) =
      some ((todo.foldl (fun s l => s.onTake c l) s).withRunning
        (s.running.set t ⟨c, ⟨[], todo.reverse ++ held⟩, false, none⟩)) := by
  induction todo generalizing s held with
  | nil =>
    have hset : s.running.set t ⟨c, ⟨[], held⟩, false, none⟩ = s.running := set_of_getElem? ht
    simp only [List.length_nil, List.replicate_zero, Run.exec_nil, List.foldl_nil, List.reverse_nil, List.nil_append,
      hset]
    rfl
  | cons l ls ih =>
    have hfree : Free s.parties l := by
      intro p hp
      obtain ⟨r, hr, rfl⟩ := List.mem_map.mp hp
      obtain ⟨i, hi⟩ := List.mem_iff_getElem?.mp hr
      by_cases hit : i = t
      · subst hit
        rw [ht] at hi
        obtain rfl := Option.some.inj hi
        exact hheld l List.mem_cons_self
      · rw [hothers i r hit hi]
        exact List.not_mem_nil
    have hstep : s.step (.take t) =
        some ((s.onTake c l).withRunning (s.running.set t ⟨c, ⟨ls, l :: held⟩, false, none⟩)) := by
      simp only [AppState.step, ht, if_pos hfree]
      rw [AppState.update, onTake_running]
      rfl
    rw [List.length_cons, List.replicate_succ, Run.exec_cons_of_step hstep, ih (getElem?_set_self ht _) hnodup.of_cons]
    · rw [foldl_onTake_withRunning, List.foldl_cons]
      simp [AppState.withRunning]
    · intro m hm hmem
      rcases List.mem_cons.mp hmem with rfl | hmem
      · exact (List.nodup_cons.mp hnodup).1 hm
      · exact hheld m (List.mem_cons_of_mem _ hm) hmem
    · intro i r hit hi
      exact hothers i r hit ((List.getElem?_set_ne (Ne.symm hit)).symm.trans hi)

/-- A command whose work is done gives its locks back. -/
theorem exec_release (held : List Lock) {found : Option ProxyConfig}
    (ht : s.running[t]? = some ⟨c, ⟨[], held⟩, true, found⟩) :
    Run.exec AppState.step s (List.replicate held.length (.release t)) =
      some (s.withRunning (s.running.set t ⟨c, ⟨[], []⟩, true, found⟩)) := by
  induction held generalizing s with
  | nil =>
    rw [List.length_nil, List.replicate_zero, Run.exec_nil, set_of_getElem? ht]
    rfl
  | cons l ls ih =>
    have hstep : s.step (.release t) = some (s.withRunning (s.running.set t ⟨c, ⟨[], ls⟩, true, found⟩)) := by
      simp only [AppState.step, ht]
      rfl
    rw [List.length_cons, List.replicate_succ, Run.exec_cons_of_step hstep, ih (getElem?_set_self ht _)]
    simp [AppState.withRunning]

theorem locks_nodup (connected : Bool) (c : Command) : (c.locks connected).Nodup := by
  have hboth : [Lock.configs, Lock.activeConfigId].Nodup := by decide
  cases c with
  | toggleProxy connect => cases connect <;> cases connected <;> decide
  | importConfigLink drawn link =>
    rw [Command.locks]
    split_ifs
    · exact hboth
    · exact List.nodup_nil
  | selectConfig id => exact List.nodup_reverse.mpr hboth
  | getConfigs | getActiveConfigId => exact List.nodup_singleton _
  | getLatency | deleteConfig | addConfig | updateConfig => exact hboth

/-- **A command that runs while no lock is held**: its steps, one after the other, are `execute`, and no lock is held
after them. -/
theorem exec_alone (hfree : ∀ r ∈ s.running, r.party.held = []) (c : Command) (written : Bool) :
    ∃ es found, Run.exec AppState.step s es =
      some ((s.execute written c).withRunning (s.running ++ [⟨c, ⟨[], []⟩, true, found⟩])) := by
  have hlast : ∀ (s : AppState) (rs : List Running) (r : Running),
      (s.withRunning (rs ++ [r])).running[rs.length]? = some r := fun _ _ _ => List.getElem?_concat_length
  have hset : ∀ (rs : List Running) (r r' : Running), (rs ++ [r]).set rs.length r' = rs ++ [r'] := by
    intro rs r r'
    rw [List.set_append_right _ _ le_rfl, Nat.sub_self, List.set_cons_zero]
  set locks := c.locks s.connected with hlocks
  set taken := locks.foldl (fun s l => s.onTake c l) s with htaken
  -- it begins, takes its locks, does its work and gives them back
  have htake := exec_take (s := s.withRunning (s.running ++ [⟨c, .fresh locks, false, none⟩])) locks
    (hlast s s.running _) (locks_nodup _ c) (fun _ _ => List.not_mem_nil) (by
      intro i r hi hr
      rcases getElem?_append_cases hr with hr | ⟨rfl, -⟩
      · exact hfree r (List.mem_of_getElem? hr)
      · exact absurd rfl hi)
  rw [foldl_onTake_withRunning, ← htaken] at htake
  have hwork : (taken.withRunning (s.running ++ [⟨c, ⟨[], locks.reverse ++ []⟩, false, none⟩])).step
      (.work s.running.length written) = some ((taken.work written c).withRunning
        (s.running ++ [⟨c, ⟨[], locks.reverse ++ []⟩, true, taken.active⟩])) := by
    simp only [AppState.step, hlast]
    rw [if_pos ⟨trivial, trivial⟩, work_withRunning, AppState.update]
    simp only [AppState.withRunning, hset]
    rfl
  have hrelease := exec_release (s := (taken.work written c).withRunning
    (s.running ++ [⟨c, ⟨[], locks.reverse ++ []⟩, true, taken.active⟩])) (locks.reverse ++ [])
    (hlast _ s.running _)
  refine ⟨.invoke c :: (List.replicate locks.length (.take s.running.length) ++
    .work s.running.length written :: List.replicate (locks.reverse ++ []).length (.release s.running.length)),
    taken.active, ?_⟩
  rw [Run.exec_cons_of_step (t := s.withRunning (s.running ++ [⟨c, .fresh locks, false, none⟩])) rfl, Run.exec_append,
    htake, Option.bind_some]
  simp only [AppState.withRunning, hset] at hwork hrelease ⊢
  rw [Run.exec_cons_of_step hwork, hrelease]
  rfl

end

/-! ## What is to hold -/

/-- The active identifier is empty only without configurations, and otherwise that of one of them; no two of them
have the same. -/
structure AppState.Valid (s : AppState) : Prop where
  empty : s.activeConfigId = "" → s.configs = []
  active : s.activeConfigId ≠ "" → ∃ c ∈ s.configs, c.id = s.activeConfigId
  distinct : (s.configs.map (·.id)).Nodup

/-- A new identifier can be given to a configuration: no other one has it, and it is not empty if it becomes the
active one. -/
def AppState.Admits (s : AppState) (drawn : String) : Prop :=
  (∀ c ∈ s.configs, c.id ≠ drawn) ∧ (s.activeConfigId = "" → drawn ≠ "")

/-- What a command may change in a valid state. -/
def Command.Keeps (s : AppState) : Command → Prop
  | selectConfig id => (id = "" → s.configs = []) ∧ (id ≠ "" → ∃ c ∈ s.configs, c.id = id)
  | deleteConfig id => s.activeConfigId = id → ∀ c ∈ (s.configs.filter fun c => c.id != id).head?, c.id ≠ ""
  | addConfig drawn .. => s.Admits drawn
  | importConfigLink drawn link => (parseVlessLink drawn link).isSome → s.Admits drawn
  | _ => True

/-- The command saves the configurations when it ends. -/
def Command.saves : Command → Bool
  | selectConfig _ | deleteConfig _ | addConfig .. | updateConfig .. => true
  | importConfigLink drawn link => (parseVlessLink drawn link).isSome
  | toggleProxy _ | getLatency | getConfigs | getActiveConfigId => false

/-- The command changes neither the configurations nor the active identifier of a valid state. -/
def Command.Idle (s : AppState) : Command → Prop
  | selectConfig id => s.activeConfigId = id
  | deleteConfig id => ∀ c ∈ s.configs, c.id ≠ id
  | updateConfig id name server port uuid sni allowInsecure =>
    ∀ c ∈ s.configs, c.id = id → c = ⟨id, name, server, port, uuid, sni, some allowInsecure⟩
  | addConfig .. => False
  | importConfigLink drawn link => (parseVlessLink drawn link).isSome → False
  | _ => True

/-! ## The effect of a command -/

/-- What a command makes of the configurations and of the active identifier. -/
def AppState.changed (s : AppState) : Command → AppState
  | selectConfig id => { s with activeConfigId := id }
  | deleteConfig id => { s with
      configs := s.configs.filter fun c => c.id != id
      activeConfigId := if s.activeConfigId = id then
        (((s.configs.filter fun c => c.id != id).head?).map (·.id)).getD "" else s.activeConfigId }
  | addConfig drawn name server port uuid sni allowInsecure =>
    s.push ⟨drawn, name, server, port, uuid, sni, some allowInsecure⟩
  | updateConfig id name server port uuid sni allowInsecure => { s with
      configs := match s.configs.findIdx? fun c => c.id == id with
        | some i => s.configs.modify i fun c => ⟨c.id, name, server, port, uuid, sni, some allowInsecure⟩
        | none => s.configs }
  | importConfigLink drawn link => match parseVlessLink drawn link with
    | some config => s.push config
    | none => s
  | _ => s

section

variable {s : AppState} {c : Command}

/-- **A command changes the state and saves it.** -/
theorem execute_eq (s : AppState) (written : Bool) (c : Command) :
    s.execute written c = if c.saves then (s.changed c).save written else s.changed c := by
  have hlocks : (∀ id, c ≠ selectConfig id) → ∀ ls : List Lock, ls.foldl (fun s l => s.onTake c l) s = s := by
    intro hc ls
    have htake : ∀ l, s.onTake c l = s := by
      intro l
      unfold AppState.onTake
      split
      · next id => exact absurd rfl (hc id)
      · rfl
    induction ls with
    | nil => rfl
    | cons l ls ih => rw [List.foldl_cons, htake, ih]
  cases c with
  | selectConfig id => rfl
  | importConfigLink drawn link =>
    rw [AppState.execute, hlocks (by simp)]
    cases hlink : parseVlessLink drawn link <;> simp [AppState.work, AppState.changed, Command.saves, hlink]
  | _ =>
    rw [AppState.execute, hlocks (by simp)]
    rfl

theorem parseVlessLink_id {drawn link : String} {config : ProxyConfig} (h : parseVlessLink drawn link = some config) :
    config.id = drawn := by
  unfold parseVlessLink at h
  split at h
  · cases h
  · dsimp only at h
    split at h
    · split at h
      · split at h
        · cases h
        · obtain rfl := Option.some.inj h
          rfl
      · cases h
    · cases h

/-- A configuration that is added. -/
theorem push_valid_iff (hs : s.Valid) (config : ProxyConfig) : (s.push config).Valid ↔ s.Admits config.id := by
  have hdistinct : ((s.push config).configs.map (·.id)).Nodup ↔ ∀ c ∈ s.configs, c.id ≠ config.id := by
    simp only [AppState.push, List.map_append, List.map_cons, List.map_nil, List.nodup_append, hs.distinct,
      List.nodup_singleton, true_and, List.mem_map, List.mem_singleton, forall_eq]
    refine ⟨fun h c hc => h c.id ⟨c, hc, rfl⟩, ?_⟩
    rintro h id ⟨c, hc, rfl⟩
    exact h c hc
  constructor
  · intro h
    refine ⟨hdistinct.mp h.distinct, fun hempty hid => ?_⟩
    have hnil := h.empty (by simp only [AppState.push, if_pos hempty, hid])
    simp [AppState.push] at hnil
  · rintro ⟨hnew, hne⟩
    refine ⟨fun hempty => ?_, fun hactive => ?_, hdistinct.mpr hnew⟩
    · simp only [AppState.push] at hempty
      split_ifs at hempty with h
      · exact absurd hempty (hne h)
      · exact absurd hempty h
    · simp only [AppState.push] at hactive ⊢
      split_ifs at hactive ⊢ with h
      · exact ⟨config, List.mem_append_right _ (List.mem_singleton_self _), rfl⟩
      · obtain ⟨c, hc, hid⟩ := hs.active h
        exact ⟨c, List.mem_append_left _ hc, hid⟩

/-- A configuration that is changed keeps its identifier. -/
theorem changed_update_ids (s : AppState) (id name server : String) (port : UInt16) (uuid sni : String)
    (allowInsecure : Bool) :
    (s.changed (updateConfig id name server port uuid sni allowInsecure)).configs.map (·.id) =
      s.configs.map (·.id) := by
  simp only [AppState.changed]
  split
  · next i _ =>
    refine List.ext_getElem? fun j => ?_
    rw [List.getElem?_map, List.getElem?_map, List.getElem?_modify]
    cases s.configs[j]? with
    | none => rfl
    | some c => simp only [Option.map_some, Functor.map]; split_ifs <;> rfl
  · rfl

/-- **What a command may change**: exactly then the state stays valid. -/
theorem changed_valid_iff (hs : s.Valid) (c : Command) : (s.changed c).Valid ↔ c.Keeps s := by
  cases c with
  | selectConfig id => exact ⟨fun h => ⟨h.empty, h.active⟩, fun h => ⟨h.1, h.2, hs.distinct⟩⟩
  | deleteConfig id =>
    set kept := s.configs.filter fun c => c.id != id with hkept
    have hmem : ∀ c, c ∈ kept ↔ c ∈ s.configs ∧ c.id ≠ id := fun c => by simp [hkept, List.mem_filter]
    have hdistinct : (kept.map (·.id)).Nodup := hs.distinct.sublist (List.filter_sublist.map _)
    by_cases hid : s.activeConfigId = id
    · have hactive : (s.changed (deleteConfig id)).activeConfigId = ((kept.head?).map (·.id)).getD "" := if_pos hid
      simp only [Command.Keeps, hid, true_imp_iff, ← hkept]
      cases hhead : kept.head? with
      | none =>
        rw [hhead] at hactive
        have hnil : kept = [] := List.head?_eq_none_iff.mp hhead
        exact iff_of_true ⟨fun _ => hnil, fun h => absurd hactive h, hdistinct⟩ fun _ h => nomatch h
      | some first =>
        rw [hhead] at hactive
        have hfirst : first ∈ kept := List.mem_of_mem_head? hhead
        constructor
        · intro h c hc hempty
          obtain rfl := Option.some.inj hc
          have hnil : kept = [] := h.empty (hactive.trans hempty)
          rw [hnil] at hfirst
          cases hfirst
        · intro h
          exact ⟨fun hempty => absurd (hactive.symm.trans hempty) (h first rfl),
            fun _ => ⟨first, hfirst, hactive.symm⟩, hdistinct⟩
    · have hactive : (s.changed (deleteConfig id)).activeConfigId = s.activeConfigId := if_neg hid
      refine iff_of_true ⟨fun h => ?_, fun h => ?_, hdistinct⟩ fun h => absurd h hid
      · have hnil := hs.empty (hactive.symm.trans h)
        exact List.eq_nil_iff_forall_not_mem.mpr fun c hc => by
          have := ((hmem c).mp hc).1
          rw [hnil] at this
          cases this
      · obtain ⟨c, hc, hcid⟩ := hs.active (hactive ▸ h)
        exact ⟨c, (hmem c).mpr ⟨hc, fun h => hid (hcid.symm.trans h)⟩, hcid.trans hactive.symm⟩
  | addConfig drawn name server port uuid sni allowInsecure => exact push_valid_iff hs _
  | updateConfig id name server port uuid sni allowInsecure =>
    refine iff_of_true ?_ trivial
    have hids := changed_update_ids s id name server port uuid sni allowInsecure
    refine ⟨fun h => ?_, fun h => ?_, hids ▸ hs.distinct⟩
    · have hnil := hs.empty h
      rw [hnil] at hids
      exact List.map_eq_nil_iff.mp hids
    · obtain ⟨c, hc, hid⟩ := hs.active h
      have hmem : c.id ∈ (s.changed (updateConfig id name server port uuid sni allowInsecure)).configs.map (·.id) :=
        hids ▸ List.mem_map_of_mem hc
      obtain ⟨c', hc', hid'⟩ := List.mem_map.mp hmem
      exact ⟨c', hc', hid'.trans hid⟩
  | importConfigLink drawn link =>
    simp only [AppState.changed, Command.Keeps]
    cases hlink : parseVlessLink drawn link with
    | none => exact iff_of_true hs fun h => nomatch h
    | some config =>
      have hpush := push_valid_iff hs config
      rw [parseVlessLink_id hlink] at hpush
      exact hpush.trans ⟨fun h _ => h, fun h => h rfl⟩
  | _ => exact iff_of_true hs trivial

/-- **A command that changes nothing.** -/
theorem changed_idle_iff (hs : s.Valid) (c : Command) :
    ((s.changed c).configs = s.configs ∧ (s.changed c).activeConfigId = s.activeConfigId) ↔ c.Idle s := by
  have hpush : ∀ config : ProxyConfig, (s.push config).configs ≠ s.configs := fun config h => by
    simp [AppState.push] at h
  cases c with
  | selectConfig id => exact ⟨fun h => h.2.symm, fun h => ⟨rfl, h.symm⟩⟩
  | deleteConfig id =>
    have hkept : (s.changed (deleteConfig id)).configs = s.configs ↔ ∀ c ∈ s.configs, c.id ≠ id := by
      simp [AppState.changed, List.filter_eq_self]
    refine (and_iff_left_of_imp fun h => ?_).trans hkept
    by_cases hid : s.activeConfigId = id
    · -- the active identifier is of no configuration, so there are none
      have hnone : s.activeConfigId = "" := by
        by_contra hne
        obtain ⟨c, hc, hcid⟩ := hs.active hne
        exact hkept.mp h c hc (hcid.trans hid)
      have hnil := hs.empty hnone
      simp [AppState.changed, hid, hnil, ← hnone]
    · exact if_neg hid
  | addConfig drawn name server port uuid sni allowInsecure => exact iff_of_false (fun h => hpush _ h.1) id
  | updateConfig id name server port uuid sni allowInsecure =>
    simp only [AppState.changed, Command.Idle, and_true]
    cases hfind : s.configs.findIdx? fun c => c.id == id with
    | none =>
      refine iff_of_true rfl fun c hc hcid => ?_
      have hne := List.findIdx?_eq_none_iff.mp hfind c hc
      simp [hcid] at hne
    | some i =>
      obtain ⟨hlt, hid, -⟩ := List.findIdx?_eq_some_iff_getElem.mp hfind
      have hid := eq_of_beq hid
      constructor
      · intro h c hc hcid
        have hci : c = s.configs[i] :=
          List.inj_on_of_nodup_map hs.distinct hc (List.getElem_mem hlt) (hcid.trans hid.symm)
        have hset := congrArg (·[i]?) h
        simp only [List.getElem?_modify_eq, List.getElem?_eq_getElem hlt, Option.map_eq_map, Option.map_some,
          Option.some.injEq] at hset
        rw [hci, ← hset, hid]
      · intro h
        have hself := h _ (List.getElem_mem hlt) hid
        refine List.ext_getElem? fun j => ?_
        dsimp only
        by_cases hij : i = j
        · subst hij
          rw [List.getElem?_modify_eq, List.getElem?_eq_getElem hlt]
          simp only [Option.map_eq_map, Option.map_some, hid, ← hself]
        · rw [List.getElem?_modify_ne _ _ hij]
  | importConfigLink drawn link =>
    simp only [AppState.changed, Command.Idle]
    cases hlink : parseVlessLink drawn link with
    | none => exact iff_of_true ⟨rfl, rfl⟩ fun h => nomatch h
    | some config => exact iff_of_false (fun h => hpush _ h.1) fun h => h rfl
  | _ => exact iff_of_true ⟨rfl, rfl⟩ trivial

end

/-! ## Sequences of commands -/

/-- How a save ends: the file is written, or it was not created, or its writing was cut off. -/
inductive SaveEnd where
  | written
  | notCreated
  | cutOff
deriving DecidableEq

/-- The client and its file; one that is not intact holds no configurations. -/
structure DesktopState where
  app : AppState
  intact : Bool

/-- A command, and how its save ends. -/
def DesktopState.step (s : DesktopState) (a : Command × SaveEnd) : Option DesktopState := some
  { app := s.app.execute (decide (a.2 = .written)) a.1
    intact := if a.1.saves then match a.2 with
      | .written => true
      | .notCreated => s.intact
      | .cutOff => false
    else s.intact }

/-- A valid state that the file holds. -/
structure DesktopState.Consistent (s : DesktopState) : Prop where
  valid : s.app.Valid
  intact : s.intact = true
  saved : s.app.file = (s.app.configs, s.app.activeConfigId)

/-- What the command changes is admissible, and it is written, unless it is nothing and the file is left alone. -/
def DesktopState.Admits (s : DesktopState) (a : Command × SaveEnd) : Prop :=
  a.1.Keeps s.app ∧ (a.1.saves → a.2 = .written ∨ a.2 = .notCreated ∧ a.1.Idle s.app)

section

variable {s s' : DesktopState} {a : Command × SaveEnd}

/-- A command without a save changes nothing. -/
theorem changed_of_not_saves (s : AppState) {c : Command} (h : c.saves = false) : s.changed c = s := by
  cases c with
  | importConfigLink drawn link =>
    have hlink : parseVlessLink drawn link = none := Option.not_isSome_iff_eq_none.mp (by simpa [Command.saves] using h)
    simp [AppState.changed, hlink]
  | toggleProxy | getLatency | getConfigs | getActiveConfigId => rfl
  | selectConfig | deleteConfig | addConfig | updateConfig => cases h

theorem changed_file (s : AppState) (c : Command) : (s.changed c).file = s.file := by
  cases c with
  | importConfigLink drawn link =>
    simp only [AppState.changed]
    split <;> rfl
  | _ => rfl

theorem AppState.Valid.of_eq {s s' : AppState} (h : s.Valid) (hconfigs : s'.configs = s.configs)
    (hactive : s'.activeConfigId = s.activeConfigId) : s'.Valid where
  empty := by rw [hconfigs, hactive]; exact h.empty
  active := by rw [hconfigs, hactive]; exact h.active
  distinct := by rw [hconfigs]; exact h.distinct

/-- **Exactly the admissible commands** keep a consistent state consistent. -/
theorem consistent_step_iff (hs : s.Consistent) (h : s.step a = some s') : s'.Consistent ↔ s.Admits a := by
  obtain ⟨c, e⟩ := a
  obtain rfl := Option.some.inj h
  have hkeeps := changed_valid_iff hs.valid c
  by_cases hsaves : c.saves = true
  · rw [DesktopState.Admits, ← changed_idle_iff hs.valid c, ← hkeeps]
    cases e with
    | written =>
      simp only [execute_eq, hsaves, if_true, decide_true, AppState.save]
      exact ⟨fun h => ⟨h.valid.of_eq rfl rfl, fun _ => .inl trivial⟩, fun h => ⟨h.1.of_eq rfl rfl, rfl, rfl⟩⟩
    | notCreated =>
      simp only [execute_eq, hsaves, if_true, reduceCtorEq, decide_false, AppState.save, Bool.false_eq_true, if_false,
        true_imp_iff, false_or, true_and]
      -- the file holds what was there before
      constructor
      · intro h
        have hsaved := h.saved
        rw [changed_file, hs.saved] at hsaved
        obtain ⟨hconfigs, hactive⟩ := Prod.mk.inj hsaved
        exact ⟨h.valid, hconfigs.symm, hactive.symm⟩
      · rintro ⟨hvalid, hconfigs, hactive⟩
        exact ⟨hvalid, hs.intact, by rw [changed_file, hs.saved, hconfigs, hactive]⟩
    | cutOff =>
      refine iff_of_false (fun h => ?_) fun h => ?_
      · have hintact := h.intact
        simp [hsaves] at hintact
      · rcases h.2 hsaves with h | h
        · cases h
        · cases h.1
  · have hsaves := Bool.not_eq_true _ ▸ hsaves
    have hsame := changed_of_not_saves s.app hsaves
    rw [hsame] at hkeeps
    simp only [execute_eq, hsaves, Bool.false_eq_true, if_false, hsame, DesktopState.Admits]
    exact iff_of_true ⟨hs.valid, hs.intact, hs.saved⟩ ⟨hkeeps.mp hs.valid, fun h => nomatch h⟩

/-- **Every sequence of commands**, from a consistent state: the active identifier is that of a configuration or there
are none, the identifiers are distinct and the file holds the same, after every command, if and only if only
configurations that exist are selected, new identifiers are new, a deletion makes no configuration without an
identifier active, and every change is written. -/
theorem configs_consistent_iff (hs : s.Consistent) (as : List (Command × SaveEnd)) :
    Run.Always DesktopState.step DesktopState.Consistent s as ↔
      Run.Meets DesktopState.step DesktopState.Admits s as :=
  Run.always_iff_meets (I := fun _ => True) (fun _ _ _ _ _ _ _ => trivial)
    (fun _ _ _ _ hs h => consistent_step_iff hs h) trivial hs as

end

/-- The client with one configuration, which is active. -/
def oneConfig : DesktopState := ⟨.start ([⟨"1", "home", "192.0.2.1", 443, "", "a.example", some false⟩], "1"), true⟩

theorem oneConfig_consistent : oneConfig.Consistent where
  valid := ⟨by decide, fun _ => ⟨_, List.mem_singleton_self _, rfl⟩, by decide⟩
  intact := rfl
  saved := rfl

/-- A second configuration is added and selected, and the first is deleted. -/
def replaceConfig : List (Command × SaveEnd) :=
  [(addConfig "2" "office" "192.0.2.2" 443 "" "b.example" false, .written), (selectConfig "2", .written),
    (deleteConfig "1", .written)]

/-- The theorem on the replacement of a configuration. -/
theorem configs_consistent_replace :
    Run.Always DesktopState.step DesktopState.Consistent oneConfig replaceConfig := by
  have hadd : oneConfig.app.Admits "2" := ⟨by decide, by decide⟩
  have hexists : ∃ c ∈ (oneConfig.app.push ⟨"2", "office", "192.0.2.2", 443, "", "b.example", some false⟩).configs,
      c.id = "2" := ⟨_, List.mem_cons_of_mem _ List.mem_cons_self, rfl⟩
  exact (configs_consistent_iff oneConfig_consistent replaceConfig).mpr ⟨⟨hadd, fun _ => .inl rfl⟩,
    ⟨⟨fun h => absurd h (by decide), fun _ => hexists⟩, fun _ => .inl rfl⟩,
    ⟨fun h => absurd h (by decide), fun _ => .inl rfl⟩, trivial⟩

/-- **The configuration that was just deleted is selected again**: the active identifier is that of none, although
every save is written. -/
theorem select_unknown : oneConfig.Consistent ∧
    ¬ Run.Always DesktopState.step DesktopState.Consistent oneConfig
      [(addConfig "2" "office" "192.0.2.2" 443 "" "b.example" false, .written), (deleteConfig "1", .written),
        (selectConfig "1", .written)] := by
  refine ⟨oneConfig_consistent, fun h => ?_⟩
  obtain ⟨-, -, -, hlast⟩ := h
  obtain ⟨c, hc, hid⟩ := hlast.valid.active (by decide)
  obtain rfl := List.mem_singleton.mp hc
  exact absurd hid (by decide)

end RXCore
