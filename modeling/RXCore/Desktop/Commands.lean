import RXCore.Desktop.Link
import RXCore.Lib.Locks
import RXCore.Lib.Parties
import RXCore.Lib.Run

/-!
# The commands of the desktop client

Each command takes the locks of the configurations and of the active identifier, does its work while it holds
both, and gives them back. The commands run on several threads, so their steps come in any order.

* `Command`, `Command.locks`: what a command takes, in its order;
* `AppState`, `AppState.step`: a command begins, takes a lock, does its work, gives a lock back;
* `Running.Fit`: what a command holds and has yet to take is what it takes;
* `Crossing`: a `select_config` and another command take their first locks at the same time;
* **`commands_deadlock_free_iff`**: the runs without a deadlock;
* **`never_deadlocked_without_select`**: the other commands take their locks in one order;
* **`select_delete_deadlock`**.
-/

set_option autoImplicit false

namespace RXCore

open Locks Parties

/-! ## Commands -/

inductive Lock where
  | configs
  | activeConfigId
deriving DecidableEq

/-- The commands that take one of the two locks; identifiers of new configurations are drawn. -/
inductive Command where
  | toggleProxy (connect : Bool)
  | getLatency
  | getConfigs
  | getActiveConfigId
  | selectConfig (id : String)
  | deleteConfig (id : String)
  | addConfig (drawn name server : String) (port : UInt16) (uuid sni : String) (allowInsecure : Bool)
  | updateConfig (id name server : String) (port : UInt16) (uuid sni : String) (allowInsecure : Bool)
  | importConfigLink (drawn link : String)

open Lock Command

/-- The locks that a command takes. `toggle_proxy` takes none when it disconnects or is connected, and
`import_config_link` none for a link that it cannot read. -/
def Command.locks (connected : Bool) : Command → List Lock
  | toggleProxy connect => if connect && !connected then [configs, activeConfigId] else []
  | getLatency => [configs, activeConfigId]
  | getConfigs => [configs]
  | getActiveConfigId => [activeConfigId]
  | selectConfig _ => [activeConfigId, configs]
  | deleteConfig _ | addConfig .. | updateConfig .. => [configs, activeConfigId]
  | importConfigLink drawn link => if (parseVlessLink drawn link).isSome then [configs, activeConfigId] else []

/-- A command that has begun; `found` is the configuration that it has read. -/
structure Running where
  command : Command
  party : Party Lock
  ended : Bool
  found : Option ProxyConfig

/-- `AppState`, with the file of the configurations and the commands that have begun. -/
structure AppState where
  configs : List ProxyConfig
  activeConfigId : String
  connected : Bool
  file : List ProxyConfig × String
  running : List Running

/-- The state after `load_configs_from_file`. -/
def AppState.start (saved : List ProxyConfig × String) : AppState := ⟨saved.1, saved.2, false, saved, []⟩

/-- `save_configs_to_file`, which ignores a failure. -/
def AppState.save (s : AppState) (written : Bool) : AppState :=
  if written then { s with file := (s.configs, s.activeConfigId) } else s

/-- The active configuration. -/
def AppState.active (s : AppState) : Option ProxyConfig := s.configs.find? fun c => c.id == s.activeConfigId

/-- Add a configuration, which becomes active if none is. -/
def AppState.push (s : AppState) (config : ProxyConfig) : AppState :=
  { s with
    configs := s.configs ++ [config]
    activeConfigId := if s.activeConfigId = "" then config.id else s.activeConfigId }

/-- What a command does on taking a lock: `select_config` sets the identifier before it takes the other one. -/
def AppState.onTake (s : AppState) : Command → Lock → AppState
  | selectConfig id, Lock.activeConfigId => { s with activeConfigId := id }
  | _, _ => s

/-- What a command does while it holds its locks. -/
def AppState.work (s : AppState) (written : Bool) : Command → AppState
  | toggleProxy _ | getLatency | getConfigs | getActiveConfigId => s
  | selectConfig _ => s.save written
  | deleteConfig id =>
    let configs := s.configs.filter fun c => c.id != id
    let activeConfigId := if s.activeConfigId = id then (configs.head?.map (·.id)).getD "" else s.activeConfigId
    { s with configs := configs, activeConfigId := activeConfigId }.save written
  | addConfig drawn name server port uuid sni allowInsecure =>
    (s.push ⟨drawn, name, server, port, uuid, sni, some allowInsecure⟩).save written
  | updateConfig id name server port uuid sni allowInsecure =>
    let update := fun c : ProxyConfig => ProxyConfig.mk c.id name server port uuid sni (some allowInsecure)
    let configs := match s.configs.findIdx? fun c => c.id == id with
      | some i => s.configs.modify i update
      | none => s.configs
    { s with configs := configs }.save written
  | importConfigLink drawn link => match parseVlessLink drawn link with
    | some config => (s.push config).save written
    | none => s

/-- What happens: a command begins, takes its next lock, does its work, gives back the lock that it took last; and
the rest of `toggle_proxy` connects or disconnects. -/
inductive AppEvent where
  | invoke (command : Command)
  | take (t : ℕ)
  | work (t : ℕ) (written : Bool)
  | release (t : ℕ)
  | connected (connected : Bool)

/-- The parties of the locks. -/
def AppState.parties (s : AppState) : List (Party Lock) := s.running.map (·.party)

/-- Set the state of a running command. -/
def AppState.update (s : AppState) (t : ℕ) (r : Running) : AppState := { s with running := s.running.set t r }

/-- One step; `none` is a step that cannot be taken, as that of a command that waits for a lock. -/
def AppState.step (s : AppState) : AppEvent → Option AppState
  | .invoke command =>
    some { s with running := s.running ++ [⟨command, .fresh (command.locks s.connected), false, none⟩] }
  | .take t => match s.running[t]? with
    | none => none
    | some r => match r.party.todo with
      | [] => none
      | l :: _ =>
        if Free s.parties l then some ((s.onTake r.command l).update t { r with party := r.party.taken }) else none
  | .work t written => match s.running[t]? with
    | none => none
    | some r =>
      if r.party.todo = [] ∧ r.ended = false then
        some ((s.work written r.command).update t { r with ended := true, found := s.active })
      else none
  | .release t => match s.running[t]? with
    | none => none
    | some r => if r.ended = true then some (s.update t { r with party := r.party.released }) else none
  | .connected connected => some { s with connected := connected }

/-! ## What a command holds -/

/-- A command holds the first of its locks and has yet to take the others; when its work is done, it has taken
all of them. -/
structure Running.Fit (r : Running) : Prop where
  taking : r.ended = false → ∃ b, r.party.held.reverse ++ r.party.todo = r.command.locks b
  taken : r.ended = true → r.party.todo = []

def AppState.Fit (s : AppState) : Prop := ∀ r ∈ s.running, r.Fit

section

variable {s s' : AppState} {e : AppEvent}

theorem Party.taken_locks {p : Party Lock} {l : Lock} {ls : List Lock} (h : p.todo = l :: ls) :
    p.taken.held.reverse ++ p.taken.todo = p.held.reverse ++ p.todo := by
  simp [Party.taken, h]

theorem onTake_running (s : AppState) (c : Command) (l : Lock) : (s.onTake c l).running = s.running := by
  unfold AppState.onTake
  split <;> rfl

theorem work_running (s : AppState) (written : Bool) (c : Command) : (s.work written c).running = s.running := by
  have hsave : ∀ s : AppState, (s.save written).running = s.running := by
    intro s
    unfold AppState.save
    split_ifs <;> rfl
  cases c <;> simp only [AppState.work, hsave, AppState.push]
  split
  · rw [hsave]
  · rfl

/-- What a step does to the commands that run. -/
theorem step_running (h : s.step e = some s') :
    (∃ c, e = .invoke c ∧ s'.running = s.running ++ [⟨c, .fresh (c.locks s.connected), false, none⟩]) ∨
    (∃ t r l ls, e = .take t ∧ s.running[t]? = some r ∧ r.party.todo = l :: ls ∧
      s'.running = s.running.set t { r with party := r.party.taken }) ∨
    (∃ t written r, e = .work t written ∧ s.running[t]? = some r ∧ r.party.todo = [] ∧
      s'.running = s.running.set t { r with ended := true, found := s.active }) ∨
    (∃ t r, e = .release t ∧ s.running[t]? = some r ∧ r.ended = true ∧
      s'.running = s.running.set t { r with party := r.party.released }) ∨
    (∃ b, e = .connected b ∧ s'.running = s.running) := by
  cases e with
  | invoke c =>
    obtain rfl := Option.some.inj h
    exact .inl ⟨c, rfl, rfl⟩
  | take t =>
    simp only [AppState.step] at h
    split at h
    · cases h
    next r hr =>
    split at h
    · cases h
    next l ls htodo =>
    split_ifs at h
    obtain rfl := Option.some.inj h
    refine .inr (.inl ⟨t, r, l, ls, rfl, hr, htodo, ?_⟩)
    simp only [AppState.update, onTake_running]
  | work t written =>
    simp only [AppState.step] at h
    split at h
    · cases h
    next r hr =>
    split_ifs at h with hready
    obtain rfl := Option.some.inj h
    refine .inr (.inr (.inl ⟨t, written, r, rfl, hr, hready.1, ?_⟩))
    simp only [AppState.update, work_running]
  | release t =>
    simp only [AppState.step] at h
    split at h
    · cases h
    next r hr =>
    split_ifs at h with hended
    obtain rfl := Option.some.inj h
    exact .inr (.inr (.inr (.inl ⟨t, r, rfl, hr, hended, rfl⟩)))
  | connected b =>
    obtain rfl := Option.some.inj h
    exact .inr (.inr (.inr (.inr ⟨b, rfl, rfl⟩)))

theorem AppState.Fit.step (hs : s.Fit) (h : s.step e = some s') : s'.Fit := by
  have hset : ∀ {t r'}, r'.Fit → s'.running = s.running.set t r' → s'.Fit := by
    intro t r' hr' hrunning r hr
    rw [hrunning] at hr
    rcases List.mem_or_eq_of_mem_set hr with hr | rfl
    · exact hs r hr
    · exact hr'
  rcases step_running h with ⟨c, -, hc⟩ | ⟨t, r, l, ls, -, hr, htodo, hc⟩ | ⟨t, -, r, -, hr, htodo, hc⟩ |
    ⟨t, r, -, hr, hended, hc⟩ | ⟨b, -, hc⟩
  · intro r hr
    rw [hc] at hr
    rcases List.mem_append.mp hr with hr | hr
    · exact hs r hr
    · obtain rfl := List.mem_singleton.mp hr
      exact ⟨fun _ => ⟨s.connected, rfl⟩, nofun⟩
  · have hfit := hs r (List.mem_of_getElem? hr)
    refine hset ?_ hc
    refine ⟨fun hopen => ?_, fun hended => ?_⟩
    · obtain ⟨b, hlocks⟩ := hfit.taking hopen
      exact ⟨b, (Party.taken_locks htodo).trans hlocks⟩
    · rw [hfit.taken hended] at htodo
      cases htodo
  · refine hset ?_ hc
    exact ⟨fun hopen => absurd hopen (by simp), fun _ => htodo⟩
  · refine hset ?_ hc
    exact ⟨fun hopen => absurd (hended.symm.trans hopen) (by decide),
      fun _ => (hs r (List.mem_of_getElem? hr)).taken hended⟩
  · intro r hr
    rw [hc] at hr
    exact hs r hr

/-! ## Deadlocks -/

theorem parties_getElem? {t : ℕ} {r : Running} (h : s.running[t]? = some r) : s.parties[t]? = some r.party := by
  rw [AppState.parties, List.getElem?_map, h]
  rfl

theorem parties_set {t : ℕ} {r : Running} (h : s'.running = s.running.set t r) :
    s'.parties = s.parties.set t r.party := by
  rw [AppState.parties, AppState.parties, h, List.map_set]

/-- A `select_config` takes `active_config_id` while another command holds `configs` and is to take
`active_config_id`, or another command takes `configs` while a `select_config` holds `active_config_id` and is to
take `configs`. -/
def AppState.Crossing (s : AppState) (t : ℕ) : Prop :=
  ∃ u r q, t ≠ u ∧ s.running[t]? = some r ∧ s.running[u]? = some q ∧
    (((∃ id, r.command = selectConfig id) ∧ r.party = .fresh [.activeConfigId, .configs] ∧
        q.party = ⟨[.activeConfigId], [.configs]⟩) ∨
      ((∃ id, q.command = selectConfig id) ∧ r.party = .fresh [.configs, .activeConfigId] ∧
        q.party = ⟨[.configs], [.activeConfigId]⟩))

/-- Only `select_config` takes `active_config_id` first. -/
theorem locks_cases (b : Bool) (c : Command) : c.locks b = [] ∨ c.locks b = [configs] ∨ c.locks b = [activeConfigId] ∨
    c.locks b = [configs, activeConfigId] ∨
    ((∃ id, c = selectConfig id) ∧ c.locks b = [activeConfigId, configs]) := by
  cases c with
  | selectConfig id => exact .inr (.inr (.inr (.inr ⟨⟨id, rfl⟩, rfl⟩)))
  | toggleProxy connect =>
    simp only [Command.locks]
    split_ifs <;> simp
  | importConfigLink drawn link =>
    simp only [Command.locks]
    split_ifs <;> simp
  | _ => simp [Command.locks]

/-- What a command that is to take a lock holds. -/
theorem Running.Fit.cases {r : Running} (h : r.Fit) {l : Lock} {ls : List Lock} (htodo : r.party.todo = l :: ls) :
    (ls = [] ∧ r.party.held = []) ∨
    (l = activeConfigId ∧ ls = [] ∧ r.party.held = [configs]) ∨
    (l = configs ∧ ls = [activeConfigId] ∧ r.party.held = []) ∨
    ((∃ id, r.command = selectConfig id) ∧ l = activeConfigId ∧ ls = [configs] ∧ r.party.held = []) ∨
    ((∃ id, r.command = selectConfig id) ∧ l = configs ∧ ls = [] ∧ r.party.held = [activeConfigId]) := by
  have hopen : r.ended = false := by
    by_contra hended
    rw [h.taken (by simpa using hended)] at htodo
    cases htodo
  obtain ⟨b, hlocks⟩ := h.taking hopen
  rw [htodo] at hlocks
  have hlen := congrArg List.length hlocks
  simp only [List.length_append, List.length_reverse, List.length_cons] at hlen
  match hheld : r.party.held with
  | [] =>
    rw [hheld, List.reverse_nil, List.nil_append] at hlocks
    rcases locks_cases b r.command with hc | hc | hc | hc | ⟨hselect, hc⟩ <;> rw [hc] at hlocks
    · cases hlocks
    · exact .inl ⟨(List.cons.inj hlocks).2, rfl⟩
    · exact .inl ⟨(List.cons.inj hlocks).2, rfl⟩
    · obtain ⟨rfl, rfl⟩ := List.cons.inj hlocks
      exact .inr (.inr (.inl ⟨rfl, rfl, rfl⟩))
    · obtain ⟨rfl, rfl⟩ := List.cons.inj hlocks
      exact .inr (.inr (.inr (.inl ⟨hselect, rfl, rfl, rfl⟩)))
  | [m] =>
    rw [hheld, List.reverse_singleton, List.singleton_append] at hlocks
    rcases locks_cases b r.command with hc | hc | hc | hc | ⟨hselect, hc⟩ <;> rw [hc] at hlocks
    · cases hlocks
    · cases hlocks
    · cases hlocks
    · obtain ⟨rfl, hrest⟩ := List.cons.inj hlocks
      obtain ⟨rfl, rfl⟩ := List.cons.inj hrest
      exact .inr (.inl ⟨rfl, rfl, rfl⟩)
    · obtain ⟨rfl, hrest⟩ := List.cons.inj hlocks
      obtain ⟨rfl, rfl⟩ := List.cons.inj hrest
      exact .inr (.inr (.inr (.inr ⟨hselect, rfl, rfl, rfl⟩)))
  | m :: m' :: held =>
    rw [hheld] at hlen
    rcases locks_cases b r.command with hc | hc | hc | hc | ⟨-, hc⟩ <;>
    · simp only [hc, List.length_cons, List.length_nil] at hlen
      omega

/-- **A lock that closes a circle** is the first one of a `select_config`, or of a command beside one. -/
theorem crosses_iff {t : ℕ} (hs : s.Fit) {r : Running} (hr : s.running[t]? = some r) {l : Lock} {ls : List Lock}
    (htodo : r.party.todo = l :: ls) : Crosses s.parties t ↔ s.Crossing t := by
  constructor
  · rintro ⟨p, u, q', hne, hp, hq', ⟨m, hm, hmq⟩, n, hn, hnp⟩
    obtain rfl := Option.some.inj (hp.symm.trans (parties_getElem? hr))
    rw [AppState.parties, List.getElem?_map] at hq'
    obtain ⟨q, hq, rfl⟩ := Option.map_eq_some_iff.mp hq'
    obtain ⟨ns, hqtodo⟩ := List.head?_eq_some_iff.mp hn
    rw [Party.taken, htodo] at hm hnp
    rcases (hs r (List.mem_of_getElem? hr)).cases htodo with ⟨rfl, -⟩ | ⟨-, rfl, -⟩ | ⟨rfl, rfl, hheld⟩ |
      ⟨hselect, rfl, rfl, hheld⟩ | ⟨-, -, rfl, -⟩
    · cases hm
    · cases hm
    · obtain rfl := Option.some.inj hm
      rw [hheld] at hnp
      obtain rfl := List.mem_singleton.mp hnp
      have hrp : r.party = .fresh [.configs, .activeConfigId] := by
        rw [Party.fresh, ← htodo, ← hheld]
      rcases (hs q (List.mem_of_getElem? hq)).cases hqtodo with ⟨-, hq0⟩ | ⟨hc, -⟩ | ⟨-, -, hq0⟩ | ⟨-, hc, -⟩ |
        ⟨hqselect, -, rfl, hqheld⟩
      · rw [hq0] at hmq
        cases hmq
      · cases hc
      · rw [hq0] at hmq
        cases hmq
      · cases hc
      · exact ⟨u, r, q, hne, hr, hq, .inr ⟨hqselect, hrp, by rw [← hqtodo, ← hqheld]⟩⟩
    · obtain rfl := Option.some.inj hm
      rw [hheld] at hnp
      obtain rfl := List.mem_singleton.mp hnp
      have hrp : r.party = .fresh [.activeConfigId, .configs] := by
        rw [Party.fresh, ← htodo, ← hheld]
      rcases (hs q (List.mem_of_getElem? hq)).cases hqtodo with ⟨-, hq0⟩ | ⟨-, rfl, hqheld⟩ | ⟨hc, -⟩ |
        ⟨-, -, -, hq0⟩ | ⟨-, hc, -⟩
      · rw [hq0] at hmq
        cases hmq
      · exact ⟨u, r, q, hne, hr, hq, .inl ⟨hselect, hrp, by rw [← hqtodo, ← hqheld]⟩⟩
      · cases hc
      · rw [hq0] at hmq
        cases hmq
      · cases hc
    · cases hm
  · rintro ⟨u, r', q, hne, hr', hq, hcase⟩
    obtain rfl := Option.some.inj (hr'.symm.trans hr)
    refine ⟨r'.party, u, q.party, hne, parties_getElem? hr, parties_getElem? hq, ?_⟩
    rcases hcase with ⟨-, hrp, hqp⟩ | ⟨-, hrp, hqp⟩ <;> rw [hrp, hqp]
    · exact ⟨⟨.configs, rfl, by simp⟩, .activeConfigId, rfl, by simp [Party.taken, Party.fresh]⟩
    · exact ⟨⟨.activeConfigId, rfl, by simp⟩, .configs, rfl, by simp [Party.taken, Party.fresh]⟩

/-- A step does not let a `select_config` and another command take their first locks across each other. -/
def NotCrossing (s : AppState) : AppEvent → Prop
  | .take t => ¬ s.Crossing t
  | _ => True

/-- **The steps that lead to a deadlock.** -/
theorem deadlock_step_iff (hs : s.Fit) (hfree : ¬ Deadlock s.parties) (h : s.step e = some s') :
    ¬ Deadlock s'.parties ↔ NotCrossing s e := by
  rcases step_running h with ⟨c, rfl, hc⟩ | ⟨t, r, l, ls, rfl, hr, htodo, hc⟩ | ⟨t, written, r, rfl, hr, htodo, hc⟩ |
    ⟨t, r, rfl, hr, hended, hc⟩ | ⟨b, rfl, hc⟩
  · refine iff_of_true ?_ trivial
    have hparties : s'.parties = s.parties ++ [.fresh (c.locks s.connected)] := by
      rw [AppState.parties, hc, List.map_append]
      rfl
    rw [hparties]
    exact deadlock_join _ hfree
  · rw [parties_set hc, deadlock_take (parties_getElem? hr) hfree, crosses_iff hs hr htodo]
    exact Iff.rfl
  · refine iff_of_true ?_ trivial
    rw [parties_set hc, set_of_getElem? (parties_getElem? hr)]
    exact hfree
  · refine iff_of_true ?_ trivial
    rw [parties_set hc]
    exact deadlock_release (parties_getElem? hr) hfree
  · refine iff_of_true ?_ trivial
    rw [AppState.parties, hc]
    exact hfree

/-- **A run of commands is without a deadlock** if and only if in it no `select_config` and another command take
their first locks across each other. -/
theorem commands_deadlock_free_iff (saved : List ProxyConfig × String) (es : List AppEvent) :
    Run.Always AppState.step (fun s => ¬ Deadlock s.parties) (.start saved) es ↔
      Run.Meets AppState.step NotCrossing (.start saved) es := by
  refine Run.always_iff_meets (I := AppState.Fit) (fun s e s' hs _ _ h => hs.step h)
    (fun s e s' hs hfree h => deadlock_step_iff hs hfree h) (fun r hr => absurd hr List.not_mem_nil) ?_ es
  rintro ⟨i, j, p, q, -, hp, -⟩
  cases hp

/-- The rank of a lock in the order of the other commands. -/
def Lock.rank : Lock → ℕ
  | .configs => 0
  | .activeConfigId => 1

/-- No `select_config` runs. -/
def AppState.Unselected (s : AppState) : Prop := ∀ r ∈ s.running, ∀ id, r.command ≠ selectConfig id

/-- Commands that all take their locks in one order. -/
theorem AppState.Unselected.not_deadlock (hs : s.Fit) (hother : s.Unselected) : ¬ Deadlock s.parties := by
  refine not_deadlock_of_ordered Lock.rank fun p hp m hm l hl => ?_
  obtain ⟨r, hr, rfl⟩ := List.mem_map.mp hp
  obtain ⟨l', ls, htodo⟩ := List.exists_cons_of_ne_nil (List.ne_nil_of_mem hl)
  have hselect : ¬ ∃ id, r.command = selectConfig id := fun ⟨id, h⟩ => hother r hr id h
  rcases (hs r hr).cases htodo with ⟨-, hheld⟩ | ⟨rfl, rfl, hheld⟩ | ⟨-, -, hheld⟩ | ⟨h, -⟩ | ⟨h, -⟩
  · rw [hheld] at hm
    cases hm
  · rw [hheld] at hm
    rw [htodo] at hl
    obtain rfl := List.mem_singleton.mp hm
    obtain rfl := List.mem_singleton.mp hl
    decide
  · rw [hheld] at hm
    cases hm
  · exact absurd h hselect
  · exact absurd h hselect

theorem AppState.Unselected.step (hs : s.Unselected) (he : ∀ id, e ≠ .invoke (selectConfig id))
    (h : s.step e = some s') : s'.Unselected := by
  have hset : ∀ {t : ℕ} {r r' : Running}, s'.running = s.running.set t r' → s.running[t]? = some r →
      r'.command = r.command → s'.Unselected := by
    intro t r r' hrunning hr hcommand q hq
    rw [hrunning] at hq
    rcases List.mem_or_eq_of_mem_set hq with hq | rfl
    · exact hs q hq
    · rw [hcommand]
      exact hs r (List.mem_of_getElem? hr)
  rcases step_running h with ⟨c, rfl, hc⟩ | ⟨t, r, l, ls, -, hr, -, hc⟩ | ⟨t, -, r, -, hr, -, hc⟩ |
    ⟨t, r, -, hr, -, hc⟩ | ⟨b, -, hc⟩
  · intro r hr id hid
    rw [hc] at hr
    rcases List.mem_append.mp hr with hr | hr
    · exact hs r hr id hid
    · obtain rfl := List.mem_singleton.mp hr
      exact he id (congrArg AppEvent.invoke hid)
  · exact hset hc hr rfl
  · exact hset hc hr rfl
  · exact hset hc hr rfl
  · intro r hr
    rw [hc] at hr
    exact hs r hr

/-- **Without `select_config`** there is no deadlock. -/
theorem never_deadlocked_without_select (saved : List ProxyConfig × String) {es : List AppEvent}
    (hes : ∀ id, .invoke (selectConfig id) ∉ es) :
    Run.Always AppState.step (fun s => ¬ Deadlock s.parties) (.start saved) es := by
  have hmeets : Run.Meets AppState.step (fun _ e => ∀ id, e ≠ .invoke (selectConfig id)) (.start saved) es :=
    Run.meets_of_forall_mem (fun e he s id h => hes id (by rwa [h] at he)) _
  exact Run.always_of_meets (I := fun s => s.Fit ∧ s.Unselected)
    (fun s e s' hs he h => ⟨hs.1.step h, hs.2.step he h⟩) (fun s hs => hs.2.not_deadlock hs.1)
    ⟨fun r hr => absurd hr List.not_mem_nil, fun r hr => absurd hr List.not_mem_nil⟩ hmeets

/-- A selection and a deletion that begin together. -/
def selectAndDelete : List AppEvent :=
  [.invoke (selectConfig "a"), .invoke (deleteConfig "a"), .take 0, .take 1]

/-- **A selection and a deletion wait for each other.** -/
theorem select_delete_deadlock : ¬ ∀ es s, Run.exec AppState.step (.start ([], "a")) es = some s →
    ¬ Deadlock s.parties := by
  intro h
  refine h selectAndDelete _ rfl ⟨0, 1, ⟨[.configs], [.activeConfigId]⟩, ⟨[.activeConfigId], [.configs]⟩, by decide,
    rfl, rfl, ⟨.configs, rfl, by simp⟩, .activeConfigId, rfl, by simp⟩

end

end RXCore
