import RXCore.Outbound.Metered
import RXCore.Outbound.Relay

/-!
# The accounts of the VLESS client outbound

The handler lets `copy_bidirectional` run to its end and counts then. What it is given are the bytes to the server and
the bytes from the server; on an error it is given nothing.

* `VlessCopy`, `VlessCopy.step`: the handler from its copy on, with the counters of the connection and of all accounts;
* `VlessCopy.pipe_relay`: a step of it is a step of the handler;
* `VlessCopy.Exact`: the counters have grown by what was passed on, as those of the freedom outbound do;
* `VlessCopy.Even`: nothing was passed on, or as much in one direction as in the other;
* `VlessCopy.Kept`: what holds along a run;
* **`totals_exact_iff`**: a handler that returns leaves exact accounts if and only if its traffic was even;
* **`totals_swapped`**: three bytes to the server are counted as three from it.
-/

set_option autoImplicit false

namespace RXCore

open Arrivals

/-! ## The handler -/

/-- The bytes that `handle` adds to the counters `rx` and `tx`: what `copy_bidirectional` returns, or nothing. -/
def vlessTotals (up down : Pipe) (upBytes downBytes : ℕ) : ℕ × ℕ :=
  match up.ended, down.ended with
  | some true, some true => (upBytes, downBytes)
  | _, _ => (0, 0)

/-- The handler from its copy on. -/
structure VlessCopy where
  up : Pipe
  down : Pipe
  upBytes : ℕ
  downBytes : ℕ
  /-- The bytes passed on to the server. -/
  toServer : ℕ
  /-- The bytes passed on to the client. -/
  toClient : ℕ
  /-- The counters `rx` and `tx` of the connection. -/
  connection : ℕ × ℕ
  heap : Heap
  /-- The counters of the accounts without what the handler has added. -/
  base : ℕ → ℕ × ℕ
  returned : Bool

inductive VlessCopyEvent where
  /-- A step of a direction; at the end of its input it shuts its writer down. -/
  | pipe (d : Direction) (e : PipeEvent) (shutdownOk : Bool)
  /-- Other tasks count bytes for an account. -/
  | others (r rx tx : ℕ)

/-- The call, with what the counters hold. -/
def VlessCopy.start (client remote : List (Arrival UInt8)) (connection : ℕ × ℕ) (heap : Heap) : VlessCopy where
  up := .start client
  down := .start remote
  upBytes := 0
  downBytes := 0
  toServer := 0
  toClient := 0
  connection := connection
  heap := heap
  base := fun r => (heap r).traffic
  returned := false

/-- A direction whose writer cannot be shut down fails. -/
def Pipe.shutdown (ok : Bool) (p : Pipe) : Pipe :=
  if p.ended = some true ∧ ok = false then { p with ended := some false } else p

/-- What the handler does when a direction has made a step: it counts and returns if the copy is over. -/
def VlessCopy.settle (peer : TcpPeer) (header : List UInt8) (stats : Option ℕ) (s : VlessCopy) : VlessCopy :=
  let o := Relay.join s.heap peer header stats s.up s.down s.upBytes s.downBytes []
  { s with
    heap := o.heap
    connection := s.connection + vlessTotals s.up s.down s.upBytes s.downBytes
    returned := o.relay.returned }

def VlessCopy.step (peer : TcpPeer) (header : List UInt8) (stats : Option ℕ) (s : VlessCopy) :
    VlessCopyEvent → Option VlessCopy
  | .pipe .tx e shutdownOk =>
    if s.returned then none
    else (s.up.step e).map fun (up, bytes, n) => VlessCopy.settle peer header stats { s with
      up := up.shutdown shutdownOk, upBytes := s.upBytes + n, toServer := s.toServer + bytes.length }
  | .pipe .rx e shutdownOk =>
    if s.returned then none
    else (s.down.step e).map fun (down, bytes, n) => VlessCopy.settle peer header stats { s with
      down := down.shutdown shutdownOk, downBytes := s.downBytes + n, toClient := s.toClient + bytes.length }
  | .others r rx tx =>
    if s.returned then none
    else some { s with
      heap := Function.update s.heap r { s.heap r with rx := (s.heap r).rx + rx, tx := (s.heap r).tx + tx }
      base := Function.update s.base r (s.base r + (rx, tx)) }

/-- The counters of the connection and of its account have grown by the bytes passed on, and no others have. -/
structure VlessCopy.Exact (user : Option ℕ) (connection : ℕ × ℕ) (s : VlessCopy) : Prop where
  connection : s.connection = connection + (s.toClient, s.toServer)
  accounts : ∀ r, (s.heap r).traffic = s.base r + if user = some r then (s.toClient, s.toServer) else 0

/-- Nothing was passed on; or both directions have ended well, with as many bytes up as down, and the account that was
found by its e-mail address is the account of the connection. -/
def VlessCopy.Even (stats user : Option ℕ) (s : VlessCopy) : Prop :=
  (s.toServer = 0 ∧ s.toClient = 0) ∨
    (s.up.ended = some true ∧ s.down.ended = some true ∧ s.toServer = s.toClient ∧ stats = user)

section

variable {peer : TcpPeer} {header : List UInt8} {stats user : Option ℕ} {connection : ℕ × ℕ} {s s' : VlessCopy}

/-- **A step of a direction is a step of the handler.** -/
theorem VlessCopy.pipe_relay (X : Crates) (engine : EngineState) (connId : Uuid) {d : Direction} {e : PipeEvent}
    (h : s.step peer header stats (.pipe d e true) = some s') :
    ∃ o, (Relay.vless peer header stats s.up s.down s.upBytes s.downBytes).step X { engine with heap := s.heap } connId
      (.pipe d e) = some o ∧ o.heap = s'.heap ∧ o.relay.returned = s'.returned := by
  have hjoin : ∀ (up down : Pipe) (i j : ℕ) (sent : List Egress),
      (Relay.join s.heap peer header stats up down i j sent).heap =
          (Relay.join s.heap peer header stats up down i j []).heap ∧
        (Relay.join s.heap peer header stats up down i j sent).relay =
          (Relay.join s.heap peer header stats up down i j []).relay := by
    intro up down i j sent
    unfold Relay.join
    split <;> exact ⟨rfl, rfl⟩
  have hshutdown : ∀ p : Pipe, p.shutdown true = p := fun p => if_neg fun h => nomatch h.2
  cases d with
  | tx =>
    simp only [VlessCopy.step] at h
    split_ifs at h
    obtain ⟨⟨up, bytes, n⟩, hstep, rfl⟩ := Option.map_eq_some_iff.mp h
    obtain ⟨hheap, hrelay⟩ := hjoin up s.down (s.upBytes + n) s.downBytes (forwardTcp peer .tx bytes)
    refine ⟨_, by rw [Relay.step, hstep]; rfl, ?_, ?_⟩
    · simp only [VlessCopy.settle, hshutdown, hheap]
    · simp only [VlessCopy.settle, hshutdown, hrelay]
  | rx =>
    simp only [VlessCopy.step] at h
    split_ifs at h
    obtain ⟨⟨down, bytes, n⟩, hstep, rfl⟩ := Option.map_eq_some_iff.mp h
    obtain ⟨hheap, hrelay⟩ := hjoin s.up down s.upBytes (s.downBytes + n) (forwardTcp peer .rx bytes)
    refine ⟨_, by rw [Relay.step, hstep]; rfl, ?_, ?_⟩
    · simp only [VlessCopy.settle, hshutdown, hheap]
    · simp only [VlessCopy.settle, hshutdown, hrelay]

/-! ## Runs -/

/-- Both directions have ended well, or one has failed. -/
def copyOver (up down : Pipe) : Prop :=
  up.ended = some false ∨ down.ended = some false ∨ (up.ended = some true ∧ down.ended = some true)

theorem countBytes_traffic (heap : Heap) (stats : Option ℕ) (d : Direction) (n r : ℕ) :
    (countBytes heap stats d n r).traffic = if stats = some r then d.add (heap r).traffic n else (heap r).traffic := by
  cases stats with
  | none => rfl
  | some k =>
    rw [countBytes]
    by_cases hr : r = k
    · subst hr
      rw [Function.update_self, if_pos rfl]
      cases d <;> rfl
    · rw [Function.update_of_ne hr, if_neg fun h => hr (Option.some.inj h).symm]

/-- What the end of the copy counts, and when it is over. -/
theorem join_totals (peer : TcpPeer) (header : List UInt8) (stats : Option ℕ) (heap : Heap) (up down : Pipe)
    (upBytes downBytes : ℕ) :
    (∀ r, ((Relay.join heap peer header stats up down upBytes downBytes []).heap r).traffic =
      (heap r).traffic + if stats = some r then vlessTotals up down upBytes downBytes else 0) ∧
    ((Relay.join heap peer header stats up down upBytes downBytes []).relay.returned = true ↔ copyOver up down) := by
  have hzero : ∀ r : ℕ, (if stats = some r then ((0, 0) : ℕ × ℕ) else 0) = 0 := fun r => ite_self _
  rw [Relay.join, vlessTotals, copyOver]
  rcases hup : up.ended with _ | _ | _ <;> rcases hdown : down.ended with _ | _ | _
  case some.true.some.true =>
    refine ⟨fun r => ?_, by simp [Relay.returned]⟩
    simp only [countBytes_traffic]
    split_ifs
    · simp [Direction.add, Prod.ext_iff]
    · rfl
  all_goals exact ⟨fun r => by simp [hzero], by simp [Relay.returned]⟩

/-- What holds along a run: a direction that has not failed has counted what it has passed on, and the counters have
grown by the totals of a copy that has ended well. -/
structure VlessCopy.Kept (stats : Option ℕ) (connection : ℕ × ℕ) (s : VlessCopy) : Prop where
  up : s.up.ended ≠ some false → s.upBytes = s.toServer
  down : s.down.ended ≠ some false → s.downBytes = s.toClient
  returned : s.returned = true ↔ copyOver s.up s.down
  connection : s.connection = connection + vlessTotals s.up s.down s.upBytes s.downBytes
  accounts : ∀ r, (s.heap r).traffic =
    s.base r + if stats = some r then vlessTotals s.up s.down s.upBytes s.downBytes else 0

/-- Nothing is counted before the copy is over. -/
theorem vlessTotals_of_open {up down : Pipe} (h : ¬ copyOver up down) (upBytes downBytes : ℕ) :
    vlessTotals up down upBytes downBytes = 0 := by
  rw [vlessTotals]
  split
  · next hup hdown => exact absurd (.inr (.inr ⟨hup, hdown⟩)) h
  · rfl

/-- A handler that runs on has counted nothing. -/
theorem VlessCopy.Kept.uncounted (h : s.Kept stats connection) (hreturned : ¬ s.returned = true) :
    s.connection = connection ∧ ∀ r, (s.heap r).traffic = s.base r := by
  have htotals := vlessTotals_of_open (fun hover => hreturned (h.returned.mpr hover)) s.upBytes s.downBytes
  have hconnection := h.connection
  have haccounts := h.accounts
  rw [htotals] at hconnection
  simp only [htotals, ite_self, add_zero] at hconnection haccounts
  exact ⟨hconnection, haccounts⟩

/-- A direction that has made a step. -/
theorem VlessCopy.settle_kept (hup : s.up.ended ≠ some false → s.upBytes = s.toServer)
    (hdown : s.down.ended ≠ some false → s.downBytes = s.toClient) (hconnection : s.connection = connection)
    (haccounts : ∀ r, (s.heap r).traffic = s.base r) : (s.settle peer header stats).Kept stats connection := by
  obtain ⟨htotals, hover⟩ := join_totals peer header stats s.heap s.up s.down s.upBytes s.downBytes
  refine ⟨hup, hdown, hover, congrArg (· + _) hconnection, fun r => ?_⟩
  exact (htotals r).trans (congrArg (· + _) (haccounts r))

theorem Pipe.shutdown_failed {p : Pipe} {ok : Bool} (h : (p.shutdown ok).ended ≠ some false) :
    p.ended ≠ some false := by
  intro hfailed
  refine h ?_
  rw [Pipe.shutdown, if_neg (fun h => by rw [hfailed] at h; cases h.1)]
  exact hfailed

/-- A direction counts what it passes on, unless it fails. -/
theorem Pipe.step_counts {p p' : Pipe} {e : PipeEvent} {bytes : List UInt8} {n : ℕ} (h : p.step e = some (p', bytes, n))
    (hended : p'.ended ≠ some false) : p.ended ≠ some false ∧ n = bytes.length := by
  unfold Pipe.step at h
  split_ifs at h with hopen
  refine ⟨fun hfailed => hopen (by rw [hfailed]; rfl), ?_⟩
  split at h
  · split at h
    all_goals
      obtain ⟨-, h⟩ := Prod.mk.inj (Option.some.inj h)
      obtain ⟨rfl, rfl⟩ := Prod.mk.inj h
      rfl
  · obtain ⟨-, h⟩ := Prod.mk.inj (Option.some.inj h)
    obtain ⟨rfl, rfl⟩ := Prod.mk.inj h
    rfl
  · obtain ⟨rfl, -⟩ := Prod.mk.inj (Option.some.inj h)
    exact absurd rfl hended
  · cases h

/-- **A step of the handler** keeps all this. -/
theorem VlessCopy.Kept.step (h : s.Kept stats connection) {e : VlessCopyEvent}
    (hs : s.step peer header stats e = some s') : s'.Kept stats connection := by
  cases e with
  | pipe d e shutdownOk =>
    cases d with
    | tx =>
      simp only [VlessCopy.step] at hs
      split_ifs at hs with hreturned
      obtain ⟨hconnection, haccounts⟩ := h.uncounted hreturned
      obtain ⟨⟨up, bytes, n⟩, hstep, rfl⟩ := Option.map_eq_some_iff.mp hs
      refine VlessCopy.settle_kept (fun hended => ?_) h.down hconnection haccounts
      obtain ⟨hopen, rfl⟩ := Pipe.step_counts hstep (Pipe.shutdown_failed hended)
      exact congrArg (· + bytes.length) (h.up hopen)
    | rx =>
      simp only [VlessCopy.step] at hs
      split_ifs at hs with hreturned
      obtain ⟨hconnection, haccounts⟩ := h.uncounted hreturned
      obtain ⟨⟨down, bytes, n⟩, hstep, rfl⟩ := Option.map_eq_some_iff.mp hs
      refine VlessCopy.settle_kept h.up (fun hended => ?_) hconnection haccounts
      obtain ⟨hopen, rfl⟩ := Pipe.step_counts hstep (Pipe.shutdown_failed hended)
      exact congrArg (· + bytes.length) (h.down hopen)
  | others k rx tx =>
    simp only [VlessCopy.step] at hs
    split_ifs at hs with hreturned
    obtain rfl := Option.some.inj hs
    refine ⟨h.up, h.down, h.returned, h.connection, fun r => ?_⟩
    have haccounts := h.accounts r
    dsimp only
    by_cases hr : r = k
    · subst hr
      rw [Function.update_self, Function.update_self, add_right_comm, ← haccounts]
      rfl
    · rw [Function.update_of_ne hr, Function.update_of_ne hr]
      exact haccounts

theorem VlessCopy.start_kept (client remote : List (Arrival UInt8)) (connection : ℕ × ℕ) (heap : Heap) :
    (VlessCopy.start client remote connection heap).Kept stats connection :=
  ⟨fun _ => rfl, fun _ => rfl, by simp [VlessCopy.start, Pipe.start, copyOver], rfl,
    fun r => by simp [VlessCopy.start, Pipe.start, vlessTotals]⟩

/-- Counters that are to grow by the bytes passed on in a direction, and grow by those of the other. -/
theorem swapped_iff {up down : ℕ} : ((up, down) = (down, up) ∧ ∀ r, (if stats = some r then (up, down) else 0) =
      if user = some r then (down, up) else (0 : ℕ × ℕ)) ↔
    (up = 0 ∧ down = 0) ∨ (up = down ∧ stats = user) := by
  constructor
  · rintro ⟨hsame, haccounts⟩
    obtain rfl : up = down := (Prod.mk.inj hsame).1
    rcases Nat.eq_zero_or_pos up with hzero | hpos
    · exact .inl ⟨hzero, hzero⟩
    refine .inr ⟨rfl, Option.ext fun r => ?_⟩
    have hne : ((up, up) : ℕ × ℕ) ≠ 0 := fun h => hpos.ne' (Prod.mk.inj h).1
    have haccount := haccounts r
    constructor
    · intro hstats
      rw [if_pos hstats] at haccount
      by_contra huser
      rw [if_neg huser] at haccount
      exact hne haccount
    · intro huser
      rw [if_pos huser] at haccount
      by_contra hstats
      rw [if_neg hstats] at haccount
      exact hne haccount.symm
  · rintro (⟨rfl, rfl⟩ | ⟨rfl, rfl⟩)
    · exact ⟨rfl, fun r => (ite_self _).trans (ite_self _).symm⟩
    · exact ⟨rfl, fun r => rfl⟩

/-- Where both directions have ended well, each counter has grown by the bytes of the other direction. -/
theorem VlessCopy.Kept.exact_iff_of_ended (h : s.Kept stats connection) (hup : s.up.ended = some true)
    (hdown : s.down.ended = some true) : s.Exact user connection ↔ s.Even stats user := by
  have hconnection := h.connection
  have haccounts := h.accounts
  have htotals : vlessTotals s.up s.down s.upBytes s.downBytes = (s.toServer, s.toClient) := by
    rw [vlessTotals, hup, hdown, h.up (by rw [hup]; nofun), h.down (by rw [hdown]; nofun)]
  have heven : s.Even stats user ↔ (s.toServer = 0 ∧ s.toClient = 0) ∨ (s.toServer = s.toClient ∧ stats = user) := by
    rw [VlessCopy.Even, and_iff_right hup, and_iff_right hdown]
  rw [heven, ← swapped_iff]
  rw [htotals] at hconnection
  simp only [htotals] at haccounts
  constructor
  · rintro ⟨hconn, hacc⟩
    exact ⟨add_left_cancel (hconnection.symm.trans hconn),
      fun r => add_left_cancel ((haccounts r).symm.trans (hacc r))⟩
  · rintro ⟨hsame, hacc⟩
    exact ⟨by rw [hconnection, hsame], fun r => by rw [haccounts, hacc]⟩

/-- Where a direction has failed, or is at work, nothing is counted. -/
theorem VlessCopy.Kept.exact_iff_of_not_ended (h : s.Kept stats connection)
    (hended : ¬ (s.up.ended = some true ∧ s.down.ended = some true)) :
    s.Exact user connection ↔ s.Even stats user := by
  have hconnection := h.connection
  have haccounts := h.accounts
  have htotals : vlessTotals s.up s.down s.upBytes s.downBytes = 0 := by
    rw [vlessTotals]
    split
    · next hup hdown => exact absurd ⟨hup, hdown⟩ hended
    · rfl
  rw [htotals, add_zero] at hconnection
  simp only [htotals, ite_self, add_zero] at haccounts
  constructor
  · rintro ⟨hconn, -⟩
    have hzero : (s.toClient, s.toServer) = (0 : ℕ × ℕ) := left_eq_add.mp (hconnection.symm.trans hconn)
    exact .inl ⟨congrArg Prod.snd hzero, congrArg Prod.fst hzero⟩
  · rintro (⟨hserver, hclient⟩ | ⟨hup, hdown, -⟩)
    · have hzero : ∀ r, (if user = some r then ((0, 0) : ℕ × ℕ) else 0) = 0 := fun r => ite_self _
      refine ⟨?_, fun r => by rw [haccounts, hserver, hclient, hzero, add_zero]⟩
      rw [hconnection, hserver, hclient]
      rfl
    · exact absurd ⟨hup, hdown⟩ hended

/-- **What is counted at the end**, against what was passed on. -/
theorem VlessCopy.Kept.exact_iff (h : s.Kept stats connection) : s.Exact user connection ↔ s.Even stats user := by
  by_cases hended : s.up.ended = some true ∧ s.down.ended = some true
  · exact h.exact_iff_of_ended hended.1 hended.2
  · exact h.exact_iff_of_not_ended hended

end

/-- **A handler leaves exact accounts if and only if its traffic was even**, however its copy ends. -/
theorem totals_exact_iff (peer : TcpPeer) (header : List UInt8) (stats user : Option ℕ)
    (client remote : List (Arrival UInt8)) (connection : ℕ × ℕ) (heap : Heap) (events : List VlessCopyEvent)
    {s : VlessCopy}
    (hrun : Run.exec (VlessCopy.step peer header stats) (.start client remote connection heap) events = some s) :
    s.Exact user connection ↔ s.Even stats user := by
  have hkept : s.Kept stats connection :=
    Run.exec_invariant (fun _ _ _ hI hs => hI.step hs) (VlessCopy.start_kept client remote connection heap) hrun
  exact hkept.exact_iff

/-- All accounts with nothing counted. -/
def idleHeap : Heap := fun _ => ⟨"1", some "a", 0, 0, 0, 0, -1, 0, 0, none, none, none⟩

/-- A byte goes up and a byte comes down; then both ends are done. -/
def oneEach : List VlessCopyEvent :=
  [.pipe .tx .read true, .pipe .rx .read true, .pipe .tx (.write none) true, .pipe .rx (.write none) true,
    .pipe .rx .read true, .others 7 0 1, .pipe .tx .read true]

/-- **A run with a byte in each direction.** -/
theorem totals_exact_oneEach : ∃ s, Run.exec (VlessCopy.step (.direct ⟨.v4 .localhost, 443⟩) [] (some 0))
    (.start [.data [71]] [.data [72]] (0, 0) idleHeap) oneEach = some s ∧ s.Exact (some 0) (0, 0) := by
  refine ⟨_, rfl, (totals_exact_iff (.direct ⟨.v4 .localhost, 443⟩) [] (some 0) (some 0) [.data [71]] [.data [72]]
    (0, 0) idleHeap oneEach rfl).mpr (.inr ⟨rfl, rfl, rfl, rfl⟩)⟩

/-- Three bytes go up and none comes down. -/
def upOnly : List VlessCopyEvent :=
  [.pipe .tx .read true, .pipe .tx (.write none) true, .pipe .tx .read true, .pipe .rx .read true]

/-- **Three bytes to the server are counted as three from it**, for the connection and for its account. -/
theorem totals_swapped : ∃ s, Run.exec (VlessCopy.step (.direct ⟨.v4 .localhost, 443⟩) [] (some 0))
    (.start [.data [71, 69, 84]] [] (0, 0) idleHeap) upOnly = some s ∧ s.returned = true ∧
      s.toServer = 3 ∧ s.toClient = 0 ∧ s.connection = (3, 0) ∧ (s.heap 0).traffic = (3, 0) ∧
        ¬ s.Exact (some 0) (0, 0) := by
  refine ⟨_, rfl, rfl, rfl, rfl, rfl, rfl, fun h => ?_⟩
  have hconnection := h.connection
  exact absurd hconnection (by decide)

end RXCore
