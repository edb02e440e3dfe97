import RXCore.Lib.Arrivals
import RXCore.Lib.Run

/-!
# Parties that talk over channels

A party reads from channels and writes to them until it is done or has failed. In a network every channel is read by
one party and written by one party. A step moves a single symbol, so that the pieces in which data arrives are a
part of the order of the steps.

* `Settles`: every run comes to the same end after the same number of steps; **`settles_of_comm`**: steps that
  commute, and one run to an end, are enough;
* `Party`, with its `bind`; `Party.Takes`: what a party reads and writes; `Party.Exchange`: two parties that talk;
* `Party.Moves`: one step of a party, `Party.advance_iff`; **`Party.Moves.comm`**;
* `Net`, `Net.step`: a network under any schedule; `Net.Private`; **`Net.settles`**;
* `Net.reach_takes`, `Net.reach_exchange`: what the parties say is a run;
* `pair`, **`pair_settles`**: two parties and the two directions between them;
* `Party.serve`: a party alone, over what arrives; **`Party.serve_ok_iff`**: when it is done.
-/

set_option autoImplicit false

namespace Dialogue

open Arrivals Run

/-! ## Steps that commute -/

section

variable {σ α : Type*} {step : σ → α → Option σ} {s t u v : σ}

/-- Every run from `s` can go on to `t`, where nothing can be done, and takes `n` steps in all. -/
def Settles (step : σ → α → Option σ) (s t : σ) : Prop :=
  (∀ a, step t a = none) ∧
    ∃ n, ∀ as u, exec step s as = some u → ∃ bs, exec step u bs = some t ∧ as.length + bs.length = n

/-- A step that is taken first is a step that the run need not take later. -/
theorem exec_of_step_first {I : σ → Prop} (hI : ∀ s a s', I s → step s a = some s' → I s')
    (hcomm : ∀ s a b t u, I s → a ≠ b → step s a = some t → step s b = some u →
      ∃ v, step t b = some v ∧ step u a = some v)
    (hend : ∀ a, step t a = none) {as : List α} {a : α} (hs : I s) (h : exec step s as = some t)
    (ha : step s a = some u) : ∃ bs, exec step u bs = some t ∧ bs.length + 1 = as.length := by
  induction as generalizing s u with
  | nil =>
    obtain rfl := Option.some.inj h
    rw [hend a] at ha
    cases ha
  | cons b as ih =>
    obtain ⟨s', hb, h⟩ := exec_cons_some h
    by_cases hab : a = b
    · subst hab
      obtain rfl := Option.some.inj (ha.symm.trans hb)
      exact ⟨as, h, rfl⟩
    · obtain ⟨w, hw, hw'⟩ := hcomm s a b u s' hs hab ha hb
      obtain ⟨bs, hbs, hlen⟩ := ih (hI s b s' hs hb) h hw'
      exact ⟨b :: bs, (exec_cons_of_step hw bs).trans hbs, by rw [List.length_cons, List.length_cons, hlen]⟩

/-- **One run is as good as every other**, where the steps commute. -/
theorem settles_of_comm {I : σ → Prop} (hI : ∀ s a s', I s → step s a = some s' → I s')
    (hcomm : ∀ s a b t u, I s → a ≠ b → step s a = some t → step s b = some u →
      ∃ v, step t b = some v ∧ step u a = some v)
    (hs : I s) (h : Reachable step s t) (hend : ∀ a, step t a = none) : Settles step s t := by
  obtain ⟨as, has⟩ := h
  refine ⟨hend, as.length, fun bs u hbs => ?_⟩
  -- the run is followed step by step, each time with what is then left of the given one
  induction bs generalizing s as with
  | nil =>
    obtain rfl := Option.some.inj hbs
    exact ⟨as, has, Nat.zero_add _⟩
  | cons b bs ih =>
    obtain ⟨s', hb, hbs⟩ := exec_cons_some hbs
    obtain ⟨cs, hcs, hlen⟩ := exec_of_step_first hI hcomm hend hs has hb
    obtain ⟨ds, hds, hsum⟩ := ih (hI s b s' hs hb) cs hcs hbs
    exact ⟨ds, hds, by rw [List.length_cons]; omega⟩

end

/-! ## Parties -/

/-- A party with channels `κ` for symbols `β`. It reads a number of symbols from a channel, or writes some to one. -/
inductive Party (κ β ε α : Type) where
  | done (a : α)
  | fail (e : ε)
  | read (c : κ) (n : ℕ) (next : List β → Party κ β ε α)
  | write (c : κ) (bs : List β) (next : Party κ β ε α)

namespace Party

variable {κ β ε α γ : Type}

def bind : Party κ β ε α → (α → Party κ β ε γ) → Party κ β ε γ
  | done a, f => f a
  | fail e, _ => fail e
  | read c n next, f => read c n fun bs => (next bs).bind f
  | write c bs next, f => write c bs (next.bind f)

instance : Monad (Party κ β ε) where
  pure := done
  bind := bind

/-- `read_exact`. -/
def recv (c : κ) (n : ℕ) : Party κ β ε (List β) := read c n done

/-- `write_all`. -/
def send (c : κ) (bs : List β) : Party κ β ε Unit := write c bs (done ())

/-- A party fails if a condition holds. -/
def refuse (p : Prop) [Decidable p] (e : ε) : Party κ β ε Unit := if p then fail e else done ()

section

variable (f : α → Party κ β ε γ) (c : κ) (bs : List β)

@[simp] theorem pure_eq (a : α) : (pure a : Party κ β ε α) = done a := rfl
@[simp] theorem done_bind (a : α) : done a >>= f = f a := rfl
@[simp] theorem fail_bind (e : ε) : (fail e : Party κ β ε α) >>= f = fail e := rfl
@[simp] theorem read_bind (n : ℕ) (next : List β → Party κ β ε α) :
    read c n next >>= f = read c n fun bs => next bs >>= f := rfl
@[simp] theorem write_bind (next : Party κ β ε α) : write c bs next >>= f = write c bs (next >>= f) := rfl
@[simp] theorem recv_bind (n : ℕ) (f : List β → Party κ β ε γ) : recv c n >>= f = read c n f := rfl
@[simp] theorem send_bind (f : Unit → Party κ β ε γ) : send c bs >>= f = write c bs (f ()) := rfl

theorem refuse_of_not {p : Prop} [Decidable p] (h : ¬ p) (e : ε) : (refuse p e : Party κ β ε Unit) = done () :=
  if_neg h

end

theorem bind_pure (p : Party κ β ε α) : p >>= pure = p := by
  induction p with
  | done a => rfl
  | fail e => rfl
  | read c n next ih => exact congrArg (read c n) (funext ih)
  | write c bs next ih => exact congrArg (write c bs) ih

theorem bind_assoc {δ : Type} (p : Party κ β ε α) (f : α → Party κ β ε γ) (g : γ → Party κ β ε δ) :
    p >>= f >>= g = p >>= fun a => f a >>= g := by
  induction p with
  | done a => rfl
  | fail e => rfl
  | read c n next ih => exact congrArg (read c n) (funext ih)
  | write c bs next ih => exact congrArg (write c bs) ih

/-- The channels that a party reads are among `reads`, those that it writes among `writes`. -/
def Within (reads writes : κ → Prop) : Party κ β ε α → Prop
  | done _ => True
  | fail _ => True
  | read c _ next => reads c ∧ ∀ bs, (next bs).Within reads writes
  | write c _ next => writes c ∧ next.Within reads writes

theorem Within.imp {reads writes reads' writes' : κ → Prop} (hr : ∀ c, reads c → reads' c) (hw : ∀ c, writes c → writes' c)
    {p : Party κ β ε α} (h : p.Within reads writes) : p.Within reads' writes' := by
  induction p with
  | done a => trivial
  | fail e => trivial
  | read c n next ih => exact ⟨hr c h.1, fun bs => ih bs (h.2 bs)⟩
  | write c bs next ih => exact ⟨hw c h.1, ih h.2⟩

theorem Within.bind {reads writes : κ → Prop} {p : Party κ β ε α} {f : α → Party κ β ε γ}
    (hp : p.Within reads writes) (hf : ∀ a, (f a).Within reads writes) : (p >>= f).Within reads writes := by
  induction p with
  | done a => exact hf a
  | fail e => trivial
  | read c n next ih => exact ⟨hp.1, fun bs => ih bs (hp.2 bs)⟩
  | write c bs next ih => exact ⟨hp.1, ih hp.2⟩

theorem Within.recv {reads writes : κ → Prop} {c : κ} (h : reads c) (n : ℕ) :
    (recv c n : Party κ β ε (List β)).Within reads writes := ⟨h, fun _ => trivial⟩

theorem Within.send {reads writes : κ → Prop} {c : κ} (h : writes c) (bs : List β) :
    (send c bs : Party κ β ε Unit).Within reads writes := ⟨h, trivial⟩

theorem Within.refuse {reads writes : κ → Prop} (p : Prop) [Decidable p] (e : ε) :
    (refuse p e : Party κ β ε Unit).Within reads writes := by
  unfold Party.refuse
  split_ifs
  · trivial
  · trivial

/-- A party reads `ins` from one channel, writes `outs` to another, and is then another party. -/
inductive Takes (inp out : κ) : Party κ β ε α → List β → List β → Party κ β ε α → Prop where
  | refl (p : Party κ β ε α) : Takes inp out p [] [] p
  | read {n : ℕ} {next : List β → Party κ β ε α} {bs ins outs : List β} {p : Party κ β ε α} (hn : bs.length = n)
      (h : Takes inp out (next bs) ins outs p) : Takes inp out (.read inp n next) (bs ++ ins) outs p
  | write {bs ins outs : List β} {next p : Party κ β ε α} (h : Takes inp out next ins outs p) :
      Takes inp out (.write out bs next) ins (bs ++ outs) p

section

variable {inp out : κ} {p q r : Party κ β ε α} {ins ins' outs outs' : List β}

theorem Takes.trans (h : Takes inp out p ins outs q) (h' : Takes inp out q ins' outs' r) :
    Takes inp out p (ins ++ ins') (outs ++ outs') r := by
  induction h with
  | refl p => exact h'
  | read hn _ ih =>
    rw [List.append_assoc]
    exact .read hn (ih h')
  | write _ ih =>
    rw [List.append_assoc]
    exact .write (ih h')

theorem takes_done_iff {a a' : α} : Takes (ε := ε) inp out (done a) ins outs (done a') ↔ ins = [] ∧ outs = [] ∧ a = a' := by
  constructor
  · intro h
    cases h
    exact ⟨rfl, rfl, rfl⟩
  · rintro ⟨rfl, rfl, rfl⟩
    exact .refl _

theorem not_takes_fail {e : ε} {a : α} : ¬ Takes inp out (fail e) ins outs (done a) := by
  intro h
  cases h

theorem takes_read_iff {n : ℕ} {next : List β → Party κ β ε α} {a : α} : Takes inp out (.read inp n next) ins outs (done a) ↔
    ∃ bs rest, bs.length = n ∧ ins = bs ++ rest ∧ Takes inp out (next bs) rest outs (done a) := by
  constructor
  · intro h
    cases h with
    | read hn h => exact ⟨_, _, hn, rfl, h⟩
  · rintro ⟨bs, rest, hn, rfl, h⟩
    exact .read hn h

theorem takes_write_iff {bs : List β} {a : α} : Takes inp out (.write out bs p) ins outs (done a) ↔
    ∃ rest, outs = bs ++ rest ∧ Takes inp out p ins rest (done a) := by
  constructor
  · intro h
    cases h with
    | write h => exact ⟨_, rfl, h⟩
  · rintro ⟨rest, rfl, h⟩
    exact .write h

/-- A party that writes. -/
theorem takes_write (inp out : κ) (bs : List β) (p : Party κ β ε α) : Takes inp out (.write out bs p) [] bs p := by
  have h : Takes inp out (.write out bs p) [] (bs ++ []) p := .write (.refl p)
  rwa [List.append_nil] at h

theorem takes_refuse {e : ε} {c : Prop} [Decidable c] {f : Unit → Party κ β ε α} {a : α}
    (h : Takes inp out (refuse c e >>= f) ins outs (done a)) : ¬ c ∧ Takes inp out (f ()) ins outs (done a) := by
  unfold refuse at h
  split_ifs at h with hc
  · exact absurd h not_takes_fail
  · exact ⟨hc, h⟩

theorem Takes.bind (h : Takes inp out p ins outs q) (f : α → Party κ β ε γ) :
    Takes inp out (p >>= f) ins outs (q >>= f) := by
  induction h with
  | refl p => exact .refl _
  | read hn _ ih => exact .read hn ih
  | write _ ih => exact .write ih

end

/-- Two parties that talk, each in turn, with what is on its way up and down before and after. -/
inductive Exchange (upward downward : κ) : Party κ β ε α → Party κ β ε γ → List β → List β →
    Party κ β ε α → Party κ β ε γ → List β → List β → Prop where
  | refl (p : Party κ β ε α) (q : Party κ β ε γ) (up down : List β) :
      Exchange upward downward p q up down p q up down
  | client {p p₁ p' : Party κ β ε α} {q q' : Party κ β ε γ} {ins outs up down up' down' : List β}
      (h : Takes downward upward p ins outs p₁)
      (hrest : Exchange upward downward p₁ q (up ++ outs) down p' q' up' down') :
      Exchange upward downward p q up (ins ++ down) p' q' up' down'
  | server {p p' : Party κ β ε α} {q q₁ q' : Party κ β ε γ} {ins outs up down up' down' : List β}
      (h : Takes upward downward q ins outs q₁)
      (hrest : Exchange upward downward p q₁ up (down ++ outs) p' q' up' down') :
      Exchange upward downward p q (ins ++ up) down p' q' up' down'

section

variable {upward downward : κ} {p p' p'' : Party κ β ε α} {q q' q'' : Party κ β ε γ}
  {ins outs up down up' down' up'' down'' : List β}

theorem Exchange.trans (h : Exchange upward downward p q up down p' q' up' down')
    (h' : Exchange upward downward p' q' up' down' p'' q'' up'' down'') :
    Exchange upward downward p q up down p'' q'' up'' down'' := by
  induction h with
  | refl p q up down => exact h'
  | client h _ ih => exact .client h (ih h')
  | server h _ ih => exact .server h (ih h')

/-- The client has its turn where nothing is left to it. -/
theorem Exchange.ask (h : Takes downward upward p ins outs p') (q : Party κ β ε γ) (up : List β) :
    Exchange upward downward p q up ins p' q (up ++ outs) [] := by
  have hturn : Exchange upward downward p q up (ins ++ []) p' q (up ++ outs) [] := .client h (.refl ..)
  rwa [List.append_nil] at hturn

/-- The server has its turn where nothing is left to it. -/
theorem Exchange.reply (h : Takes upward downward q ins outs q') (p : Party κ β ε α) (down : List β) :
    Exchange upward downward p q ins down p q' [] (down ++ outs) := by
  have hturn : Exchange upward downward p q (ins ++ []) down p q' [] (down ++ outs) := .server h (.refl ..)
  rwa [List.append_nil] at hturn

end

/-! ## One step of a party -/

variable [DecidableEq κ]

/-- A step: a symbol is read or written, or a read or a write is complete. -/
def advance (chans : κ → List β) : Party κ β ε α → Option (Party κ β ε α × (κ → List β))
  | done _ => none
  | fail _ => none
  | read _ 0 next => some (next [], chans)
  | read c (n + 1) next => match chans c with
    | [] => none
    | b :: bs => some (read c n fun cs => next (b :: cs), Function.update chans c bs)
  | write _ [] next => some (next, chans)
  | write c (b :: bs) next => some (write c bs next, Function.update chans c (chans c ++ [b]))

/-- The steps of a party, by what they do. -/
inductive Moves (chans : κ → List β) : Party κ β ε α → Party κ β ε α → (κ → List β) → Prop where
  | haveRead {c : κ} {next : List β → Party κ β ε α} : Moves chans (read c 0 next) (next []) chans
  | take {c : κ} {n : ℕ} {next : List β → Party κ β ε α} {b : β} {bs : List β} (h : chans c = b :: bs) :
      Moves chans (read c (n + 1) next) (read c n fun cs => next (b :: cs)) (Function.update chans c bs)
  | haveWritten {c : κ} {next : Party κ β ε α} : Moves chans (write c [] next) next chans
  | put {c : κ} {b : β} {bs : List β} {next : Party κ β ε α} :
      Moves chans (write c (b :: bs) next) (write c bs next) (Function.update chans c (chans c ++ [b]))

theorem advance_iff {chans chans' : κ → List β} {p p' : Party κ β ε α} :
    p.advance chans = some (p', chans') ↔ Moves chans p p' chans' := by
  constructor
  · intro h
    cases p with
    | done a => cases h
    | fail e => cases h
    | read c n next =>
      cases n with
      | zero =>
        obtain ⟨rfl, rfl⟩ := Prod.mk.inj (Option.some.inj h)
        exact .haveRead
      | succ n =>
        rw [advance] at h
        split at h
        · cases h
        · next b bs hc =>
          obtain ⟨rfl, rfl⟩ := Prod.mk.inj (Option.some.inj h)
          exact .take hc
    | write c bs next =>
      cases bs with
      | nil =>
        obtain ⟨rfl, rfl⟩ := Prod.mk.inj (Option.some.inj h)
        exact .haveWritten
      | cons b bs =>
        obtain ⟨rfl, rfl⟩ := Prod.mk.inj (Option.some.inj h)
        exact .put
  · intro h
    cases h with
    | haveRead => rfl
    | take hc => rw [advance, hc]
    | haveWritten => rfl
    | put => rfl

theorem Moves.within {reads writes : κ → Prop} {chans chans' : κ → List β} {p p' : Party κ β ε α}
    (h : Moves chans p p' chans') (hp : p.Within reads writes) : p'.Within reads writes := by
  cases h with
  | haveRead => exact hp.2 []
  | take hc => exact ⟨hp.1, fun cs => hp.2 (_ :: cs)⟩
  | haveWritten => exact hp.2
  | put => exact ⟨hp.1, hp.2⟩

/-- What is put is appended. -/
theorem Moves.put_of_eq {chans : κ → List β} {c : κ} {cs : List β} (h : chans c = cs) {b : β} {bs : List β}
    {next : Party κ β ε α} :
    Moves chans (write c (b :: bs) next) (write c bs next) (Function.update chans c (cs ++ [b])) := by
  subst h
  exact .put

/-- To take and to put commute. -/
theorem Moves.take_put {α' : Type} {chans : κ → List β} {c c' : κ} {n : ℕ} {next : List β → Party κ β ε α} {b b' : β}
    {bs bs' : List β} {next' : Party κ β ε α'} (hc : chans c = b :: bs) :
    ∃ chans₃, Moves (Function.update chans c bs) (write c' (b' :: bs') next') (write c' bs' next') chans₃ ∧
      Moves (Function.update chans c' (chans c' ++ [b'])) (read c (n + 1) next) (read c n fun cs => next (b :: cs))
        chans₃ := by
  by_cases hcc : c = c'
  · -- the reader takes from the front, the writer appends
    subst hcc
    refine ⟨Function.update (Function.update chans c bs) c (bs ++ [b']), .put_of_eq (Function.update_self ..), ?_⟩
    have htake : Function.update chans c (chans c ++ [b']) c = b :: (bs ++ [b']) := by
      rw [Function.update_self, hc, List.cons_append]
    have hsame : Function.update (Function.update chans c bs) c (bs ++ [b']) =
        Function.update (Function.update chans c (chans c ++ [b'])) c (bs ++ [b']) := by
      rw [Function.update_idem, Function.update_idem]
    rw [hsame]
    exact .take htake
  · refine ⟨Function.update (Function.update chans c bs) c' (chans c' ++ [b']), .put_of_eq ?_, ?_⟩
    · exact Function.update_of_ne (Ne.symm hcc) _ _
    · rw [Function.update_comm hcc]
      exact .take (by rw [Function.update_of_ne hcc, hc])

/-- **Steps of two parties commute**, if no channel is read by both or written by both. -/
theorem Moves.comm {α' : Type} {reads writes reads' writes' : κ → Prop}
    (hreads : ∀ c, reads c → ¬ reads' c) (hwrites : ∀ c, writes c → ¬ writes' c) {chans chans₁ chans₂ : κ → List β}
    {p p' : Party κ β ε α} {q q' : Party κ β ε α'} (hp : p.Within reads writes) (hq : q.Within reads' writes')
    (h : Moves chans p p' chans₁) (h' : Moves chans q q' chans₂) :
    ∃ chans₃, Moves chans₁ q q' chans₃ ∧ Moves chans₂ p p' chans₃ := by
  cases h with
  | haveRead => exact ⟨_, h', .haveRead⟩
  | haveWritten => exact ⟨_, h', .haveWritten⟩
  | @take c n next b bs hc =>
    cases h' with
    | haveRead => exact ⟨_, .haveRead, .take hc⟩
    | haveWritten => exact ⟨_, .haveWritten, .take hc⟩
    | @take c' n' next' b' bs' hc' =>
      have hne : c ≠ c' := fun h => hreads c hp.1 (h ▸ hq.1)
      refine ⟨Function.update (Function.update chans c bs) c' bs', .take ?_, ?_⟩
      · rw [Function.update_of_ne hne.symm, hc']
      · rw [Function.update_comm hne]
        exact .take (by rw [Function.update_of_ne hne, hc])
    | put => exact Moves.take_put hc
  | @put c b bs next =>
    cases h' with
    | haveRead => exact ⟨_, .haveRead, .put⟩
    | haveWritten => exact ⟨_, .haveWritten, .put⟩
    | take hc' =>
      obtain ⟨chans₃, hput, htake⟩ := Moves.take_put hc'
      exact ⟨chans₃, htake, hput⟩
    | @put c' b' bs' next' =>
      have hne : c ≠ c' := fun h => hwrites c hp.1 (h ▸ hq.1)
      refine ⟨Function.update (Function.update chans c (chans c ++ [b])) c' (chans c' ++ [b']), .put_of_eq ?_, ?_⟩
      · exact Function.update_of_ne hne.symm _ _
      · rw [Function.update_comm hne]
        exact .put_of_eq (Function.update_of_ne hne _ _)

/-- A party that has ended takes no step. -/
def Ended : Party κ β ε α → Prop
  | done _ => True
  | fail _ => True
  | read _ _ _ => False
  | write _ _ _ => False

theorem Ended.advance_eq {p : Party κ β ε α} (h : p.Ended) (chans : κ → List β) : p.advance chans = none := by
  cases p with
  | done a => rfl
  | fail e => rfl
  | read c n next => cases h
  | write c bs next => cases h

end Party

/-! ## Networks -/

/-- Parties and the channels between them. -/
@[ext]
structure Net (ι κ β ε : Type) (α : ι → Type) where
  parties : ∀ i, Party κ β ε (α i)
  chans : κ → List β

/-- Who reads a channel, and who writes it. -/
structure Links (ι κ : Type) where
  reader : κ → ι
  writer : κ → ι

namespace Net

variable {ι κ β ε : Type} {α : ι → Type} [DecidableEq ι] [DecidableEq κ] {s t : Net ι κ β ε α} {L : Links ι κ}

/-- A party takes its turn. -/
def step (s : Net ι κ β ε α) (i : ι) : Option (Net ι κ β ε α) :=
  ((s.parties i).advance s.chans).map fun next => ⟨Function.update s.parties i next.1, next.2⟩

omit [DecidableEq ι] [DecidableEq κ] in
/-- Every party keeps to the channels that are its own. -/
def Private (L : Links ι κ) (s : Net ι κ β ε α) : Prop :=
  ∀ i, (s.parties i).Within (L.reader · = i) (L.writer · = i)

theorem step_iff {i : ι} : s.step i = some t ↔
    ∃ p chans, Party.Moves s.chans (s.parties i) p chans ∧ t = ⟨Function.update s.parties i p, chans⟩ := by
  rw [step, Option.map_eq_some_iff]
  constructor
  · rintro ⟨⟨p, chans⟩, h, rfl⟩
    exact ⟨p, chans, Party.advance_iff.mp h, rfl⟩
  · rintro ⟨p, chans, h, rfl⟩
    exact ⟨(p, chans), Party.advance_iff.mpr h, rfl⟩

theorem Private.step {i : ι} (h : s.Private L) (hs : s.step i = some t) : t.Private L := by
  obtain ⟨p, chans, hmove, rfl⟩ := step_iff.mp hs
  intro j
  show (Function.update s.parties i p j).Within _ _
  by_cases hji : j = i
  · subst hji
    rw [Function.update_self]
    exact hmove.within (h j)
  · rw [Function.update_of_ne hji]
    exact h j

/-- **The steps of a network commute.** -/
theorem step_comm (h : s.Private L) {i j : ι} (hij : i ≠ j) {u : Net ι κ β ε α} (hi : s.step i = some t)
    (hj : s.step j = some u) : ∃ v, t.step j = some v ∧ u.step i = some v := by
  obtain ⟨p, chans, hp, rfl⟩ := step_iff.mp hi
  obtain ⟨q, chans', hq, rfl⟩ := step_iff.mp hj
  obtain ⟨chans₃, hq₃, hp₃⟩ := hp.comm (fun c hc hc' => hij (hc.symm.trans hc')) (fun c hc hc' => hij (hc.symm.trans hc'))
    (h i) (h j) hq
  refine ⟨⟨Function.update (Function.update s.parties i p) j q, chans₃⟩, step_iff.mpr ⟨q, chans₃, ?_, rfl⟩,
    step_iff.mpr ⟨p, chans₃, ?_, ?_⟩⟩
  · show Party.Moves chans (Function.update s.parties i p j) q chans₃
    rw [Function.update_of_ne hij.symm]
    exact hq₃
  · show Party.Moves chans' (Function.update s.parties j q i) p chans₃
    rw [Function.update_of_ne hij]
    exact hp₃
  · rw [Function.update_comm hij]

/-- **A network settles** where one of its runs ends. -/
theorem settles (h : s.Private L) (hst : Run.Reachable step s t) (hend : ∀ i, (t.parties i).Ended) :
    Settles step s t := by
  refine settles_of_comm (I := Private L) (fun _ _ _ hs ht => hs.step ht) ?_ h hst ?_
  · intro s i j t u hs hij hi hj
    exact step_comm hs hij hi hj
  · intro i
    rw [step, (hend i).advance_eq]
    rfl

/-- A whole write. -/
theorem reach_write {i : ι} {c : κ} {bs : List β} {next : Party κ β ε (α i)} (h : s.parties i = .write c bs next) :
    Run.Reachable step s
      ⟨Function.update s.parties i next, Function.update s.chans c (s.chans c ++ bs)⟩ := by
  induction bs generalizing s with
  | nil =>
    refine .single (a := i) (step_iff.mpr ⟨next, s.chans, h ▸ .haveWritten, ?_⟩)
    rw [List.append_nil, Function.update_eq_self]
  | cons b bs ih =>
    refine .trans (.single (a := i) (step_iff.mpr ⟨.write c bs next, _, by rw [h]; exact .put, rfl⟩)) ?_
    have hrest := ih (s := ⟨Function.update s.parties i (.write c bs next),
      Function.update s.chans c (s.chans c ++ [b])⟩) (Function.update_self i _ _)
    dsimp only at hrest
    rw [Function.update_idem, Function.update_idem, Function.update_self, List.append_assoc] at hrest
    exact hrest

/-- A whole read. -/
theorem reach_read {i : ι} {c : κ} {n : ℕ} {bs rest : List β} {next : List β → Party κ β ε (α i)}
    (h : s.parties i = .read c n next) (hn : bs.length = n) (hc : s.chans c = bs ++ rest) :
    Run.Reachable step s ⟨Function.update s.parties i (next bs), Function.update s.chans c rest⟩ := by
  subst hn
  induction bs generalizing s next with
  | nil =>
    refine .single (a := i) (step_iff.mpr ⟨next [], s.chans, h ▸ .haveRead, ?_⟩)
    rw [← List.nil_append rest, ← hc, Function.update_eq_self]
  | cons b bs ih =>
    refine .trans (.single (a := i) (step_iff.mpr ⟨_, _, by rw [h]; exact .take hc, rfl⟩)) ?_
    have hrest := ih (s := ⟨Function.update s.parties i (.read c bs.length fun cs => next (b :: cs)),
      Function.update s.chans c (bs ++ rest)⟩) (Function.update_self c _ _) (Function.update_self i _ _)
    rw [Function.update_idem, Function.update_idem] at hrest
    exact hrest

/-- **A party takes** what is on its way to it. -/
theorem reach_takes {i : ι} {inp out : κ} (hne : inp ≠ out) {p q : Party κ β ε (α i)} {ins outs rest : List β}
    (h : Party.Takes inp out p ins outs q) (hp : s.parties i = p) (hc : s.chans inp = ins ++ rest) :
    Run.Reachable step s ⟨Function.update s.parties i q,
      Function.update (Function.update s.chans inp rest) out (s.chans out ++ outs)⟩ := by
  induction h generalizing s with
  | refl p =>
    have hchans : Function.update (Function.update s.chans inp rest) out (s.chans out ++ []) = s.chans := by
      rw [List.append_nil, ← List.nil_append rest, ← hc, Function.update_eq_self, Function.update_eq_self]
    rw [hchans, ← hp, Function.update_eq_self]
    exact .refl _
  | read hn h ih =>
    rw [List.append_assoc] at hc
    refine (reach_read hp hn hc).trans ?_
    have hrest := ih (s := ⟨Function.update s.parties i _, Function.update s.chans inp _⟩) (Function.update_self i _ _)
      (Function.update_self inp _ _)
    dsimp only at hrest
    rw [Function.update_idem, Function.update_idem, Function.update_of_ne hne.symm] at hrest
    exact hrest
  | @write bs ins outs next p h ih =>
    refine (reach_write hp).trans ?_
    have hin : Function.update s.chans out (s.chans out ++ bs) inp = ins ++ rest := by
      rw [Function.update_of_ne hne]
      exact hc
    have hrest := ih (s := ⟨Function.update s.parties i next, Function.update s.chans out (s.chans out ++ bs)⟩)
      (Function.update_self i _ _) hin
    dsimp only at hrest
    rw [Function.update_idem, Function.update_self, List.append_assoc, Function.update_comm hne.symm,
      Function.update_idem] at hrest
    exact hrest

omit [DecidableEq ι] in
theorem update_update_of_ne {γ : κ → Type} {c d : κ} (h : c ≠ d) (f : ∀ k, γ k) (x z : γ c) (y : γ d) :
    Function.update (Function.update (Function.update f c x) d y) c z = Function.update (Function.update f d y) c z := by
  rw [Function.update_comm h, Function.update_idem]

/-- **Two parties of a network talk** over the channels between them. -/
theorem reach_exchange {i j : ι} (hij : i ≠ j) {upward downward : κ} (hne : upward ≠ downward)
    {p p' : Party κ β ε (α i)} {q q' : Party κ β ε (α j)} {up down up' down' : List β}
    (h : Party.Exchange upward downward p q up down p' q' up' down') (hp : s.parties i = p) (hq : s.parties j = q)
    (hup : s.chans upward = up) (hdown : s.chans downward = down) :
    Run.Reachable step s ⟨Function.update (Function.update s.parties i p') j q',
      Function.update (Function.update s.chans upward up') downward down'⟩ := by
  induction h generalizing s with
  | refl p q up down =>
    rw [← hp, Function.update_eq_self, ← hq, Function.update_eq_self, ← hup, Function.update_eq_self, ← hdown,
      Function.update_eq_self]
    exact .refl _
  | client h _ ih =>
    subst hup
    refine (reach_takes hne.symm h hp hdown).trans ?_
    have hrest := ih (s := ⟨Function.update s.parties i _, Function.update (Function.update s.chans downward _) upward _⟩)
      (Function.update_self i _ _) ((Function.update_of_ne hij.symm _ _).trans hq)
      (Function.update_self upward _ _) ((Function.update_of_ne hne.symm _ _).trans (Function.update_self downward _ _))
    dsimp only at hrest
    rw [Function.update_idem, Function.update_idem, update_update_of_ne hne.symm] at hrest
    exact hrest
  | server h _ ih =>
    subst hdown
    refine (reach_takes hne h hq hup).trans ?_
    have hrest := ih (s := ⟨Function.update s.parties j _, Function.update (Function.update s.chans upward _) downward _⟩)
      ((Function.update_of_ne hij _ _).trans hp) (Function.update_self j _ _)
      ((Function.update_of_ne hne _ _).trans (Function.update_self upward _ _)) (Function.update_self downward _ _)
    dsimp only at hrest
    rw [update_update_of_ne hij.symm, update_update_of_ne hne, update_update_of_ne hne.symm] at hrest
    exact hrest

end Net

/-! ## Two parties -/

inductive Side where
  | client
  | server
deriving DecidableEq

/-- What goes up to the server, and what comes down. -/
inductive Way where
  | up
  | down
deriving DecidableEq

def pairLinks : Links Side Way where
  reader
    | .up => .server
    | .down => .client
  writer
    | .up => .client
    | .down => .server

/-- The results of the two parties. -/
def Results (A B : Type) : Side → Type
  | .client => A
  | .server => B

section

variable {β ε A B : Type}

/-- A client and a server, with what is on its way between them. -/
def pair (p : Party Way β ε A) (q : Party Way β ε B) (up down : List β) : Net Side Way β ε (Results A B) where
  parties
    | .client => p
    | .server => q
  chans
    | .up => up
    | .down => down

theorem pair_private {p : Party Way β ε A} {q : Party Way β ε B} (hp : p.Within (· = .down) (· = .up))
    (hq : q.Within (· = .up) (· = .down)) (up down : List β) : (pair p q up down).Private pairLinks := by
  intro i
  cases i with
  | client =>
    apply Party.Within.imp _ _ hp
    · rintro c rfl
      rfl
    · rintro c rfl
      rfl
  | server =>
    apply Party.Within.imp _ _ hq
    · rintro c rfl
      rfl
    · rintro c rfl
      rfl

variable {p p' : Party Way β ε A} {q q' : Party Way β ε B} {up down : List β}

/-- The states of two parties are the same if the parties and what is on its way are. -/
theorem pair_ext {s : Net Side Way β ε (Results A B)} (hp : s.parties .client = p) (hq : s.parties .server = q)
    (hup : s.chans .up = up) (hdown : s.chans .down = down) : s = pair p q up down := by
  apply Net.ext
  · funext i
    cases i with
    | client => exact hp
    | server => exact hq
  · funext c
    cases c with
    | up => exact hup
    | down => exact hdown

/-- What a client and a server say to each other is a run of the two. -/
theorem pair_exchange {up' down' : List β} (h : Party.Exchange .up .down p q up down p' q' up' down') :
    Run.Reachable Net.step (pair p q up down) (pair p' q' up' down') := by
  convert Net.reach_exchange (s := pair p q up down) (i := .client) (j := .server) (by decide) (by decide) h rfl rfl rfl
    rfl using 1
  symm
  apply pair_ext <;> rfl

/-- **A client and a server settle** where they talk until both have ended. -/
theorem pair_settles {up' down' : List β} (hp : p.Within (· = .down) (· = .up)) (hq : q.Within (· = .up) (· = .down))
    (h : Party.Exchange .up .down p q up down p' q' up' down') (hp' : p'.Ended) (hq' : q'.Ended) :
    Settles Net.step (pair p q up down) (pair p' q' up' down') := by
  apply Net.settles (pair_private hp hq up down) (pair_exchange h)
  intro i
  cases i with
  | client => exact hp'
  | server => exact hq'

end

/-! ## A party alone -/

/-- What comes of a party: its result, what it has left of its stream, and what it has written. -/
structure Served (β ε α : Type) where
  result : Except ε α
  rest : List (Arrival β)
  written : List β

namespace Party

variable {κ β ε α γ : Type}

/-- A party over a stream; `eof` is its error where the stream ends or fails. -/
def serve (eof : ε) : Party κ β ε α → List (Arrival β) → Served β ε α
  | done a, stream => ⟨.ok a, stream, []⟩
  | fail e, stream => ⟨.error e, stream, []⟩
  | read _ n next, stream => match recvExact n stream with
    | (some bs, stream) => serve eof (next bs) stream
    | (none, stream) => ⟨.error eof, stream, []⟩
  | write _ bs next, stream =>
    let served := serve eof next stream
    { served with written := bs ++ served.written }

/-- **A party is served what it takes**, in whatever pieces it arrives. -/
theorem serve_takes (eof : ε) {inp out : κ} {p p' : Party κ β ε α} {ins outs rest : List β} {stream : List (Arrival β)}
    (h : Takes inp out p ins outs p') (hcontent : content stream = ins ++ rest) :
    ∃ stream', content stream' = rest ∧
      p.serve eof stream = { p'.serve eof stream' with written := outs ++ (p'.serve eof stream').written } := by
  induction h generalizing stream with
  | refl p => exact ⟨stream, hcontent, rfl⟩
  | read hn _ ih =>
    subst hn
    rw [List.append_assoc] at hcontent
    obtain ⟨stream₁, hr, hrest⟩ := recvExact_eq hcontent
    obtain ⟨stream', hcontent', hserve⟩ := ih hrest
    refine ⟨stream', hcontent', ?_⟩
    rw [serve, hr]
    exact hserve
  | write _ ih =>
    obtain ⟨stream', hcontent', hserve⟩ := ih hcontent
    refine ⟨stream', hcontent', ?_⟩
    rw [serve, hserve, List.append_assoc]

/-- **A party that is done has taken what is gone of its stream.** -/
theorem takes_of_serve {eof : ε} {inp out : κ} {p : Party κ β ε α} (hp : p.Within (· = inp) (· = out))
    {stream stream' : List (Arrival β)} {a : α} {written : List β} (h : p.serve eof stream = ⟨.ok a, stream', written⟩) :
    ∃ ins, content stream = ins ++ content stream' ∧ Takes inp out p ins written (done a) := by
  induction p generalizing stream written with
  | done b =>
    obtain ⟨hb, rfl, rfl⟩ := Served.mk.inj h
    obtain rfl := Except.ok.inj hb
    exact ⟨[], rfl, .refl _⟩
  | fail e => cases (Served.mk.inj h).1
  | read c n next ih =>
    obtain ⟨rfl, hnext⟩ := hp
    rw [serve] at h
    rcases hr : recvExact n stream with ⟨_ | bs, stream₁⟩
    · rw [hr] at h
      cases (Served.mk.inj h).1
    · rw [hr] at h
      obtain ⟨ins, hins, htakes⟩ := ih bs (hnext bs) h
      refine ⟨bs ++ ins, ?_, .read (recvExact_length hr) htakes⟩
      rw [recvExact_content hr, hins, List.append_assoc]
  | write c bs next ih =>
    obtain ⟨rfl, hnext⟩ := hp
    obtain ⟨hresult, hrest, rfl⟩ := Served.mk.inj h
    have hserve : next.serve eof stream = ⟨.ok a, stream', (next.serve eof stream).written⟩ := by
      rw [← hresult, ← hrest]
    obtain ⟨ins, hins, htakes⟩ := ih hnext hserve
    exact ⟨ins, hins, .write htakes⟩

/-- **A party is done over a stream** exactly if it takes the front of it. -/
theorem serve_ok_iff {eof : ε} {inp out : κ} {p : Party κ β ε α} (hp : p.Within (· = inp) (· = out))
    {stream : List (Arrival β)} {a : α} {rest written : List β} :
    (∃ stream', content stream' = rest ∧ p.serve eof stream = ⟨.ok a, stream', written⟩) ↔
      ∃ ins, content stream = ins ++ rest ∧ Takes inp out p ins written (done a) := by
  constructor
  · rintro ⟨stream', rfl, h⟩
    exact takes_of_serve hp h
  · rintro ⟨ins, hcontent, h⟩
    obtain ⟨stream', hrest, hserve⟩ := serve_takes eof h hcontent
    refine ⟨stream', hrest, ?_⟩
    rw [hserve, serve, List.append_nil]

end Party

end Dialogue
