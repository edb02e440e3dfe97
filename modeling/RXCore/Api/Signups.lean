import RXCore.Inbound.Creation
import RXCore.State.Accounts

/-!
# Requests for new accounts

`create_vpn_account` turns an identifier and an e-mail away that are taken, letter by letter, and may then
wait for a custom profile; `create_user` looks at the identifier only, in one inbound after the other. The
engine reads identifiers and aliases as UUIDs, which are the keys of one map.

* `Signups`, `signupStep`: requests of both kinds, interleaved where they wait;
* `Client.Clashes`, `AccountsApart`: no two accounts have one UUID or one e-mail;
* `createUser_clients`, `finishVpnAccount_clients`: the clients after a request;
* `apart_of_checked`: what the checks of `create_vpn_account` leave open;
* **`accounts_apart_iff`**: runs in which every account is added while its UUID and e-mail are free;
* **`createUser_email_taken`**: `create_user` with an e-mail that is taken.
-/

set_option autoImplicit false

namespace RXCore

/-- Requests for accounts, and the engine that they work on. -/
structure Signups where
  engine : EngineState
  /-- The requests that wait for their custom profiles. -/
  waiting : List (CreateVpnAccountPayload × RealityProfile)

inductive SignupAct where
  | createUser (newClient : Client)
  /-- `create_vpn_account` up to its first wait, or to its end; a custom profile gets the identifier and the
  time. -/
  | createVpn (payload : CreateVpnAccountPayload) (id : Uuid) (now : ℤ) (d : VpnDraws)
  /-- The rest of the `i`-th request that waits. -/
  | finishVpn (i : ℕ) (bind : Except String Unit) (d : VpnDraws)

/-- The rest of a request with a custom profile. -/
def Signups.finish (X : Crates) (v : Signups) (payload : CreateVpnAccountPayload) (p : RealityProfile)
    (bind : Except String Unit) (d : VpnDraws) : Signups :=
  let (engine, res) := v.engine.publishRealityProfile X p bind
  match res with
  | .error _ => { v with engine := engine }
  | .ok _ => { v with engine := (finishVpnAccount X engine payload ⟨some p.id, p.inboundTag⟩ d).1 }

def signupStep (X : Crates) (v : Signups) : SignupAct → Option Signups
  | .createUser newClient => some { v with engine := (createUser X v.engine newClient).1 }
  | .createVpn payload id now d => match startVpnAccount v.engine payload id now with
    | .refuse _ => some v
    | .insert t => some { v with engine := (finishVpnAccount X v.engine payload t d).1 }
    | .createProfile profile => match v.engine.checkRealityProfile X profile with
      | .ok p => some { v with waiting := v.waiting ++ [(payload, p)] }
      | .error _ => some v
  | .finishVpn i bind d => match v.waiting[i]? with
    | some (payload, p) => some ({ v with waiting := v.waiting.eraseIdx i }.finish X payload p bind d)
    | none => none

/-! ## Accounts -/

/-- The entries are of one account, which may be in several inbounds. -/
def Client.SameAccount (c d : Client) : Prop := c.id = d.id ∧ c.email = d.email

/-- The accounts have one UUID, as identifier or alias, or one e-mail. -/
def Client.Clashes (X : Crates) (c d : Client) : Prop :=
  (∃ u ∈ c.claims X, u ∈ d.claims X) ∨ ∃ e, c.email = some e ∧ d.email = some e

/-- No two different accounts have one UUID or one e-mail. -/
def AccountsApart (X : Crates) (cs : List Client) : Prop :=
  ∀ c ∈ cs, ∀ d ∈ cs, c.Clashes X d → c.SameAccount d

/-- No other account has the UUID or the e-mail of the client. -/
def Client.Apart (X : Crates) (c : Client) (cs : List Client) : Prop :=
  ∀ d ∈ cs, c.Clashes X d → c.SameAccount d

/-- An inbound into which `create_user` puts the client. -/
def InboundConfig.TakesUser (c : Client) (i : InboundConfig) : Prop :=
  ∃ cs, i.settings.clients = some cs ∧ ∀ d ∈ cs, d.id ≠ c.id

/-- An inbound into which `create_vpn_account` puts a client with the identifier. -/
def InboundConfig.TakesTarget (tag id : String) (i : InboundConfig) : Prop :=
  i.tag = tag ∧ ∀ d ∈ i.clients, d.id ≠ id

/-- All profiles have runtimes, so that an update of the configuration is accepted. -/
def EngineState.Buildable (X : Crates) (s : EngineState) : Prop :=
  ∃ runtimes, buildAllRuntimes X s.config = .ok runtimes

/-- What a step has to meet: an account that is added in some inbound has a UUID and an e-mail of its
own. -/
def Signups.Keeps (X : Crates) (v : Signups) : SignupAct → Prop
  | .createUser c => v.engine.Buildable X → (∃ i ∈ v.engine.config.inbounds, i.TakesUser c) →
    c.Apart X v.engine.config.clients
  | .createVpn payload id now d => ∀ t, startVpnAccount v.engine payload id now = .insert t →
    v.engine.Buildable X → (∃ i ∈ v.engine.config.inbounds, i.TakesTarget t.inboundTag payload.id) →
    (payload.toClient X t d).Apart X v.engine.config.clients
  | .finishVpn i bind d => bind = .ok () → ∀ e ∈ v.waiting[i]?, (∃ r, RealityRuntime.new X e.2 = .ok r) →
    v.engine.Buildable X → (e.1.toClient X ⟨some e.2.id, e.2.inboundTag⟩ d).Apart X v.engine.config.clients

section

variable {X : Crates} {s : EngineState} {cs : List Client} {c d : Client}

theorem Client.Clashes.symm (h : c.Clashes X d) : d.Clashes X c :=
  h.imp (fun ⟨u, hc, hd⟩ => ⟨u, hd, hc⟩) fun ⟨e, hc, hd⟩ => ⟨e, hd, hc⟩

theorem Client.SameAccount.symm (h : c.SameAccount d) : d.SameAccount c := ⟨h.1.symm, h.2.symm⟩

/-- **One account more**, if there is one. -/
theorem accountsApart_add {A : Prop} {ds : List Client} (hcs : AccountsApart X cs)
    (h : ∀ x, x ∈ ds ↔ x ∈ cs ∨ (x = c ∧ A)) : AccountsApart X ds ↔ (A → c.Apart X cs) := by
  constructor
  · intro hds hA d hd
    exact hds c ((h c).mpr (.inr ⟨rfl, hA⟩)) d ((h d).mpr (.inl hd))
  · intro hc a ha b hb hab
    rcases (h a).mp ha with ha | ⟨rfl, hA⟩
    · rcases (h b).mp hb with hb | ⟨rfl, hA⟩
      · exact hcs a ha b hb hab
      · exact (hc hA a ha hab.symm).symm
    · rcases (h b).mp hb with hb | ⟨rfl, -⟩
      · exact hc hA b hb hab
      · exact ⟨rfl, rfl⟩

/-! ## The clients after a request -/

/-- An update that changes the inbounds only is accepted if the profiles have runtimes. -/
theorem updateConfig_inbounds (inbounds : List InboundConfig) :
    (s.Buildable X → ∃ s', s.updateConfig X { s.config with inbounds := inbounds } = .ok s' ∧
      s'.config.inbounds = inbounds) ∧
    (¬ s.Buildable X → ∃ e, s.updateConfig X { s.config with inbounds := inbounds } = .error e) := by
  constructor
  · rintro ⟨runtimes, hr⟩
    refine ⟨s.install X { s.config with inbounds := inbounds } runtimes, ?_, rfl⟩
    change buildAllRuntimes X { s.config with inbounds := inbounds } = .ok runtimes at hr
    simp [EngineState.updateConfig, refuseIf, hr, bind, Except.bind, pure, Except.pure]
  · intro hno
    cases hu : s.updateConfig X { s.config with inbounds := inbounds } with
    | error e => exact ⟨e, rfl⟩
    | ok s' =>
      obtain ⟨runtimes, hr, -⟩ := EngineState.updateConfig_ok hu
      exact absurd ⟨runtimes, hr⟩ hno

theorem mem_clients_map_iff {l : List InboundConfig} {f : InboundConfig → InboundConfig}
    {T : InboundConfig → Prop} (hf : ∀ i x, x ∈ (f i).clients ↔ x ∈ i.clients ∨ (x = c ∧ T i)) (x : Client) :
    x ∈ (l.map f).flatMap InboundConfig.clients ↔
      x ∈ l.flatMap InboundConfig.clients ∨ (x = c ∧ ∃ i ∈ l, T i) := by
  simp only [List.mem_flatMap, List.mem_map]
  constructor
  · rintro ⟨_, ⟨i, hi, rfl⟩, hx⟩
    rcases (hf i x).mp hx with hx | ⟨rfl, ht⟩
    · exact .inl ⟨i, hi, hx⟩
    · exact .inr ⟨rfl, i, hi, ht⟩
  · rintro (⟨i, hi, hx⟩ | ⟨rfl, i, hi, ht⟩)
    · exact ⟨f i, ⟨i, hi, rfl⟩, (hf i x).mpr (.inl hx)⟩
    · exact ⟨f i, ⟨i, hi, rfl⟩, (hf i x).mpr (.inr ⟨rfl, ht⟩)⟩

theorem mem_pushClient_iff (i : InboundConfig) (x : Client) :
    x ∈ (i.pushClient c).clients ↔ x ∈ i.clients ∨ (x = c ∧ i.TakesUser c) := by
  rw [InboundConfig.pushClient]
  cases hcs : i.settings.clients with
  | none => simp [InboundConfig.TakesUser, hcs]
  | some cs =>
    by_cases hany : cs.any (·.id == c.id) = true
    · simp only [hany, if_true]
      refine ⟨.inl, fun h => h.elim id ?_⟩
      rintro ⟨-, cs', hcs', hall⟩
      rw [hcs] at hcs'
      obtain rfl := Option.some.inj hcs'
      obtain ⟨d, hd, hid⟩ := List.any_eq_true.mp hany
      exact absurd (beq_iff_eq.mp hid) (hall d hd)
    · have htakes : i.TakesUser c := ⟨cs, hcs, fun d hd hid => hany (List.any_eq_true.mpr ⟨d, hd, by simp [hid]⟩)⟩
      simp only [hany]
      simp [InboundConfig.clients, hcs, htakes]

theorem mem_addToTarget_iff (tag : String) (i : InboundConfig) :
    (∀ x, x ∈ (i.addToTarget c tag).1.clients ↔ x ∈ i.clients ∨ (x = c ∧ i.TakesTarget tag c.id)) ∧
      ((i.addToTarget c tag).2 = true ↔ i.TakesTarget tag c.id) := by
  rw [InboundConfig.addToTarget]
  by_cases htag : i.tag = tag
  · rw [if_pos htag]
    cases hcs : i.settings.clients with
    | none => simp [InboundConfig.TakesTarget, InboundConfig.clients, hcs, htag]
    | some cs =>
      have htakes : i.TakesTarget tag c.id ↔ ∀ d ∈ cs, d.id ≠ c.id := by
        simp [InboundConfig.TakesTarget, InboundConfig.clients, hcs, htag]
      by_cases hany : cs.any (·.id == c.id) = true
      · obtain ⟨d, hd, hid⟩ := List.any_eq_true.mp hany
        have hno : ¬ i.TakesTarget tag c.id := fun h => absurd (beq_iff_eq.mp hid) (htakes.mp h d hd)
        simp [hany, hno]
      · have hyes : i.TakesTarget tag c.id :=
          htakes.mpr fun d hd hid => hany (List.any_eq_true.mpr ⟨d, hd, by simp [hid]⟩)
        simp [hany, hyes, InboundConfig.clients, hcs]
  · have hno : ¬ i.TakesTarget tag c.id := fun h => htag h.1
    simp [htag, hno]

/-- **The clients after `create_user`.** -/
theorem createUser_clients (x : Client) : x ∈ (createUser X s c).1.config.clients ↔
    x ∈ s.config.clients ∨
      (x = c ∧ s.Buildable X ∧ ∃ i ∈ s.config.inbounds, i.TakesUser c) := by
  rw [createUser]
  dsimp only
  obtain ⟨hyes, hno⟩ := updateConfig_inbounds (X := X) (s := s) (s.config.inbounds.map (·.pushClient c))
  by_cases hb : s.Buildable X
  · obtain ⟨s', hs', hinbounds⟩ := hyes hb
    rw [hs']
    dsimp only
    rw [(EngineState.persistConfigToDisk_frame s').2.2.2, Config.clients, hinbounds,
      mem_clients_map_iff mem_pushClient_iff]
    simp [hb, Config.clients]
  · obtain ⟨e, he⟩ := hno hb
    rw [he]
    simp [hb]

/-- **The clients after `create_vpn_account`** has put its client into the target. -/
theorem finishVpnAccount_clients {payload : CreateVpnAccountPayload} {t : VpnTarget} {d : VpnDraws}
    (x : Client) : x ∈ (finishVpnAccount X s payload t d).1.config.clients ↔
      x ∈ s.config.clients ∨ (x = payload.toClient X t d ∧ s.Buildable X ∧
        ∃ i ∈ s.config.inbounds, i.TakesTarget t.inboundTag payload.id) := by
  rw [finishVpnAccount]
  dsimp only
  have hadded : (s.config.inbounds.map (·.addToTarget (payload.toClient X t d) t.inboundTag)).any (·.2) = true ↔
      ∃ i ∈ s.config.inbounds, i.TakesTarget t.inboundTag payload.id := by
    rw [List.any_map, List.any_eq_true]
    exact exists_congr fun i => and_congr_right fun _ => (mem_addToTarget_iff t.inboundTag i).2
  by_cases hany : ∃ i ∈ s.config.inbounds, i.TakesTarget t.inboundTag payload.id
  · rw [if_pos (hadded.mpr hany), List.map_map]
    obtain ⟨hyes, hno⟩ := updateConfig_inbounds (X := X) (s := s)
      (s.config.inbounds.map (Prod.fst ∘ (·.addToTarget (payload.toClient X t d) t.inboundTag)))
    by_cases hb : s.Buildable X
    · obtain ⟨s', hs', hinbounds⟩ := hyes hb
      rw [hs']
      dsimp only
      obtain ⟨conns, hconns⟩ := s'.disconnectUser_frame X (payload.toClient X t d).id
      rw [(EngineState.persistConfigToDisk_frame _).2.2.2, hconns]
      dsimp only
      have hmem := mem_clients_map_iff (l := s.config.inbounds)
        (fun i => (mem_addToTarget_iff (c := payload.toClient X t d) t.inboundTag i).1) x
      rw [Config.clients, hinbounds]
      simp only [hb, true_and]
      exact hmem
    · obtain ⟨e, he⟩ := hno hb
      rw [he]
      simp [hb]
  · rw [if_neg fun h => hany (hadded.mp h)]
    simp [hany]

/-- A new profile brings no clients with it; its inbound takes any, and updates are accepted as before. -/
theorem publish_clients {p : RealityProfile} {r : RealityRuntime} (hr : RealityRuntime.new X p = .ok r)
    {listen : IpAddr} (hl : parseIpAddr p.listen = some listen) :
    ∃ s', s.publishRealityProfile X p (.ok ()) = (s', .ok r) ∧ s'.config.clients = s.config.clients ∧
      (s'.Buildable X ↔ s.Buildable X) ∧
      ∀ id, ∃ i ∈ s'.config.inbounds, i.TakesTarget p.inboundTag id := by
  obtain ⟨s', heq, hconfig, -⟩ := publish_done (s := s) hr hl
  refine ⟨s', heq, ?_, ?_, fun id => ?_⟩
  · rw [hconfig]
    show (s.config.inbounds ++ [EngineState.inboundOfProfile p listen]).flatMap InboundConfig.clients = _
    rw [List.flatMap_append]
    exact List.append_nil _
  · rw [EngineState.Buildable, EngineState.Buildable, hconfig]
    simp only [buildAllRuntimes, Config.withProfile, List.foldlM_append]
    constructor
    · rintro ⟨runtimes, h⟩
      obtain ⟨m, hm, -⟩ := bind_ok.mp h
      exact ⟨m, hm⟩
    · rintro ⟨m, hm⟩
      refine ⟨m.insert p.id r, bind_ok.mpr ⟨m, hm, ?_⟩⟩
      simp [hr, bind, Except.bind, pure, Except.pure]
  · rw [hconfig]
    exact ⟨EngineState.inboundOfProfile p listen, List.mem_append_right _ List.mem_cons_self, rfl,
      fun d hd => absurd hd List.not_mem_nil⟩

/-! ## Runs -/

/-- **What the checks of `create_vpn_account` leave open**: another spelling of an identifier that is taken, and the
aliases. -/
theorem apart_of_checked {payload : CreateVpnAccountPayload} (h : vpnDuplicate s payload = none) (t : VpnTarget)
    (d : VpnDraws) : (payload.toClient X t d).Apart X s.config.clients ↔
      ∀ e ∈ s.config.clients, ∀ u ∈ (payload.toClient X t d).claims X, u ∉ e.claims X := by
  have hfresh : ∀ e ∈ s.config.clients, e.id ≠ payload.id ∧ e.email ≠ some payload.email := by
    intro e he
    have hnone := List.findSome?_eq_none_iff.mp h e he
    split_ifs at hnone with hid hemail
    exact ⟨hid, hemail⟩
  constructor
  · intro hapart e he u hu hu'
    exact (hfresh e he).1 (hapart e he (.inl ⟨u, hu, hu'⟩)).1.symm
  · rintro hspell e he (⟨u, hu, hu'⟩ | ⟨mail, hmail, hmail'⟩)
    · exact absurd hu' (hspell e he u hu)
    · obtain rfl := Option.some.inj hmail
      exact absurd hmail' (hfresh e he).2

variable {v v' : Signups}

/-- The addresses of the profiles that are waited for are some. -/
def Signups.Fit (v : Signups) : Prop := ∀ e ∈ v.waiting, parseIpAddr e.2.listen ≠ none

/-- A step keeps the addresses. -/
theorem Signups.Fit.step {a : SignupAct} (h : v.Fit) (hstep : signupStep X v a = some v') : v'.Fit := by
  cases a with
  | createUser c =>
    obtain rfl := Option.some.inj hstep
    exact h
  | createVpn payload id now d =>
    rw [signupStep] at hstep
    cases hstart : startVpnAccount v.engine payload id now with
    | refuse r =>
      rw [hstart] at hstep
      obtain rfl := Option.some.inj hstep
      exact h
    | insert t =>
      rw [hstart] at hstep
      obtain rfl := Option.some.inj hstep
      exact h
    | createProfile profile =>
      rw [hstart] at hstep
      dsimp only at hstep
      cases hcheck : v.engine.checkRealityProfile X profile with
      | error e =>
        rw [hcheck] at hstep
        obtain rfl := Option.some.inj hstep
        exact h
      | ok p =>
        rw [hcheck] at hstep
        obtain rfl := Option.some.inj hstep
        intro e he
        rcases List.mem_append.mp he with he | he
        · exact h e he
        · obtain rfl := List.mem_singleton.mp he
          exact checkRealityProfile_listen hcheck
  | finishVpn i bind d =>
    rw [signupStep] at hstep
    cases hw : v.waiting[i]? with
    | none => simp [hw] at hstep
    | some e =>
      rw [hw] at hstep
      obtain rfl := Option.some.inj hstep
      have hwaiting : ∀ e ∈ v.waiting.eraseIdx i, parseIpAddr e.2.listen ≠ none := fun e he =>
        h e (List.mem_of_mem_eraseIdx he)
      unfold Signups.finish
      dsimp only
      split <;> exact hwaiting

/-- **A step keeps the accounts apart** exactly if the account that it adds is apart from the others. -/
theorem apart_step_iff {a : SignupAct} (h : v.Fit) (hapart : AccountsApart X v.engine.config.clients)
    (hstep : signupStep X v a = some v') : AccountsApart X v'.engine.config.clients ↔ v.Keeps X a := by
  cases a with
  | createUser c =>
    obtain rfl := Option.some.inj hstep
    exact (accountsApart_add hapart createUser_clients).trans and_imp
  | createVpn payload id now d =>
    rw [signupStep] at hstep
    simp only [Signups.Keeps]
    cases hstart : startVpnAccount v.engine payload id now with
    | refuse r =>
      rw [hstart] at hstep
      obtain rfl := Option.some.inj hstep
      exact iff_of_true hapart fun t ht => nomatch ht
    | createProfile profile =>
      rw [hstart] at hstep
      dsimp only at hstep
      have hsame : v'.engine = v.engine := by
        cases hcheck : v.engine.checkRealityProfile X profile with
        | error e =>
          rw [hcheck] at hstep
          obtain rfl := Option.some.inj hstep
          rfl
        | ok p =>
          rw [hcheck] at hstep
          obtain rfl := Option.some.inj hstep
          rfl
      rw [hsame]
      exact iff_of_true hapart fun t ht => nomatch ht
    | insert t =>
      rw [hstart] at hstep
      obtain rfl := Option.some.inj hstep
      refine (accountsApart_add hapart finishVpnAccount_clients).trans (and_imp.trans ⟨fun hc t' ht => ?_, fun hc => ?_⟩)
      · obtain rfl := VpnStart.insert.inj ht
        exact hc
      · exact hc t rfl
  | finishVpn i bind d =>
    rw [signupStep] at hstep
    simp only [Signups.Keeps]
    cases hw : v.waiting[i]? with
    | none => simp [hw] at hstep
    | some e =>
      obtain ⟨payload, p⟩ := e
      rw [hw] at hstep
      obtain rfl := Option.some.inj hstep
      by_cases hdone : bind = .ok () ∧ ∃ r, RealityRuntime.new X p = .ok r
      · obtain ⟨rfl, r, hr⟩ := hdone
        obtain ⟨listen, hl⟩ := Option.ne_none_iff_exists'.mp (h _ (List.mem_of_getElem? hw))
        obtain ⟨s', heq, hclients, hbuild, htakes⟩ := publish_clients (s := v.engine) hr hl
        have hmem : ∀ x, x ∈ (finishVpnAccount X s' payload ⟨some p.id, p.inboundTag⟩ d).1.config.clients ↔
            x ∈ v.engine.config.clients ∨
              (x = payload.toClient X ⟨some p.id, p.inboundTag⟩ d ∧ v.engine.Buildable X) := fun x => by
          rw [finishVpnAccount_clients, hclients, hbuild, and_iff_left (htakes payload.id)]
        simp only [Signups.finish, heq]
        refine (accountsApart_add hapart hmem).trans ⟨fun hc _ e he _ => ?_, fun hc => ?_⟩
        · obtain rfl := Option.some.inj he
          exact hc
        · exact hc trivial _ rfl ⟨r, hr⟩
      · obtain ⟨err, herr⟩ := publish_refused (s := v.engine) hdone
        simp only [Signups.finish, herr]
        refine iff_of_true hapart fun hok e he hr => ?_
        obtain rfl := Option.some.inj he
        exact absurd ⟨hok, hr⟩ hdone

/-- No request waits. -/
def Signups.start (s : EngineState) : Signups := ⟨s, []⟩

/-- **No two accounts share a UUID or an e-mail in any state of a run** exactly if every account, when it is
added, has a UUID and an e-mail that no other account has. -/
theorem accounts_apart_iff (hs : AccountsApart X s.config.clients) (as : List SignupAct) :
    Run.Always (signupStep X) (fun v => AccountsApart X v.engine.config.clients) (.start s) as ↔
      Run.Meets (signupStep X) (Signups.Keeps X) (.start s) as := by
  have hstart : (Signups.start s).Fit := fun e he => absurd he List.not_mem_nil
  refine Run.always_iff_meets ?_ (fun _ _ _ h hapart hstep => ?_) hstart hs as
  · exact fun _ _ _ h _ _ hstep => h.step hstep
  · exact apart_step_iff h hapart hstep

end

/-! ## An e-mail that is taken -/

/-- A client with an identifier and an e-mail. -/
def signup (id email : String) : Client :=
  ⟨id, some email, none, none, none, none, none, none, none, none, none, none, none, none, none⟩

theorem newEngine_accountsApart : AccountsApart Sample.crates newEngine.config.clients := by
  intro c hc d hd _
  have hlen : newEngine.config.clients.length = 1 := by decide
  obtain ⟨e, he⟩ := List.length_eq_one_iff.mp hlen
  rw [he] at hc hd
  obtain rfl := List.mem_singleton.mp hc
  obtain rfl := List.mem_singleton.mp hd
  exact ⟨rfl, rfl⟩

/-- An account with a UUID and an e-mail of its own. -/
theorem accounts_apart_iff_one :
    Run.Always (signupStep Sample.crates) (fun v => AccountsApart Sample.crates v.engine.config.clients)
      (.start newEngine) [.createUser (signup (uniformId 'a') "second@example.com")] := by
  refine (accounts_apart_iff newEngine_accountsApart _).mpr ⟨fun _ _ d hd hclash => ?_, trivial⟩
  have hall : newEngine.config.clients.all (fun d =>
      ((signup (uniformId 'a') "second@example.com").claims Sample.crates).all (fun u => u ∉ d.claims Sample.crates) &&
        d.email != some "second@example.com") = true := by
    decide
  have hd := List.all_eq_true.mp hall d hd
  simp only [Bool.and_eq_true, bne_iff_ne, ne_eq, List.all_eq_true, decide_eq_true_eq] at hd
  rcases hclash with ⟨u, hu, hu'⟩ | ⟨e, he, he'⟩
  · exact absurd hu' (hd.1 u hu)
  · exact absurd (he'.trans he.symm) hd.2

/-- **`create_user` with an e-mail that is taken** succeeds, and two accounts have one e-mail. -/
theorem createUser_email_taken :
    AccountsApart Sample.crates newEngine.config.clients ∧
      (createUser Sample.crates newEngine (signup (uniformId 'a') "test_user@example.com")).2 = .done true ∧
      ¬ Run.Always (signupStep Sample.crates) (fun v => AccountsApart Sample.crates v.engine.config.clients)
        (.start newEngine) [.createUser (signup (uniformId 'a') "test_user@example.com")] := by
  refine ⟨newEngine_accountsApart, by decide, fun h => ?_⟩
  have hclients : (createUser Sample.crates newEngine (signup (uniformId 'a') "test_user@example.com")).1.config.clients
      = newEngine.config.clients ++ [signup (uniformId 'a') "test_user@example.com"] := by
    decide
  have hapart : AccountsApart Sample.crates
      (createUser Sample.crates newEngine (signup (uniformId 'a') "test_user@example.com")).1.config.clients :=
    h.last rfl
  rw [hclients] at hapart
  obtain ⟨d, hd, hmail, hid⟩ : ∃ d ∈ newEngine.config.clients,
      d.email = some "test_user@example.com" ∧ d.id ≠ uniformId 'a' := by
    decide
  exact hid (hapart d (List.mem_append_left _ hd) _ (List.mem_append_right _ (List.mem_singleton_self _))
    (.inr ⟨_, hmail, rfl⟩)).1

end RXCore
