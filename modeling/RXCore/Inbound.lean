import RXCore.Api
import RXCore.Lib.Run

/-!
# Inbound listeners

`TcpInbound::start` with the engine that it registers its runtime pointer in, and the operations that
change such pointers. A connection is decided by the pointer at the time it is accepted and by the
acceptor made at the start; its handshake then succeeds or fails by itself.

* `startTcpInbound`, `acceptStream`;
* `Gateway`, `gatewayStep`: listeners that start and accept, in any order with changes of the
  configuration;
* `encrypted_step`: what a step hands over in the clear;
* `CertificateLoads`, `GatewayAct.Protected`, **`encrypted_of_protected`**: no connection of a TLS or Reality inbound is
  handed over in the clear if every such inbound starts with a certificate that loads or a profile with its tag;
* **`clear_without_certificate`**: a certificate that cannot be loaded.
-/

set_option autoImplicit false

namespace RXCore

/-- The variants of `InboundTransportStream`. -/
inductive InboundTransportStream where
  | plain
  | tls
  | reality
deriving DecidableEq

/-- The inbound is configured with security `tls` or `reality`. -/
def InboundConfig.secured (i : InboundConfig) : Bool :=
  match i.streamSettings with
  | some ss => ss.security == "tls" || ss.security == "reality"
  | none => false

/-- A started `TcpInbound`. -/
structure TcpInbound where
  config : InboundConfig
  /-- There is a TLS acceptor. -/
  tlsAcceptor : Bool
  /-- Where its Reality runtime pointer is. -/
  runtimeSwap : ℕ

/-- The TLS acceptor of an inbound; an error of `create_server_config` leaves it without one. -/
def makeAcceptor (config : InboundConfig)
    (createServerConfig : (cert key : Option String) → Except String Unit) : Bool :=
  match config.streamSettings with
  | some ss =>
    if ss.security = "tls" then
      let (cert, key) := match ss.tlsSettings with
        | some tls => (tls.certificateFile, tls.keyFile)
        | none => (none, none)
      match createServerConfig cert key with
      | .ok () => true
      | .error _ => false
    else false
  | none => false

/-- The runtime with the tag of an inbound. -/
def runtimeOfTag (s : EngineState) (tag : String) : Option RealityRuntime :=
  (s.realityRuntimes.entries.find? fun e => e.2.profile.inboundTag == tag).map (·.2)

/-- `TcpInbound::start` up to its loop. -/
def startTcpInbound (s : EngineState) (config : InboundConfig)
    (createServerConfig : (cert key : Option String) → Except String Unit) : EngineState × TcpInbound :=
  ({ s with
      activeListeners := s.activeListeners.insert config.port s.nextSlot
      slots := Function.update s.slots s.nextSlot (runtimeOfTag s config.tag)
      nextSlot := s.nextSlot + 1 },
    ⟨config, makeAcceptor config createServerConfig, s.nextSlot⟩)

/-- What becomes of an accepted connection: the stream that is handed to `handle_inbound_stream`, unless
its handshake fails. -/
def acceptStream (rServer : Option RealityServerRustls) (acceptor : Bool) (handshake : Except String Unit) :
    Option InboundTransportStream :=
  match rServer, acceptor, handshake with
  | some _, _, .ok () => some .reality
  | some _, _, .error _ => none
  | none, true, .ok () => some .tls
  | none, true, .error _ => none
  | none, false, _ => some .plain

structure Gateway where
  engine : EngineState
  listeners : List TcpInbound
  /-- The streams handed to `handle_inbound_stream`, with their inbound. -/
  handed : List (InboundConfig × InboundTransportStream)

inductive GatewayAct where
  | start (config : InboundConfig)
      (createServerConfig : (cert key : Option String) → Except String Unit)
  | accept (i : ℕ) (handshake : Except String Unit)
  | updateConfig (cfg : Config)
  | publishRealityProfile (p : RealityProfile) (bind : Except String Unit)

def gatewayStep (X : Crates) (g : Gateway) : GatewayAct → Option Gateway
  | .start config createServerConfig =>
    let (engine, l) := startTcpInbound g.engine config createServerConfig
    some { g with engine := engine, listeners := g.listeners ++ [l] }
  | .accept i handshake => match g.listeners[i]? with
    | none => none
    | some l =>
      let rServer := (g.engine.slots l.runtimeSwap).map (·.server)
      match acceptStream rServer l.tlsAcceptor handshake with
      | none => some g
      | some stream => some { g with handed := (l.config, stream) :: g.handed }
  | .updateConfig cfg => match g.engine.updateConfig X cfg with
    | .ok engine => some { g with engine := engine }
    | .error _ => some g
  | .publishRealityProfile p bind =>
    some { g with engine := (g.engine.publishRealityProfile X p bind).1 }

/-- No stream of a secured inbound has been handed over in the clear. -/
def Gateway.Encrypted (g : Gateway) : Prop := ∀ e ∈ g.handed, e.1.secured = true → e.2 ≠ .plain

/-- A listener has a runtime or an acceptor. -/
def Gateway.Protects (g : Gateway) (l : TcpInbound) : Prop :=
  (g.engine.slots l.runtimeSwap).isSome = true ∨ l.tlsAcceptor = true

/-- A connection of a secured inbound is accepted with a runtime or an acceptor in place. -/
def GatewayAct.Guarded (g : Gateway) : GatewayAct → Prop
  | .accept i _ => ∀ l ∈ g.listeners[i]?, l.config.secured = true → g.Protects l
  | _ => True

theorem acceptStream_plain (rServer : Option RealityServerRustls) (acceptor : Bool)
    (handshake : Except String Unit) :
    acceptStream rServer acceptor handshake = some .plain ↔ rServer = none ∧ acceptor = false := by
  unfold acceptStream
  split <;> simp

variable {X : Crates}

/-- One step stays encrypted exactly when it is guarded. -/
theorem encrypted_step {g g' : Gateway} {a : GatewayAct} (hg : g.Encrypted)
    (hstep : gatewayStep X g a = some g') : g'.Encrypted ↔ a.Guarded g := by
  cases a with
  | start config createServerConfig =>
    obtain rfl := Option.some.inj hstep
    exact iff_of_true hg trivial
  | accept i handshake =>
    rw [gatewayStep] at hstep
    rw [GatewayAct.Guarded]
    cases hl : g.listeners[i]? with
    | none =>
      rw [hl] at hstep
      cases hstep
    | some l =>
      rw [hl] at hstep
      dsimp only at hstep
      have hplain := acceptStream_plain ((g.engine.slots l.runtimeSwap).map (·.server)) l.tlsAcceptor
        handshake
      have hiff : (∀ l' ∈ some l, l'.config.secured = true → g.Protects l') ↔
          (l.config.secured = true → g.Protects l) :=
        ⟨fun h => h l rfl, fun h l' hl' => by obtain rfl := Option.some.inj hl'; exact h⟩
      rw [hiff]
      split at hstep
      · next hnone =>
        obtain rfl := Option.some.inj hstep
        refine iff_of_true hg fun _ => ?_
        by_contra hno
        obtain ⟨hslot, hacc⟩ := not_or.mp hno
        rw [hplain.mpr ⟨by simpa using hslot, by simpa using hacc⟩] at hnone
        cases hnone
      · next stream hsome =>
        obtain rfl := Option.some.inj hstep
        constructor
        · intro h hsec
          have hne := h (l.config, stream) List.mem_cons_self hsec
          by_contra hno
          obtain ⟨hslot, hacc⟩ := not_or.mp hno
          rw [hplain.mpr ⟨by simpa using hslot, by simpa using hacc⟩] at hsome
          exact hne (Option.some.inj hsome).symm
        · rintro h e (_ | ⟨_, he⟩) hsec
          · rintro rfl
            obtain ⟨hslot, hacc⟩ := hplain.mp hsome
            rcases h hsec with hs | ha
            · rw [Option.map_eq_none_iff.mp hslot] at hs
              cases hs
            · rw [hacc] at ha
              cases ha
          · exact hg e he hsec
  | updateConfig cfg =>
    rw [gatewayStep] at hstep
    split at hstep <;> (obtain rfl := Option.some.inj hstep; exact iff_of_true hg trivial)
  | publishRealityProfile p bind =>
    obtain rfl := Option.some.inj hstep
    exact iff_of_true hg trivial

/-! ## Listeners that start well -/

/-- A hot swap empties no slot. -/
theorem hotSwap_isSome {config : Config} {listeners : AList fun _ : UInt16 => ℕ}
    {slots : ℕ → Option RealityRuntime} {entries : List (Σ _ : Uuid, RealityRuntime)} {i : ℕ}
    (h : (slots i).isSome = true) : (hotSwap config listeners slots entries i).isSome = true := by
  rw [hotSwap]
  induction entries generalizing slots with
  | nil => exact h
  | cons e entries ih =>
    refine ih ?_
    dsimp only
    cases config.realityProfiles.find? (·.id = e.1) with
    | none => exact h
    | some p =>
      dsimp only
      cases listeners.lookup p.port with
      | none => exact h
      | some slot =>
        dsimp only
        by_cases hi : i = slot
        · rw [hi, Function.update_self]
          rfl
        · rw [Function.update_of_ne hi]
          exact h

theorem publishRealityProfile_slots (s : EngineState) (p : RealityProfile) (bind : Except String Unit) :
    s.nextSlot ≤ (s.publishRealityProfile X p bind).1.nextSlot ∧
      ∀ i < s.nextSlot, (s.publishRealityProfile X p bind).1.slots i = s.slots i := by
  have hupdate : ∀ (r : RealityRuntime), ∀ i < s.nextSlot,
      Function.update s.slots s.nextSlot (some r) i = s.slots i :=
    fun r i hi => Function.update_of_ne (ne_of_lt hi) _ _
  unfold EngineState.publishRealityProfile
  split
  · exact ⟨le_rfl, fun _ _ => rfl⟩
  · exact ⟨le_rfl, fun _ _ => rfl⟩
  · next runtime _ =>
    dsimp only
    split
    · exact ⟨Nat.le_succ _, hupdate runtime⟩
    · rw [EngineState.persistConfigToDisk]
      split_ifs
      · exact ⟨Nat.le_succ _, hupdate runtime⟩
      · exact ⟨Nat.le_succ _, hupdate runtime⟩

/-- The certificate of an inbound with security `tls` can be loaded. -/
def CertificateLoads (config : InboundConfig) (createServerConfig : (cert key : Option String) → Except String Unit) :
    Prop :=
  ∃ ss, config.streamSettings = some ss ∧ ss.security = "tls" ∧
    createServerConfig (ss.tlsSettings.bind (·.certificateFile)) (ss.tlsSettings.bind (·.keyFile)) = .ok ()

theorem makeAcceptor_iff {config : InboundConfig}
    {createServerConfig : (cert key : Option String) → Except String Unit} :
    makeAcceptor config createServerConfig = true ↔ CertificateLoads config createServerConfig := by
  unfold makeAcceptor CertificateLoads
  cases hss : config.streamSettings with
  | none => simp
  | some ss =>
    by_cases htls : ss.security = "tls"
    · cases hsettings : ss.tlsSettings with
      | none => cases hc : createServerConfig none none <;> simp [htls, hsettings, hc]
      | some tls => cases hc : createServerConfig tls.certificateFile tls.keyFile <;> simp [htls, hsettings, hc]
    · simp [htls]

theorem runtimeOfTag_isSome_iff {s : EngineState} {tag : String} :
    (runtimeOfTag s tag).isSome = true ↔ ∃ e ∈ s.realityRuntimes.entries, e.2.profile.inboundTag = tag := by
  simp [runtimeOfTag]

/-- A secured inbound starts with a profile that has its tag and a runtime, or with a certificate that loads. -/
def GatewayAct.Protected (g : Gateway) : GatewayAct → Prop
  | .start config createServerConfig => config.secured = true →
    (∃ e ∈ g.engine.realityRuntimes.entries, e.2.profile.inboundTag = config.tag) ∨
      CertificateLoads config createServerConfig
  | _ => True

/-- Every secured listener has a runtime or an acceptor. -/
structure Gateway.Armed (g : Gateway) : Prop where
  encrypted : g.Encrypted
  bound : ∀ l ∈ g.listeners, l.runtimeSwap < g.engine.nextSlot
  protects : ∀ l ∈ g.listeners, l.config.secured = true → g.Protects l

/-- A change of the engine that empties no slot in use. -/
theorem Gateway.Armed.of_slots {g : Gateway} (h : g.Armed) {engine : EngineState}
    (hnext : g.engine.nextSlot ≤ engine.nextSlot)
    (hslots : ∀ i < g.engine.nextSlot, (g.engine.slots i).isSome = true → (engine.slots i).isSome = true) :
    Gateway.Armed { g with engine := engine } :=
  ⟨h.encrypted, fun l hl => lt_of_lt_of_le (h.bound l hl) hnext,
    fun l hl hsec => (h.protects l hl hsec).imp_left (hslots _ (h.bound l hl))⟩

theorem Gateway.Armed.step {g g' : Gateway} {a : GatewayAct} (h : g.Armed) (hp : a.Protected g)
    (hstep : gatewayStep X g a = some g') : g'.Armed := by
  cases a with
  | start config createServerConfig =>
    obtain rfl := Option.some.inj hstep
    refine ⟨h.encrypted, fun l hl => ?_, fun l hl hsec => ?_⟩
    · rcases List.mem_append.mp hl with hl | hl
      · exact Nat.lt_succ_of_lt (h.bound l hl)
      · rw [List.mem_singleton.mp hl]
        exact Nat.lt_succ_self _
    · rcases List.mem_append.mp hl with hl | hl
      · have hslot : (startTcpInbound g.engine config createServerConfig).1.slots l.runtimeSwap =
            g.engine.slots l.runtimeSwap := Function.update_of_ne (ne_of_lt (h.bound l hl)) _ _
        exact (h.protects l hl hsec).imp_left fun hs => (congrArg Option.isSome hslot).trans hs
      · obtain rfl := List.mem_singleton.mp hl
        have hslot : (startTcpInbound g.engine config createServerConfig).1.slots g.engine.nextSlot =
            runtimeOfTag g.engine config.tag := Function.update_self ..
        exact (hp hsec).imp (fun hs => (congrArg Option.isSome hslot).trans (runtimeOfTag_isSome_iff.mpr hs))
          makeAcceptor_iff.mpr
  | accept i handshake =>
    have henc : g'.Encrypted := (encrypted_step h.encrypted hstep).mpr fun l hl =>
      h.protects l (List.mem_of_getElem? hl)
    rw [gatewayStep] at hstep
    split at hstep
    · cases hstep
    · dsimp only at hstep
      split at hstep
      · obtain rfl := Option.some.inj hstep
        exact h
      · obtain rfl := Option.some.inj hstep
        exact ⟨henc, h.bound, h.protects⟩
  | updateConfig cfg =>
    rw [gatewayStep] at hstep
    split at hstep
    · next engine hok =>
      obtain rfl := Option.some.inj hstep
      obtain ⟨runtimes, -, rfl⟩ := EngineState.updateConfig_ok hok
      exact h.of_slots le_rfl fun i _ hs => hotSwap_isSome hs
    · obtain rfl := Option.some.inj hstep
      exact h
  | publishRealityProfile p bind =>
    obtain rfl := Option.some.inj hstep
    obtain ⟨hnext, hslots⟩ := publishRealityProfile_slots (X := X) g.engine p bind
    exact h.of_slots hnext fun i hi hs => by rw [hslots i hi]; exact hs

/-- **No connection of a TLS or Reality inbound is handed over in the clear**, whatever the configuration is changed to,
if every such inbound starts with a profile that has its tag, or with a certificate that loads. -/
theorem encrypted_of_protected {engine : EngineState} {as : List GatewayAct}
    (hp : Run.Meets (gatewayStep X) GatewayAct.Protected ⟨engine, [], []⟩ as) :
    Run.Always (gatewayStep X) Gateway.Encrypted ⟨engine, [], []⟩ as := by
  have harmed : Gateway.Armed ⟨engine, [], []⟩ :=
    ⟨fun _ h => absurd h List.not_mem_nil, fun _ h => absurd h List.not_mem_nil, fun _ h => absurd h List.not_mem_nil⟩
  exact Run.always_of_meets (fun _ _ _ hI hC hstep => hI.step hC hstep) (fun _ hI => hI.encrypted) harmed hp

/-! ## The built-in inbound -/

/-- The gateway on the built-in configuration, before its listener starts. -/
def builtInGateway : Gateway :=
  ⟨.new Sample.crates ⟨fun n => Vector.replicate 16 (UInt8.ofNat (n + 1)), 0⟩ builtInConfig, [], []⟩

/-- An inbound with security `tls` and certificate files. -/
def fileInbound : InboundConfig :=
  ⟨"vless-inbound", .v4 .unspecified, 443, "vless", ⟨some []⟩,
    some ⟨"tls", some ⟨"aks.ms", some "cert.pem", some "key.pem"⟩, none⟩⟩

/-- A start whose certificate files load, or do not. -/
def startAndAccept (loaded : Except String Unit) : List GatewayAct :=
  [.start fileInbound fun _ _ => loaded, .accept 0 (.ok ())]

theorem encrypted_with_certificate :
    Run.Always (gatewayStep Sample.crates) Gateway.Encrypted builtInGateway (startAndAccept (.ok ())) :=
  encrypted_of_protected ⟨fun _ => .inr ⟨_, rfl, rfl, rfl⟩, trivial, trivial⟩

/-- **The certificate files cannot be loaded**: the next connection is handed over in the clear. -/
theorem clear_without_certificate :
    ¬ Run.Always (gatewayStep Sample.crates) Gateway.Encrypted builtInGateway
      (startAndAccept (.error "No such file or directory (os error 2)")) := by
  rintro ⟨-, -, h⟩
  exact h.head (fileInbound, .plain) List.mem_cons_self rfl rfl

end RXCore
