import RXCore.Config.Texts
import RXCore.Net.Text
import RXCore.Config.Keys
import RXCore.Inbound.Slots
import RXCore.State.Reload

/-!
# Two checks of Reality values

Settings and profiles check the same values, each on its own. Names are treated alike; a short id of settings
may have any even length and stays as it is written, that of a profile has 2 to 16 digits and is trimmed and
lower-cased. A migration makes profiles from settings.

* `RealityProfile.withSettings`, `ValidatorsAgree`: both accept and leave the same values, or both refuse;
* `Common`: what both ask for; `settings_ok_iff`, `profile_ok_iff`: what each makes of the values;
* `normalizeServerNames_fixed`: names that were checked stay as they are;
* `AgreesOn`, `validatorsAgree_iff`: when the checks agree;
* `profileOfInbound_valid_iff`: when a migrated profile passes its check;
* **`validators_agree_iff`**: both, for all values and all configurations;
* **`validators_disagree`**: a short id without digits, and one in upper case.
-/

set_option autoImplicit false

namespace RXCore

open Encoding Lowercase

/-- The profile with the values of settings. -/
def RealityProfile.withSettings (p : RealityProfile) (s : RealitySettings) : RealityProfile :=
  { p with dest := s.dest, serverNames := s.serverNames, privateKey := s.privateKey, shortIds := s.shortIds }

/-- The name, the tag and the listen address of a profile are in order. -/
structure RealityProfile.Placed (p : RealityProfile) : Prop where
  name : trim p.name ≠ ""
  inboundTag : trim p.inboundTag ≠ ""
  listen : trim p.listen ≠ ""
  address : parseIpAddr p.listen ≠ none

/-- Settings and a profile with the same values are both accepted, with the same names and short ids, or both
refused. -/
def ValidatorsAgree (X : Crates) (s : RealitySettings) (p : RealityProfile) : Prop :=
  match s.validateAndNormalize X, (p.withSettings s).validateAndNormalize X with
  | .ok s', .ok p' => s'.serverNames = p'.serverNames ∧ s'.shortIds = p'.shortIds
  | .error _, .error _ => True
  | _, _ => False

/-- What both checks ask for; the names become `names`. -/
structure RealitySettings.Common (X : Crates) (s : RealitySettings) (names : List String) : Prop where
  dest : validateDest s.dest = .ok ()
  names : normalizeServerNames X s.serverNames = .ok names
  shortIds : s.shortIds ≠ []
  key : validatePrivateKey s.privateKey = .ok ()

/-- A short id that a profile may have, after it is trimmed and lower-cased. -/
def FitsProfile (sid : String) : Prop := HexText sid ∧ 2 ≤ sid.toList.length ∧ sid.toList.length ≤ 16

/-- When the checks agree: neither accepts the other values, or all short ids are proper, or each of the checks
refuses one of them. -/
def AgreesOn (X : Crates) (s : RealitySettings) : Prop :=
  (¬ ∃ names, s.Common X names) ∨ (∀ sid ∈ s.shortIds, ProperShortId sid) ∨
    (∃ sid ∈ s.shortIds, ¬ HexText sid) ∧ ∃ sid ∈ s.shortIds, ¬ FitsProfile (X.toLowercase (trim sid))

section

variable {X : Crates} {T : CaseTable} {s s' : RealitySettings} {p p' : RealityProfile} {names : List String}

/-! ## Each check -/

/-- **What the check of settings accepts**, and what it leaves. -/
theorem settings_ok_iff : s.validateAndNormalize X = .ok s' ↔
    ∃ names, s.Common X names ∧ (∀ sid ∈ s.shortIds, HexText sid) ∧ s' = { s with serverNames := names } := by
  simp only [RealitySettings.validateAndNormalize, bind_ok, exists_unit, forM_ok_iff, validateSettingsShortId_iff,
    refuseIf_ok]
  constructor
  · rintro ⟨hdest, names, hnames, hne, hsids, hkey, h⟩
    exact ⟨names, ⟨hdest, hnames, hne, hkey⟩, hsids, (Except.ok.inj h).symm⟩
  · rintro ⟨names, h, hsids, rfl⟩
    exact ⟨h.dest, names, h.names, h.shortIds, hsids, h.key, rfl⟩

/-- A key that passes has a public key. -/
theorem deriveRealityPublicKey_of_valid {privateKey : String} (h : validatePrivateKey privateKey = .ok ()) :
    ∃ pbk, deriveRealityPublicKey X privateKey = some pbk := by
  rw [validatePrivateKey] at h
  cases hdec : decodePrivateKey privateKey with
  | error e => simp [hdec] at h
  | ok bs =>
    simp only [hdec] at h
    split_ifs at h with hlen
    have hkey : toKey bs = some ⟨bs.toArray, by simpa using hlen⟩ := dif_pos _
    refine ⟨String.ofList (base64UrlEncode (X.x25519Public ⟨bs.toArray, by simpa using hlen⟩).toList), ?_⟩
    rw [deriveRealityPublicKey, hdec]
    simp only [Except.toOption, Option.bind_eq_bind, Option.bind_some, hkey]
    rfl

/-- **What the check of a profile accepts**, and what it leaves. -/
theorem profile_ok_iff (hp : p.Placed) : (p.withSettings s).validateAndNormalize X = .ok p' ↔
    ∃ names sids pbk, s.Common X names ∧ s.shortIds.mapM (normalizeShortId X) = .ok sids ∧
      deriveRealityPublicKey X s.privateKey = some pbk ∧
      p' = { p.withSettings s with serverNames := names, shortIds := sids, publicKey := pbk } := by
  simp only [RealityProfile.validateAndNormalize, bind_ok, exists_unit, RealityProfile.withSettings]
  constructor
  · rintro ⟨-, -, -, -, hdest, names, hnames, hne, sids, hsids, hkey, h⟩
    obtain ⟨pbk, hpbk⟩ := deriveRealityPublicKey_of_valid (X := X) hkey
    simp only [hpbk] at h
    exact ⟨names, sids, pbk, ⟨hdest, hnames, refuseIf_ok.mp hne, hkey⟩, hsids, hpbk, (Except.ok.inj h).symm⟩
  · rintro ⟨names, sids, pbk, h, hsids, hpbk, rfl⟩
    refine ⟨refuseIf_ok.mpr hp.name, refuseIf_ok.mpr hp.inboundTag, refuseIf_ok.mpr hp.listen,
      refuseIf_ok.mpr hp.address, h.dest, names, h.names, refuseIf_ok.mpr h.shortIds, sids, hsids, h.key, ?_⟩
    simp only [hpbk]
    rfl

/-- When a profile is accepted. -/
theorem exists_profile_ok_iff (hp : p.Placed) : (∃ p', (p.withSettings s).validateAndNormalize X = .ok p') ↔
    (∃ names, s.Common X names) ∧ ∀ sid ∈ s.shortIds, FitsProfile (X.toLowercase (trim sid)) := by
  have hsid : ∀ sid, (∃ sid', normalizeShortId X sid = .ok sid') ↔ FitsProfile (X.toLowercase (trim sid)) := by
    intro sid
    simp only [normalizeShortId_ok_iff, FitsProfile, exists_eq_left]
  simp only [← hsid, ← exists_mapM_ok_iff]
  constructor
  · rintro ⟨p', h⟩
    obtain ⟨names, sids, pbk, hcommon, hsids, -, -⟩ := (profile_ok_iff hp).mp h
    exact ⟨⟨names, hcommon⟩, sids, hsids⟩
  · rintro ⟨⟨names, hcommon⟩, sids, hsids⟩
    obtain ⟨pbk, hpbk⟩ := deriveRealityPublicKey_of_valid (X := X) hcommon.key
    exact ⟨_, (profile_ok_iff hp).mpr ⟨names, sids, pbk, hcommon, hsids, hpbk, rfl⟩⟩

/-! ## Both checks -/

theorem exists_settings_ok_iff : (∃ s', s.validateAndNormalize X = .ok s') ↔
    (∃ names, s.Common X names) ∧ ∀ sid ∈ s.shortIds, HexText sid := by
  constructor
  · rintro ⟨s', h⟩
    obtain ⟨names, hcommon, hsids, -⟩ := settings_ok_iff.mp h
    exact ⟨⟨names, hcommon⟩, hsids⟩
  · rintro ⟨⟨names, hcommon⟩, hsids⟩
    exact ⟨_, settings_ok_iff.mpr ⟨names, hcommon, hsids, rfl⟩⟩

theorem validatorsAgree_def : ValidatorsAgree X s p ↔
    ((∃ s', s.validateAndNormalize X = .ok s') ↔ ∃ p', (p.withSettings s).validateAndNormalize X = .ok p') ∧
      ∀ s' p', s.validateAndNormalize X = .ok s' → (p.withSettings s).validateAndNormalize X = .ok p' →
        s'.serverNames = p'.serverNames ∧ s'.shortIds = p'.shortIds := by
  rw [ValidatorsAgree]
  cases s.validateAndNormalize X <;> cases (p.withSettings s).validateAndNormalize X <;> simp

/-- What both accept they leave alike exactly if the short ids are those that a profile keeps. -/
theorem validators_same (hX : X.Lowercases T) (hp : p.Placed) (hs : s.validateAndNormalize X = .ok s')
    (hq : (p.withSettings s).validateAndNormalize X = .ok p') :
    s'.serverNames = p'.serverNames ∧ s'.shortIds = p'.shortIds ↔ ∀ sid ∈ s.shortIds, ProperShortId sid := by
  obtain ⟨names, hc, -, rfl⟩ := settings_ok_iff.mp hs
  obtain ⟨names', sids, -, hc', hsids, -, rfl⟩ := (profile_ok_iff hp).mp hq
  obtain rfl := Except.ok.inj (hc.names.symm.trans hc'.names)
  simp only [← normalizeShortId_iff hX, ← mapM_self_iff, hsids, Except.ok.injEq, true_and]
  exact eq_comm

/-- A proper short id passes both checks. -/
theorem ProperShortId.fits (hX : X.Lowercases T) {sid : String} (h : ProperShortId sid) :
    FitsProfile (X.toLowercase (trim sid)) := by
  obtain ⟨heq, hfits⟩ := normalizeShortId_ok_iff.mp ((normalizeShortId_iff hX).mpr h)
  rw [← heq]
  exact hfits

/-- Two checks with a condition in common, of which a third one implies both. -/
theorem agree_cases {A B C P : Prop} (hA : P → A) (hB : P → B) :
    (C ∧ A ↔ C ∧ B) ∧ (C ∧ A → C ∧ B → P) ↔ ¬ C ∨ P ∨ (¬ A ∧ ¬ B) := by
  constructor
  · rintro ⟨hiff, hP⟩
    by_cases hC : C
    · by_cases hA' : A
      · exact .inr (.inl (hP ⟨hC, hA'⟩ (hiff.mp ⟨hC, hA'⟩)))
      · exact .inr (.inr ⟨hA', fun hB' => hA' (hiff.mpr ⟨hC, hB'⟩).2⟩)
    · exact .inl hC
  · rintro (hC | hP | ⟨hA', hB'⟩)
    · exact ⟨iff_of_false (fun h => hC h.1) fun h => hC h.1, fun h => absurd h.1 hC⟩
    · exact ⟨and_congr_right fun _ => iff_of_true (hA hP) (hB hP), fun _ _ => hP⟩
    · exact ⟨iff_of_false (fun h => hA' h.2) fun h => hB' h.2, fun h => absurd h.2 hA'⟩

/-- **When the checks agree.** -/
theorem validatorsAgree_iff (hX : X.Lowercases T) (hp : p.Placed) : ValidatorsAgree X s p ↔ AgreesOn X s := by
  have hsettings := exists_settings_ok_iff (X := X) (s := s)
  have hprofile := exists_profile_ok_iff (X := X) (s := s) hp
  have hhex : (∀ sid ∈ s.shortIds, ProperShortId sid) → ∀ sid ∈ s.shortIds, HexText sid :=
    fun h sid hsid => (h sid hsid).toHexText
  have hfits : (∀ sid ∈ s.shortIds, ProperShortId sid) →
      ∀ sid ∈ s.shortIds, FitsProfile (X.toLowercase (trim sid)) := fun h sid hsid => (h sid hsid).fits hX
  have hboth : (∀ s' p', s.validateAndNormalize X = .ok s' → (p.withSettings s).validateAndNormalize X = .ok p' →
      s'.serverNames = p'.serverNames ∧ s'.shortIds = p'.shortIds) ↔
      ((∃ s', s.validateAndNormalize X = .ok s') → (∃ p', (p.withSettings s).validateAndNormalize X = .ok p') →
        ∀ sid ∈ s.shortIds, ProperShortId sid) := by
    constructor
    · rintro h ⟨s', hs⟩ ⟨p', hq⟩
      exact (validators_same hX hp hs hq).mp (h s' p' hs hq)
    · intro h s' p' hs hq
      exact (validators_same hX hp hs hq).mpr (h ⟨s', hs⟩ ⟨p', hq⟩)
  have hno : (∃ sid ∈ s.shortIds, ¬ HexText sid) ↔ ¬ ∀ sid ∈ s.shortIds, HexText sid := by
    simp only [not_forall, exists_prop]
  have hno' : (∃ sid ∈ s.shortIds, ¬ FitsProfile (X.toLowercase (trim sid))) ↔
      ¬ ∀ sid ∈ s.shortIds, FitsProfile (X.toLowercase (trim sid)) := by
    simp only [not_forall, exists_prop]
  rw [validatorsAgree_def, hboth, hsettings, hprofile, AgreesOn, hno, hno']
  exact agree_cases hhex hfits

/-! ## Migrated profiles -/

/-- Names that were checked stay as they are. -/
theorem normalizeServerNames_fixed (hX : X.Lowercases T) (hT : KeepsBlanks T) {names' : List String}
    (h : normalizeServerNames X names = .ok names') : normalizeServerNames X names' = .ok names' := by
  rw [normalizeServerNames, bind_ok] at h
  obtain ⟨_, hne, hmap⟩ := h
  have hforall := mapM_ok_iff.mp hmap
  have hne' : names' ≠ [] := by
    rintro rfl
    exact refuseIf_ok.mp hne (List.forall₂_nil_right_iff.mp hforall)
  rw [normalizeServerNames, bind_ok]
  refine ⟨(), refuseIf_ok.mpr hne', mapM_self_iff.mpr fun name' hname' => ?_⟩
  obtain ⟨name, -, hname⟩ := (mem_of_mapM_ok hmap name').mp hname'
  split_ifs at hname with hblank
  obtain rfl := Except.ok.inj hname
  obtain ⟨htrim, hlower, hempty⟩ := normalize_fixed hX hT name
  rw [htrim, if_neg fun h => hblank (hempty.mp h), hlower]

/-- An address has no blanks around it. -/
theorem trim_display (a : IpAddr) : trim a.display = a.display := by
  have hblank : displayChars.all (fun c => !isWhitespace c) = true := by decide
  rw [trim, trimList_eq fun c hc => ?_, String.ofList_toList]
  exact Bool.not_eq_true' _ ▸ List.all_eq_true.mp hblank c (mem_displayChars a c hc)

theorem display_ne_empty (a : IpAddr) : a.display ≠ "" := by
  intro h
  have hparse := parseIpAddr_display a
  have hempty : parseIpAddr "" = none := by decide
  rw [h, hempty] at hparse
  cases hparse

/-- **When the profile of settings that passed is valid.** -/
theorem profileOfInbound_valid_iff (hX : X.Lowercases T) (hT : KeepsBlanks T) (g : Draws) (n : ℕ) (i : InboundConfig)
    (h : s.validateAndNormalize X = .ok s') :
    (∃ q, (profileOfInbound X g n i s').validateAndNormalize X = .ok q) ↔
      trim i.tag ≠ "" ∧ ∀ sid ∈ s'.shortIds, 2 ≤ sid.toList.length ∧ sid.toList.length ≤ 16 := by
  obtain ⟨names, hcommon, hhex, rfl⟩ := settings_ok_iff.mp h
  have hcommon' : RealitySettings.Common X { s with serverNames := names } names :=
    ⟨hcommon.dest, normalizeServerNames_fixed hX hT hcommon.names, hcommon.shortIds, hcommon.key⟩
  by_cases htag : trim i.tag = ""
  · refine iff_of_false (fun ⟨q, hq⟩ => ?_) fun h => h.1 htag
    simp only [RealityProfile.validateAndNormalize, bind_ok] at hq
    obtain ⟨_, -, _, hno, -⟩ := hq
    exact refuseIf_ok.mp hno htag
  · have hplaced : (profileOfInbound X g n i { s with serverNames := names }).Placed := {
      name := by
        show trim "Default VLESS Reality" ≠ ""
        decide
      inboundTag := htag
      listen := by
        show trim i.listen.display ≠ ""
        rw [trim_display]
        exact display_ne_empty i.listen
      address := by
        show parseIpAddr i.listen.display ≠ none
        rw [parseIpAddr_display]
        exact Option.some_ne_none _ }
    have hvalues : profileOfInbound X g n i { s with serverNames := names } =
        (profileOfInbound X g n i { s with serverNames := names }).withSettings { s with serverNames := names } := rfl
    rw [hvalues, exists_profile_ok_iff hplaced]
    refine ⟨fun h => ⟨htag, fun sid hsid => ?_⟩, fun h => ⟨⟨names, hcommon'⟩, fun sid hsid => ?_⟩⟩
    · obtain ⟨-, hlen⟩ := hexText_toLowercase hX (hhex sid hsid)
      rw [← hlen]
      exact (h.2 sid hsid).2
    · obtain ⟨hfits, hlen⟩ := hexText_toLowercase hX (hhex sid hsid)
      rw [FitsProfile, hlen]
      exact ⟨hfits, h.2 sid hsid⟩

variable {g : Draws} {n : ℕ} {is : List InboundConfig} {q : RealityProfile}

/-- Every profile is made from an inbound. -/
theorem mem_profilesOfInbounds (h : q ∈ profilesOfInbounds X g n is) :
    ∃ i ∈ is, ∃ rs ∈ i.reality, ∃ k, q = profileOfInbound X g k i rs := by
  induction is generalizing n with
  | nil => exact absurd h List.not_mem_nil
  | cons i is ih =>
    have hrest : ∀ {n}, q ∈ profilesOfInbounds X g n is →
        ∃ j ∈ i :: is, ∃ rs ∈ j.reality, ∃ k, q = profileOfInbound X g k j rs := fun hq => by
      obtain ⟨j, hj, hmade⟩ := ih hq
      exact ⟨j, List.mem_cons_of_mem _ hj, hmade⟩
    rw [profilesOfInbounds] at h
    cases hi : i.reality with
    | none =>
      rw [hi] at h
      exact hrest h
    | some rs =>
      rw [hi] at h
      rcases List.mem_cons.mp h with rfl | h
      · exact ⟨i, List.mem_cons_self, rs, hi, n, rfl⟩
      · exact hrest h

/-- For every inbound with Reality settings a profile is made. -/
theorem profilesOfInbounds_mem {i : InboundConfig} {rs : RealitySettings} (hi : i ∈ is) (hrs : rs ∈ i.reality) :
    ∃ k, profileOfInbound X g k i rs ∈ profilesOfInbounds X g n is := by
  induction is generalizing n with
  | nil => exact absurd hi List.not_mem_nil
  | cons j is ih =>
    rw [profilesOfInbounds]
    rcases List.mem_cons.mp hi with rfl | hi
    · rw [Option.mem_def.mp hrs]
      exact ⟨n, List.mem_cons_self⟩
    · cases j.reality with
      | none => exact ih hi
      | some rs' =>
        obtain ⟨k, hk⟩ := ih (n := n + 1) hi
        exact ⟨k, List.mem_cons_of_mem _ hk⟩

/-- A migration makes profiles where there are none. -/
theorem migrateIfNeeded_realityProfiles (g : Draws) (c : Config) : (c.migrateIfNeeded X g).realityProfiles =
    if c.realityProfiles = [] then profilesOfInbounds X g 0 c.inbounds else c.realityProfiles := by
  unfold Config.migrateIfNeeded
  dsimp only
  rw [(migrateSets_frame g _ _).2]
  split_ifs <;> rfl

/-- **When all profiles of a migration are valid**, if all settings have passed their check. -/
theorem migrated_valid_iff (hX : X.Lowercases T) (hT : KeepsBlanks T) (g : Draws) {c : Config}
    (hempty : c.realityProfiles = [])
    (hvalid : ∀ i ∈ c.inbounds, ∀ rs ∈ i.reality, ∃ s : RealitySettings, s.validateAndNormalize X = .ok rs) :
    (∀ q ∈ (c.migrateIfNeeded X g).realityProfiles, ∃ q', q.validateAndNormalize X = .ok q') ↔
      ∀ i ∈ c.inbounds, ∀ rs ∈ i.reality, trim i.tag ≠ "" ∧
        ∀ sid ∈ rs.shortIds, 2 ≤ sid.toList.length ∧ sid.toList.length ≤ 16 := by
  rw [migrateIfNeeded_realityProfiles, if_pos hempty]
  constructor
  · intro h i hi rs hrs
    obtain ⟨s, hs⟩ := hvalid i hi rs hrs
    obtain ⟨k, hk⟩ := profilesOfInbounds_mem (X := X) (g := g) (n := 0) hi hrs
    exact (profileOfInbound_valid_iff hX hT g k i hs).mp (h _ hk)
  · intro h q hq
    obtain ⟨i, hi, rs, hrs, k, rfl⟩ := mem_profilesOfInbounds hq
    obtain ⟨s, hs⟩ := hvalid i hi rs hrs
    exact (profileOfInbound_valid_iff hX hT g k i hs).mpr (h i hi rs hrs)

/-- **The checks of settings and of profiles**: for which values they agree, and for which configurations a
migration of settings that passed makes profiles that pass. -/
theorem validators_agree_iff (hX : X.Lowercases T) (hT : KeepsBlanks T) :
    (∀ (s : RealitySettings) (p : RealityProfile), p.Placed → (ValidatorsAgree X s p ↔ AgreesOn X s)) ∧
      ∀ (g : Draws) (c : Config), c.realityProfiles = [] →
        (∀ i ∈ c.inbounds, ∀ rs ∈ i.reality, ∃ s : RealitySettings, s.validateAndNormalize X = .ok rs) →
        ((∀ q ∈ (c.migrateIfNeeded X g).realityProfiles, ∃ q', q.validateAndNormalize X = .ok q') ↔
          ∀ i ∈ c.inbounds, ∀ rs ∈ i.reality, trim i.tag ≠ "" ∧
            ∀ sid ∈ rs.shortIds, 2 ≤ sid.toList.length ∧ sid.toList.length ≤ 16) :=
  ⟨fun _ _ hp => validatorsAgree_iff hX hp, fun g _ hempty hvalid => migrated_valid_iff hX hT g hempty hvalid⟩

end

/-! ## Short ids on which the checks differ -/

/-- The tables that are cut down to ASCII and sigma. -/
theorem ascii_keepsBlanks : KeepsBlanks CaseTable.ascii where
  ne_nil c := List.cons_ne_nil _ _
  blank c d hd := by
    obtain rfl := List.mem_singleton.mp hd
    by_cases hupper : c.isUpper = true
    · have hall : ∀ n : Fin 128, (Char.ofNat n).isUpper = true →
          isWhitespace (Char.ofNat n).toLower = isWhitespace (Char.ofNat n) := by decide
      have hascii : c.toNat < 128 := by
        have := CaseTable.toNat_of_isAlpha (c := c) (by simp [Char.isAlpha, hupper])
        omega
      have hc := hall ⟨c.toNat, hascii⟩
      rw [Char.ofNat_toNat] at hc
      exact hc hupper
    · rw [Char.toLower_eq_of_not_isUpper hupper]

/-- An inbound with the settings. -/
def settingsInbound (sid : String) : InboundConfig :=
  ⟨"vless-reality", .v4 .unspecified, 443, "vless", ⟨some []⟩, some ⟨"reality", none, some (settingsWith sid)⟩⟩

/-- Eight bytes in lower case. -/
theorem validators_agree_iff_eight :
    ValidatorsAgree Sample.unicode (settingsWith "da09ebd28dc215c8") (profileWith "da09ebd28dc215c8") ∧
      ∀ q ∈ ({ defaultConfig with inbounds := [settingsInbound "da09ebd28dc215c8"] } : Config).migrateIfNeeded
        Sample.unicode slotDraws |>.realityProfiles, ∃ q', q.validateAndNormalize Sample.unicode = .ok q' := by
  obtain ⟨hvalues, hmigrated⟩ := validators_agree_iff (X := Sample.unicode) (T := .ascii) (fun _ => rfl) ascii_keepsBlanks
  have hplaced : (profileWith "da09ebd28dc215c8").Placed := ⟨by decide, by decide, by decide, by decide⟩
  have hdigits : ∀ c ∈ "da09ebd28dc215c8".toList, isHexDigit c = true ∧ c.isUpper = false := by
    have hall : ("da09ebd28dc215c8".toList.all fun c => isHexDigit c && !c.isUpper) = true := by decide
    simpa only [List.all_eq_true, Bool.and_eq_true, Bool.not_eq_true'] using hall
  have hproper : ProperShortId "da09ebd28dc215c8" :=
    ⟨⟨by decide, fun c hc => (hdigits c hc).1⟩, fun c hc => (hdigits c hc).2, by decide⟩
  constructor
  · refine (hvalues (settingsWith "da09ebd28dc215c8") (profileWith "da09ebd28dc215c8") hplaced).mpr
      (.inr (.inl fun sid hsid => ?_))
    obtain rfl := List.mem_singleton.mp hsid
    exact hproper
  · refine (hmigrated _ _ rfl fun i hi rs hrs => ?_).mpr fun i hi rs hrs => ?_
    · obtain rfl := List.mem_singleton.mp hi
      obtain rfl := Option.some.inj hrs
      exact ⟨settingsWith "da09ebd28dc215c8", rfl⟩
    · obtain rfl := List.mem_singleton.mp hi
      obtain rfl := Option.some.inj hrs
      refine ⟨by decide, fun sid hsid => ?_⟩
      obtain rfl := List.mem_singleton.mp hsid
      decide

/-- **A short id without digits, and one in upper case**: settings accept both; a profile refuses the first, also
one that a migration has made, and changes the second. -/
theorem validators_disagree :
    (profileWith "").Placed ∧ ¬ ValidatorsAgree Sample.unicode (settingsWith "") (profileWith "") ∧
      ¬ ValidatorsAgree Sample.unicode (settingsWith "DA09") (profileWith "") ∧
      (settingsWith "").validateAndNormalize Sample.unicode = .ok (settingsWith "") ∧
      ¬ ∀ q ∈ (({ defaultConfig with inbounds := [settingsInbound ""] } : Config).migrateIfNeeded Sample.unicode
        slotDraws).realityProfiles, ∃ q', q.validateAndNormalize Sample.unicode = .ok q' := by
  have hX : Sample.unicode.Lowercases .ascii := fun _ => rfl
  have hplaced : (profileWith "").Placed := ⟨by decide, by decide, by decide, by decide⟩
  have hcapital : (settingsWith "DA09").validateAndNormalize Sample.unicode = .ok (settingsWith "DA09") := rfl
  have hsettings : (settingsWith "").validateAndNormalize Sample.unicode = .ok (settingsWith "") := rfl
  refine ⟨hplaced, fun h => ?_, fun h => ?_, hsettings, fun h => ?_⟩
  · obtain ⟨names, hcommon, hhex, -⟩ := settings_ok_iff.mp hsettings
    rcases (validatorsAgree_iff hX hplaced).mp h with hno | hproper | ⟨⟨sid, hsid, hno⟩, -⟩
    · exact hno ⟨names, hcommon⟩
    · exact absurd (hproper "" (List.mem_singleton_self _)).length.1 (by decide)
    · exact hno (hhex sid hsid)
  · obtain ⟨names, hcommon, hhex, -⟩ := settings_ok_iff.mp hcapital
    rcases (validatorsAgree_iff hX hplaced).mp h with hno | hproper | ⟨⟨sid, hsid, hno⟩, -⟩
    · exact hno ⟨names, hcommon⟩
    · have hlower := (hproper "DA09" (List.mem_singleton_self _)).lower 'D' (by decide)
      exact absurd hlower (by decide)
    · exact hno (hhex sid hsid)
  · have hmade := (migrated_valid_iff hX ascii_keepsBlanks slotDraws
      (c := { defaultConfig with inbounds := [settingsInbound ""] }) rfl fun i hi rs hrs => ?_).mp h
    · have hlen := (hmade _ (List.mem_singleton_self _) (settingsWith "") rfl).2 "" (List.mem_singleton_self _)
      exact absurd hlen.1 (by decide)
    · obtain rfl := List.mem_singleton.mp hi
      obtain rfl := Option.some.inj hrs
      exact ⟨_, hsettings⟩

end RXCore
