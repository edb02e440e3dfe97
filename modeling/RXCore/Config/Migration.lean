import RXCore.Config.Profiles

/-!
# What a migration leaves

`migrate_if_needed` makes profiles and domain sets where there are none and gives aliases to clients without
them. Whatever is there it leaves.

* `Config.migrates`: its answer;
* `AliasFilled`, `Client.FilledFrom`, `InboundConfig.FilledFrom`: a value, a client and an inbound after it;
* `MigratedFrom`, **`migrate_keeps`**: a configuration after it;
* **`migrates_migrated`**: nothing is left to do.
-/

set_option autoImplicit false

namespace RXCore

/-- The answer of `migrate_if_needed`: whether it had anything to do. -/
def Config.migrates (c : Config) : Bool :=
  (c.realityProfiles.isEmpty && c.inbounds.any (·.reality.isSome)) || c.routingSchemaVersion == 0 ||
    c.clients.any fun x => x.browsingWarpId.isNone || x.lowLatencyId.isNone

/-- An alias after a migration: as it was, or a new one if there was none. -/
def AliasFilled (X : Crates) (g : Draws) (a a' : Option String) : Prop :=
  a ≠ none ∧ a' = a ∨ a = none ∧ ∃ n, a' = some (X.uuidToString (g.uuid n))

/-- A client after a migration. -/
structure Client.FilledFrom (X : Crates) (g : Draws) (x x' : Client) : Prop where
  rest : { x' with browsingWarpId := x.browsingWarpId, lowLatencyId := x.lowLatencyId } = x
  browsingWarp : AliasFilled X g x.browsingWarpId x'.browsingWarpId
  lowLatency : AliasFilled X g x.lowLatencyId x'.lowLatencyId

/-- An inbound after a migration. -/
structure InboundConfig.FilledFrom (X : Crates) (g : Draws) (i i' : InboundConfig) : Prop where
  rest : { i' with settings := i.settings } = i
  clients : Option.Rel (List.Forall₂ (Client.FilledFrom X g)) i.settings.clients i'.settings.clients

/-- A configuration after a migration: profiles and domain sets are added to those that were there, and of
inbounds and clients only absent aliases change. -/
structure MigratedFrom (X : Crates) (g : Draws) (c c' : Config) : Prop where
  rest : { c' with
    inbounds := c.inbounds
    realityProfiles := c.realityProfiles
    warpDomainSets := c.warpDomainSets
    directExceptionSets := c.directExceptionSets
    routingSchemaVersion := c.routingSchemaVersion } = c
  inbounds : List.Forall₂ (InboundConfig.FilledFrom X g) c.inbounds c'.inbounds
  profiles : c.realityProfiles <+: c'.realityProfiles
  warpDomainSets : c.warpDomainSets <+: c'.warpDomainSets
  directExceptionSets : c.directExceptionSets <+: c'.directExceptionSets
  version : c'.routingSchemaVersion = if c.routingSchemaVersion = 0 then 1 else c.routingSchemaVersion

section

variable {X : Crates} {g : Draws}

/-! ## Clients -/

theorem migrateClient_filled (n : ℕ) (x : Client) : x.FilledFrom X g (migrateClient X g n x).1 := by
  obtain ⟨id, email, limitIp, totalGb, expiryTime, speedLimit, remainingGb, rx, tx, profile, tag, b, l, token, sni⟩ := x
  constructor
  · rfl
  · cases b with
    | none => exact .inr ⟨rfl, n, rfl⟩
    | some b => exact .inl ⟨Option.some_ne_none b, rfl⟩
  · cases l with
    | some l => exact .inl ⟨Option.some_ne_none l, rfl⟩
    | none => exact .inr ⟨rfl, _, rfl⟩

theorem migrateClients_filled (n : ℕ) (xs : List Client) :
    List.Forall₂ (Client.FilledFrom X g) xs (migrateClients X g n xs).1 := by
  refine (migrateClients_forall₂ X g n xs).imp fun x x' hx => ?_
  obtain ⟨m, rfl⟩ := hx
  exact migrateClient_filled m x

theorem migrateInbounds_filled (n : ℕ) (is : List InboundConfig) :
    List.Forall₂ (InboundConfig.FilledFrom X g) is (migrateInbounds X g n is) := by
  induction is generalizing n with
  | nil => exact .nil
  | cons i is ih =>
    rw [migrateInbounds]
    cases hclients : i.settings.clients with
    | none => exact .cons ⟨rfl, by rw [hclients]; exact .none⟩ (ih n)
    | some xs => exact .cons ⟨rfl, by rw [hclients]; exact .some (migrateClients_filled n xs)⟩ (ih _)

/-- Migrated inbounds have the Reality settings that they had. -/
theorem InboundConfig.FilledFrom.reality {i i' : InboundConfig} (h : i.FilledFrom X g i') : i'.reality = i.reality := by
  rw [← h.rest]
  rfl

theorem any_reality {is is' : List InboundConfig} (h : List.Forall₂ (InboundConfig.FilledFrom X g) is is') :
    is'.any (·.reality.isSome) = is.any (·.reality.isSome) := by
  induction h with
  | nil => rfl
  | cons hi _ ih => rw [List.any_cons, List.any_cons, hi.reality, ih]

/-! ## The whole configuration -/

theorem prefix_of_empty {α : Type} {l l' : List α} (h : l = []) : l <+: l' := by
  rw [h]
  exact List.nil_prefix

/-- What becomes of the domain sets and of the schema version. -/
theorem migrateSets_keeps (n : ℕ) (c : Config) :
    { (migrateSets g n c).1 with
      warpDomainSets := c.warpDomainSets
      directExceptionSets := c.directExceptionSets
      routingSchemaVersion := c.routingSchemaVersion } = c ∧
    c.warpDomainSets <+: (migrateSets g n c).1.warpDomainSets ∧
    c.directExceptionSets <+: (migrateSets g n c).1.directExceptionSets ∧
    (migrateSets g n c).1.routingSchemaVersion = if c.routingSchemaVersion = 0 then 1 else c.routingSchemaVersion := by
  unfold migrateSets
  split_ifs with hversion hwarp hdirect hdirect
  · exact ⟨rfl, prefix_of_empty hwarp, prefix_of_empty hdirect, rfl⟩
  · exact ⟨rfl, prefix_of_empty hwarp, List.prefix_rfl, rfl⟩
  · exact ⟨rfl, List.prefix_rfl, prefix_of_empty hdirect, rfl⟩
  · exact ⟨rfl, List.prefix_rfl, List.prefix_rfl, rfl⟩
  · exact ⟨rfl, List.prefix_rfl, List.prefix_rfl, rfl⟩

/-- A migration in three steps: profiles, domain sets, aliases. -/
theorem migrateIfNeeded_steps (g : Draws) (c : Config) : ∃ profiles n m, c.realityProfiles <+: profiles ∧
    c.migrateIfNeeded X g = { (migrateSets g n { c with realityProfiles := profiles }).1 with
      inbounds := migrateInbounds X g m c.inbounds } := by
  unfold Config.migrateIfNeeded
  dsimp only
  rw [migrateSets_inbounds]
  split_ifs with hempty
  · exact ⟨_, _, _, prefix_of_empty hempty, rfl⟩
  · exact ⟨c.realityProfiles, _, _, List.prefix_rfl, rfl⟩

/-- **A migration keeps what is there.** -/
theorem migrate_keeps (g : Draws) (c : Config) : MigratedFrom X g c (c.migrateIfNeeded X g) := by
  obtain ⟨profiles, n, m, hprofiles, hsteps⟩ := migrateIfNeeded_steps (X := X) g c
  obtain ⟨hrest, hwarp, hdirect, hversion⟩ := migrateSets_keeps (g := g) n { c with realityProfiles := profiles }
  rw [hsteps]
  refine ⟨?_, migrateInbounds_filled m c.inbounds, ?_, hwarp, hdirect, hversion⟩
  · exact congrArg (fun d : Config => { d with inbounds := c.inbounds, realityProfiles := c.realityProfiles }) hrest
  · have hsame : _ = profiles := (migrateSets_frame g n { c with realityProfiles := profiles }).2
    rw [← hsame] at hprofiles
    exact hprofiles

/-- **After a migration nothing is left to do.** -/
theorem migrates_migrated (g : Draws) (c : Config) : (c.migrateIfNeeded X g).migrates = false := by
  have hkeeps := migrate_keeps (X := X) g c
  have hprofiles : (c.migrateIfNeeded X g).realityProfiles = [] →
      (c.migrateIfNeeded X g).inbounds.any (·.reality.isSome) = false := by
    rw [any_reality hkeeps.inbounds, migrateIfNeeded_realityProfiles, List.any_eq_false]
    intro hempty i hi hsome
    obtain ⟨rs, hrs⟩ := Option.isSome_iff_exists.mp hsome
    obtain ⟨k, hmade⟩ := profilesOfInbounds_mem (X := X) (g := g) (n := 0) hi hrs
    split_ifs at hempty with hnone
    · rw [hempty] at hmade
      exact absurd hmade List.not_mem_nil
    · exact hnone hempty
  have hversion : (c.migrateIfNeeded X g).routingSchemaVersion ≠ 0 := by
    rw [hkeeps.version]
    split_ifs with hzero
    · exact Nat.one_ne_zero
    · exact hzero
  have hclients : ((c.migrateIfNeeded X g).clients.any fun x => x.browsingWarpId.isNone || x.lowLatencyId.isNone) =
      false := by
    rw [List.any_eq_false]
    intro x hx
    obtain ⟨hb, hl⟩ := migrateIfNeeded_migrated (X := X) g c x hx
    simp [hb, hl]
  rw [Config.migrates, hclients, Bool.or_false, Bool.or_eq_false_iff, Bool.and_eq_false_imp]
  exact ⟨fun hempty => hprofiles (List.isEmpty_iff.mp hempty), beq_false_of_ne hversion⟩

end

end RXCore
