import EntityWorld.Proofs.World.Effects

/-!
# A new world

However systems use what they may ask for while a world is built, it has no entities then, owes no
life-state changes, and its fences are in a good order. From there on it stays sound, and every frame
goes through the fences in that order. Main statements: `started_of_new` and `settled_of_reaches`.
-/
namespace EntityWorld.World

open Shared

variable {σ : Type} {w w' w₀ : World σ} {m m' : Moment σ} {what : Happening} {past : List (Passage σ)}

/-- Nothing is in the world, and nothing is owed. -/
structure Empty (w : World σ) : Prop where
  sound : w.shared.Sound
  absent : ∀ raw, w.shared.entity? raw = none
  registering : w.registering = []
  unregistering : w.unregistering = []
  nextUnregistering : w.nextUnregistering = []
  destroys : w.shared.destroys = []

/-- Only what holds the entities and the requests matters. -/
theorem Empty.relived {t : Shared σ} {scheduler : Scheduler σ} (empty : Empty w)
    (relived : Relived w.shared t fun _ life => life) (destroys : t.destroys = w.shared.destroys) :
    Empty { w with shared := t, scheduler } where
  sound := relived.sound
  absent := fun raw => by rw [relived.entity?, empty.absent, Option.map_none]
  registering := empty.registering
  unregistering := empty.unregistering
  nextUnregistering := empty.nextUnregistering
  destroys := destroys.trans empty.destroys

/-- A world whose systems are still asking. -/
structure Building (w : World σ) : Prop where
  empty : Empty w
  fair : ∀ r ∈ w.scheduler.requests, r.Fair

/-- A world that was built. -/
structure Started (w : World σ) : Prop where
  empty : Empty w
  planned : Planned w.fenceOrder
  phase : w.phase = .acceptingUpdates

theorem building_unstarted (config : WorldConfig) {registry : Registry} (systems : List (System σ))
    (memory : σ) (sound : registry.Sound) : Building (unstarted config registry systems memory) where
  empty := ⟨sound_ofRegistry sound, fun _ => rfl, rfl, rfl, rfl, rfl⟩
  fair := nofun

theorem Building.performSetup (command : Setup.Request σ) (building : Building w) :
    Building (World.performSetup command w).value.2 := by
  cases command with
  | define definition =>
    have keeps := Store.keeps_registerDefinition building.empty.sound.store w.shared.registry definition
    exact ⟨building.empty.relived (Relived.of_keeps (t := { w.shared with
      store := (w.shared.store.registerDefinition w.shared.registry definition).value.2 })
      building.empty.sound keeps rfl rfl rfl) rfl, building.fair⟩
  | exchange change =>
    exact ⟨building.empty.relived (Relived.of_memory building.empty.sound _) rfl, building.fair⟩
  | fence request =>
    exact ⟨building.empty.relived (.refl building.empty.sound) rfl,
      Scheduler.fair_request building.fair request⟩
  | kindOf | kindCount => exact building

theorem Building.setUp (systems : List (System σ)) (building : Building w) :
    Building (World.setUp systems w).value.2 := by
  induction systems generalizing w with
  | nil => exact building
  | cons system rest ih =>
    have ran : Building (system.setUp.run World.performSetup w).value.2 :=
      Program.run_preserves (P := Building) (fun command _ w building => building.performSetup command)
        (Program.only_true system.setUp) building
    simp only [World.setUp, Logged.value_bind]
    cases outcome : (system.setUp.run World.performSetup w).value with
    | mk result w' =>
      rw [outcome] at ran
      match result with
      | .error cause => exact ran
      | .ok () => exact ih ran

theorem Building.freeze (building : Building w) (frozen : w.freeze.value = (.ok (), w')) :
    Started w' := by
  obtain ⟨scheduler, index, dirty, memory, finalized, rfl, -⟩ := freeze_eq frozen
  obtain ⟨planned, phase⟩ := Scheduler.planned_finalize building.fair finalized
  have refreshed := Relived.of_keeps
    (t := { w.shared with store := { w.shared.store with index, dirty } })
    building.empty.sound (.of_eq building.empty.sound.store rfl rfl rfl) rfl rfl rfl
  exact ⟨building.empty.relived (refreshed.trans (Relived.of_memory refreshed.sound memory)) rfl,
    planned, phase⟩

/-- A world is built in two stages. -/
theorem setUp_of_new {config : WorldConfig} {types : List ComponentType} {systems : List (System σ)}
    {memory : σ} (built : (World.new config types systems memory).value = .ok w) :
    ∃ registry w₁, Registry.build types = .ok registry ∧
      (World.setUp systems (unstarted config registry systems memory)).value = (.ok (), w₁) ∧
      w₁.freeze.value = (.ok (), w) := by
  unfold World.new at built
  split at built
  · cases built
  · cases built
  next registry _ registered =>
    simp only [Logged.value_within, Logged.value_bind] at built
    match outcome : (World.setUp systems (unstarted config registry systems memory)).value with
    | (.error cause, w₁) =>
      rw [outcome] at built
      cases built
    | (.ok (), w₁) =>
      rw [outcome] at built
      simp only [Logged.value_bind] at built
      match outcome' : w₁.freeze.value with
      | (.error cause, w₂) =>
        rw [outcome'] at built
        cases built
      | (.ok (), w₂) =>
        rw [outcome'] at built
        cases built
        exact ⟨registry, w₁, registered, outcome, outcome'⟩

theorem started_of_new {config : WorldConfig} {types : List ComponentType} {systems : List (System σ)}
    {memory : σ} (built : (World.new config types systems memory).value = .ok w) : Started w := by
  obtain ⟨registry, w₁, registered, outcome, frozen⟩ := setUp_of_new built
  have building := (building_unstarted config systems memory
    (Registry.sound_build registered)).setUp systems
  rw [outcome] at building
  exact building.freeze frozen

/-! ### The fences of a frame -/

/-- Phase and remaining fences are right for where the world stands. -/
def Placed : Moment σ → Prop
  | .resting w => w.phase = .acceptingUpdates ∨ w.phase = .steady
  | .declaring w => w.phase = .acceptingUpdates
  | .passing w left => w.phase = .running ∧ left <:+ w.fenceOrder
  | .leaving w fence left => w.phase = .running ∧ fence :: left <:+ w.fenceOrder

/-- The order never changes, and each frame goes through it from its beginning. -/
theorem Effect.placed (effect : Effect m what m') (placed : Placed m) :
    m'.world.fenceOrder = m.world.fenceOrder ∧ Placed m' := by
  cases effect with
  | grown | prioritised | destroyed => exact ⟨rfl, placed⟩
  | attempted _ _ opened => exact Scheduler.openDeclarations_spec opened
  | abandoned same => exact ⟨same.order, .inl (same.phase.trans placed)⟩
  | declared same begins =>
    -- The frame begins with the whole order.
    obtain ⟨order, phase⟩ := Scheduler.beginPass_spec begins
    exact ⟨order.trans same.order, phase, List.suffix_refl _⟩
  | executed grown same =>
    refine ⟨same.order, same.phase.trans placed.1, ?_⟩
    rw [fenceOrder, same.order]
    exact placed.2
  | @bounded w w' fence left new bounded =>
    refine ⟨by rw [Moment.world, fenceOrder, bounded.scheduler]; rfl, ?_, ?_⟩
    · rw [phase, bounded.scheduler]
      exact placed.1
    · rw [fenceOrder, bounded.scheduler]
      exact (List.suffix_cons fence left).trans placed.2
  | finished w =>
    refine ⟨Scheduler.order_endPass w.scheduler, .inr ?_⟩
    have running : w.scheduler.phase = .running := placed.1
    rw [phase, Scheduler.endPass, if_pos running]

/-- Nothing is out of order. -/
structure Settled (m : Moment σ) : Prop where
  sound : m.world.shared.Sound
  planned : Planned m.world.fenceOrder
  placed : Placed m

theorem Started.settled (started : Started w) : Settled (.resting w) where
  sound := started.empty.sound
  planned := started.planned
  placed := .inl started.phase

theorem Settled.step (settled : Settled m) (step : Step m what m') : Settled m' := by
  have effect := step.effect settled.sound
  obtain ⟨order, placed⟩ := effect.placed settled.placed
  exact ⟨effect.sound settled.sound, order ▸ settled.planned, placed⟩

theorem Reaches.settled (reached : Reaches w₀ past m) (settled : Settled (.resting w₀)) : Settled m :=
  reached.preserves (P := Settled) (fun _ _ _ step settled => settled.step step) settled

theorem settled_of_reaches (started : Started w₀) (reached : Reaches w₀ past m) : Settled m :=
  reached.settled started.settled

end EntityWorld.World
