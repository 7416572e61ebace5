import EntityWorld.Proofs.Archetype.Catalog
import EntityWorld.Proofs.Fence.Heard
import EntityWorld.Proofs.World.Discovery
import EntityWorld.Proofs.World.Frames

/-!
# Queries are never stale

The index of archetypes is a cache that new archetypes make stale. It is rebuilt before anybody can ask,
and then all systems are told. So wherever a query can be made it answers as a look at every archetype,
and whoever makes it outside of that step sees no archetype that some system has not been told of. Main
statement: `queries_of_reaches`.
-/
namespace EntityWorld

variable {σ : Type}

/-! ### Answers to queries -/

/-- What a query of an update is answered, if these are the archetypes. -/
def Access.Exact (registry : Registry) (sequences : List Sequence) :
    Heard (Access.interface σ) → Prop
  | ⟨.find wanted unwanted, answer⟩ => answer = registry.scan sequences wanted unwanted
  | ⟨.findKinds wanted unwanted, answer⟩ => answer = ArchetypeIndex.scan sequences wanted unwanted
  | ⟨.collection a, answer⟩ => answer.map Collection.sequence = sequences[a.index]?
  | _ => True

/-- The same for a system that is told. -/
def Query.Exact (registry : Registry) (sequences : List Sequence) : Heard (Query.interface σ) → Prop
  | ⟨.find wanted unwanted, answer⟩ => answer = registry.scan sequences wanted unwanted
  | ⟨.findKinds wanted unwanted, answer⟩ => answer = ArchetypeIndex.scan sequences wanted unwanted
  | ⟨.collection a, answer⟩ => answer.map Collection.sequence = sequences[a.index]?
  | _ => True

namespace Shared

variable {s t u : Shared σ}

/-- Queries are answered alike. -/
structure SameCatalog (s t : Shared σ) : Prop where
  registry : t.registry = s.registry
  store : Store.SameCatalog s.store t.store

namespace SameCatalog

theorem refl (s : Shared σ) : SameCatalog s s := ⟨rfl, .refl s.store⟩

theorem trans (first : SameCatalog s t) (second : SameCatalog t u) : SameCatalog s u :=
  ⟨second.registry.trans first.registry, first.store.trans second.store⟩

theorem perform (command : Access.Request σ) (s : Shared σ) :
    SameCatalog s (Access.perform command s).value.2 := by
  have placed (a : ArchetypeId) : SameCatalog s (s.place a).2 := by
    unfold place
    split
    · exact ⟨rfl, .refl s.store⟩
    next id allocator fresh =>
      have created := s.store.sameCatalog_create a id
      split <;>
      next store outcome =>
        rw [outcome] at created
        exact ⟨rfl, created⟩
  cases command with
  | create d =>
    change SameCatalog s (s.create d).2
    unfold create
    split
    · exact .refl s
    · split
      · exact placed _
      · exact .refl s
  | createWith types =>
    change SameCatalog s (s.createWith types).2
    unfold createWith
    split
    · exact .refl s
    · split
      · exact .refl s
      · split
        · exact placed _
        · obtain ⟨allocator, deferred, waits⟩ := s.defer_eq _
          rw [waits]
          exact ⟨rfl, .refl s.store⟩
  | edit a kind type change =>
    change SameCatalog s (s.edit a kind type change).2
    unfold edit
    split
    · exact .refl s
    next c here =>
      dsimp only
      split
      · exact .refl s
      next size edited outcome =>
        refine ⟨rfl, Store.sameCatalog_modifyCollection _ fun d found => ?_⟩
        obtain rfl := Option.some.inj (here.symm.trans found)
        -- What was read before does not matter.
        obtain ⟨rows, read, changed⟩ : ∃ rows, c.read kind type = .ok rows ∧
            c.edit kind type (change rows.size) = .ok edited := by
          cases read : c.read kind type with
          | error cause => simp [read, bind, Except.bind] at outcome
          | ok rows =>
            refine ⟨rows, rfl, ?_⟩
            cases changed : c.edit kind type (change rows.size) with
            | error cause => simp [read, changed, bind, Except.bind] at outcome
            | ok after =>
              simp only [read, changed, bind, Except.bind, pure, Except.pure, Except.ok.injEq,
                Prod.mk.injEq] at outcome
              rw [outcome.2]
        exact Collection.sequence_edit changed
  | _ => exact ⟨rfl, .refl s.store⟩

theorem overwritable (s : Shared σ) : Overwritable (SameCatalog s) where
  stored := fun t id next same => same.trans ⟨rfl, t.store.sameCatalog_update id next⟩
  waiting := by
    intro t raw change same
    unfold modifyDeferred
    split
    · exact same
    · exact same.trans ⟨rfl, .refl t.store⟩

end SameCatalog

/-- The index is not stale, and it knows every archetype. -/
structure Fresh (s : Shared σ) : Prop where
  catalogued : s.store.Catalogued s.registry
  clean : s.store.dirty = false

namespace Fresh

theorem of_same (fresh : Fresh s) (same : SameCatalog s t) : Fresh t where
  catalogued := same.registry ▸ fresh.catalogued.of_same same.store
  clean := same.store.dirty.trans fresh.clean

/-- What updates hear is exact, for the archetypes that there were when they began. -/
theorem asked (fresh : Fresh s) : Says (Access.perform (σ := σ)) (SameCatalog s)
    (Access.Exact s.registry s.store.sequences) where
  kept := fun command t same => same.trans (.perform command t)
  holds := by
    intro command t same
    have fresh := fresh.of_same same
    rw [← same.registry, ← same.store.sequences]
    cases command with
    | find wanted unwanted => exact fresh.catalogued.findTypes_eq fresh.clean wanted unwanted
    | findKinds wanted unwanted => exact fresh.catalogued.answers fresh.clean wanted unwanted
    | collection a => exact (t.store.getElem?_sequences a).symm
    | _ => trivial

/-- The same for systems that are told. -/
theorem told {w : World σ} (fresh : Fresh w.shared) : Says (World.performQuery (σ := σ))
    (fun v => SameCatalog w.shared v.shared)
    (Query.Exact w.shared.registry w.shared.store.sequences) where
  kept := by
    intro command v same
    cases command with
    | exchange change => exact same.trans ⟨rfl, .refl _⟩
    | _ => exact same
  holds := by
    intro command v same
    have fresh := fresh.of_same same
    rw [← same.registry, ← same.store.sequences]
    cases command with
    | find wanted unwanted => exact fresh.catalogued.findTypes_eq fresh.clean wanted unwanted
    | findKinds wanted unwanted => exact fresh.catalogued.answers fresh.clean wanted unwanted
    | collection a => exact (v.shared.store.getElem?_sequences a).symm
    | _ => trivial

end Fresh

end Shared

open Shared

/-! ### Telling systems -/

/-- A system being told of the archetypes. -/
structure Showing (σ : Type) where
  -- Which of the systems it is.
  place : Nat
  world : World σ
  heard : List (Heard (Query.interface σ))

namespace World

variable {w w₀ w' : World σ} {m m' : Moment σ} {what : Happening} {past : List (Passage σ)}

/-- Systems being told one after another, as `rebind` does. -/
def showings : Nat → List (System σ) → World σ → List (Showing σ)
  | _, [], _ => []
  | place, system :: rest, w =>
    ⟨place, w, system.rebind.heard performQuery w⟩ ::
      showings (place + 1) rest (system.rebind.run performQuery w).value.2

/-- Systems are told when the index was rebuilt. -/
def shownRefreshing (w : World σ) : List (Showing σ) :=
  match (w.shared.store.refreshIndex w.shared.registry.kindCount).value with
  | (true, store) => showings 0 w.systems { w with shared.store := store }
  | (false, _) => []

/-- The first time they are told even if it was not. -/
def shownFreezing (w : World σ) : List (Showing σ) :=
  match w.scheduler.finalize.value with
  | (.error _, _) => []
  | (.ok (), scheduler) => showings 0 w.systems { w with
      scheduler
      shared.store := (w.shared.store.refreshIndex w.shared.registry.kindCount).value.2 }

/-- While a world is built. -/
def shownBuilding (config : WorldConfig) (types : List ComponentType) (systems : List (System σ))
    (memory : σ) : List (Showing σ) :=
  match Registry.build types with
  | .error _ => []
  | .ok registry =>
    match (setUp systems (unstarted config registry systems memory)).value with
    | (.error _, _) => []
    | (.ok (), w) => w.shownFreezing

/-- While a step is made: an attempt at a frame commits first. -/
def Passage.shown (p : Passage σ) : List (Showing σ) :=
  match p.before, p.what with
  | .resting w, .attempted _ =>
    match w.commit.value with
    | (.error _, _) => []
    | (.ok _, w) => w.shownRefreshing
  | _, _ => []

/-- The last time a system was told. -/
def lastShown? (shown : List (Showing σ)) (place : Nat) : Option (Showing σ) :=
  (shown.filter fun each => each.place = place).getLast?

theorem lastShown?_append (before after : List (Showing σ)) (place : Nat) :
    lastShown? (before ++ after) place = (lastShown? after place).or (lastShown? before place) := by
  rw [lastShown?, List.filter_append, List.getLast?_append]
  rfl

theorem lastShown?_of_mem {shown : List (Showing σ)} {each : Showing σ} (member : each ∈ shown) :
    ∃ last ∈ shown, lastShown? shown each.place = some last := by
  have nonempty : (shown.filter fun other => other.place = each.place) ≠ [] :=
    List.ne_nil_of_mem (List.mem_filter.mpr ⟨member, decide_eq_true rfl⟩)
  exact ⟨_, (List.mem_filter.mp (List.getLast_mem nonempty)).1, List.getLast?_eq_some_getLast nonempty⟩

theorem places_showings (first : Nat) (systems : List (System σ)) (w : World σ) :
    (showings first systems w).map Showing.place = List.range' first systems.length := by
  induction systems generalizing first w with
  | nil => rfl
  | cons system rest ih => rw [showings, List.map_cons, ih, List.length_cons, List.range'_succ]

/-- Telling systems changes nothing that they see. -/
theorem shown_of_fresh (systems : List (System σ)) (first : Nat) (fresh : Fresh w.shared) :
    ∀ each ∈ showings first systems w, SameCatalog w.shared each.world.shared ∧
      ∀ h ∈ each.heard, Query.Exact w.shared.registry w.shared.store.sequences h := by
  induction systems generalizing first w with
  | nil => nofun
  | cons system rest ih =>
    obtain ⟨exact_, same⟩ := fresh.told.run system.rebind (.refl w.shared)
    intro each member
    rcases List.mem_cons.mp member with rfl | later
    · exact ⟨.refl _, exact_⟩
    · obtain ⟨same', exact'⟩ := ih (first + 1) (fresh.of_same same) each later
      rw [same.registry, same.store.sequences] at exact'
      exact ⟨same.trans same', exact'⟩

/-! ### Commits -/

/-- New collections mark the index, and whoever made none changed nothing that queries see. -/
structure Discovering (w w' : World σ) : Prop where
  registry : w'.shared.registry = w.shared.registry
  systems : w'.systems = w.systems
  catalogued : w'.shared.store.Catalogued w'.shared.registry
  same : w'.shared.store.dirty = false → Store.SameCatalog w.shared.store w'.shared.store

theorem discovering_materialize {queue : List Deferred}
    (catalogued : w.shared.store.Catalogued w.shared.registry)
    (done : (materialize queue w).value = (.ok (), w')) : Discovering w w' := by
  induction queue generalizing w with
  | nil =>
    cases done
    exact ⟨rfl, rfl, catalogued, fun _ => .refl _⟩
  | cons d rest ih =>
    obtain ⟨a, store, store', made, created, -, remaining⟩ :=
      stages_of_materialize catalogued.keyed done
    obtain ⟨catalogued₁, same₁⟩ := made.catalogued catalogued
    have same₂ := store.sameCatalog_create a d.id
    rw [created] at same₂
    have later := ih (w := { w with shared.store := store' }) (catalogued₁.of_same same₂) remaining
    refine ⟨later.registry, later.systems, later.catalogued, fun clean => ?_⟩
    have same₃ : Store.SameCatalog store' w'.shared.store := later.same clean
    -- The index cannot have been marked in the meantime.
    have clean₁ : store.dirty = false := by rw [← same₂.dirty, ← same₃.dirty, clean]
    exact (same₁ clean₁).trans (same₂.trans same₃)

theorem discovering_commit {report : CommitReport}
    (catalogued : w.shared.store.Catalogued w.shared.registry)
    (done : w.commit.value = (.ok report, w')) : Discovering w w' := by
  obtain ⟨v, store, allocator, materialized, stored, -, rfl⟩ := stages_of_commit done
  have first := discovering_materialize (w := { w with shared.deferred := [] }) catalogued materialized
  have same := v.shared.store.sameCatalog_commit
  rw [stored] at same
  refine ⟨first.registry, first.systems, first.catalogued.of_same same, fun clean => ?_⟩
  exact (first.same (same.dirty.symm.trans clean)).trans same

/-- After refreshing, the index is not stale. If it was, all systems were told. -/
theorem fresh_refresh (catalogued : w.shared.store.Catalogued w.shared.registry) :
    Fresh w.refresh.value.2.shared ∧ w.refresh.value.2.systems = w.systems ∧
      (w.shared.store.dirty = false ∧ SameCatalog w.shared w.refresh.value.2.shared ∧
          w.shownRefreshing = [] ∨
        ∃ v : World σ, Fresh v.shared ∧ v.systems = w.systems ∧
          SameCatalog v.shared w.refresh.value.2.shared ∧
          w.shownRefreshing = showings 0 w.systems v) := by
  obtain ⟨rebuilt, catalogued', clean, sequences⟩ := catalogued.refreshIndex
  obtain ⟨memory, refreshed, -⟩ := refresh_value w
  unfold shownRefreshing
  rw [refreshed]
  rcases outcome : (w.shared.store.refreshIndex w.shared.registry.kindCount).value with ⟨answer, store⟩
  rw [outcome] at rebuilt catalogued' clean
  refine ⟨⟨catalogued', clean⟩, rfl, ?_⟩
  cases answer with
  | false =>
    refine .inl ⟨rebuilt.symm, ?_, rfl⟩
    have same : store = w.shared.store := by
      have still : (w.shared.store.refreshIndex w.shared.registry.kindCount).value =
          (false, w.shared.store) := by
        rw [Store.refreshIndex, ← rebuilt]
        rfl
      rw [still] at outcome
      cases outcome
      rfl
    subst same
    exact ⟨rfl, .refl _⟩
  | true => exact .inr ⟨{ w with shared.store := store }, ⟨catalogued', clean⟩, rfl, ⟨rfl, .refl _⟩, rfl⟩

/-! ### Steps -/

theorem systems_applyBoundary (sound : w.shared.Sound) (fence : FenceId) (life : LifecycleReport) :
    (w.applyBoundary fence life).value.2.systems = w.systems := by
  obtain ⟨count, t, new, applied, unregistered⟩ :=
    applyDestroys_spec w.shared.destroys life.unregistered (w := { w with shared.destroys := [] })
      (Relived.of_keeps (t := { w.shared with destroys := [] }) sound (.refl sound.store)
        rfl rfl rfl).sound
  simp only [applyBoundary, Logged.value_bind, applied]
  split
  · obtain ⟨promoted, store, done, -⟩ := advance_spec w.registering life.promoted
      (w := { w with
        shared := t, registering := [], nextUnregistering := w.nextUnregistering ++ new })
      unregistered.relived.sound (rfl : LifeState.canBecome .register .alive = true)
    simp only [Logged.value_bind, done, Logged.value_pure]
  · split
    · obtain ⟨destroyed, store, done, -⟩ := advance_spec w.unregistering life.destroyed
        (w := { w with
          shared := t, unregistering := [], nextUnregistering := w.nextUnregistering ++ new })
        unregistered.relived.sound (rfl : LifeState.canBecome .unregister .destroyed = true)
      simp only [Logged.value_bind, done, Logged.value_pure]
    · rfl

/-- A step of a world whose index is not stale: nothing that queries see changes and nobody is told, or
everybody is. -/
inductive Informs (w w' : World σ) (shown : List (Showing σ)) : Prop where
  | silent (same : SameCatalog w.shared w'.shared) (nobody : shown = [])
  | told {v : World σ} (fresh : Fresh v.shared) (same : SameCatalog v.shared w'.shared)
      (everybody : shown = showings 0 w.systems v)

theorem Step.informs (step : Step m what m') (sound : m.world.shared.Sound)
    (fresh : Fresh m.world.shared) :
    Fresh m'.world.shared ∧ m'.world.systems = m.world.systems ∧
      Informs m.world m'.world (Passage.shown ⟨m, what, m'⟩) := by
  have silent (same : SameCatalog m.world.shared m'.world.shared)
      (systems : m'.world.systems = m.world.systems)
      (nobody : Passage.shown ⟨m, what, m'⟩ = []) :
      Fresh m'.world.shared ∧ m'.world.systems = m.world.systems ∧
        Informs m.world m'.world (Passage.shown ⟨m, what, m'⟩) :=
    ⟨fresh.of_same same, systems, .silent same nobody⟩
  have overwritable := SameCatalog.overwritable m.world.shared
  cases step with
  | created w d => exact silent (.perform (.create d) w.shared) rfl rfl
  | createdWith w types => exact silent (.perform (.createWith types) w.shared) rfl rfl
  | destroyed w id =>
    obtain ⟨t, new, done, -⟩ := destroy_spec (w := w) sound id
    exact silent (overwritable.destroy id (.refl w.shared)) (by rw [done]; rfl) rfl
  | prioritised w id p =>
    have systems : (w.setPriority id p).2.systems = w.systems := by
      rcases setPriority_spec (w := w) sound id p with same | ⟨x, t, same, -⟩ <;> rw [same]
    exact silent (overwritable.setPriority id p (.refl w.shared)) systems rfl
  | loaded w d state => exact silent ⟨rfl, w.shared.store.sameCatalog_setLoadState d state⟩ rfl rfl
  | accessed w program => exact silent (fresh.asked.run program (.refl w.shared)).2 rfl rfl
  | @attempted w w' report scheduler committed opened =>
    have discovering := discovering_commit fresh.catalogued committed
    obtain ⟨fresh', systems, told⟩ := fresh_refresh discovering.catalogued
    refine ⟨fresh', systems.trans discovering.systems, ?_⟩
    have shown : Passage.shown ⟨.resting w, .attempted report,
        .declaring { w'.refresh.value.2 with scheduler }⟩ = w'.shownRefreshing := by
      simp only [Passage.shown, committed]
    rw [shown]
    rcases told with ⟨clean, same, nobody⟩ | ⟨v, fresh'', -, same, everybody⟩
    · exact .silent (SameCatalog.trans ⟨discovering.registry, discovering.same clean⟩ same) nobody
    · exact .told fresh'' same (everybody.trans (by rw [discovering.systems, Moment.world]))
  | @abandoned w w' culprit cause frame failed =>
    obtain ⟨memory, scheduler, rfl, -⟩ := eq_of_declare failed
    exact silent ⟨rfl, .refl _⟩ rfl rfl
  | @declared w w' frame scheduler declared begun =>
    obtain ⟨memory, scheduler', rfl, -⟩ := eq_of_declare declared
    exact silent ⟨rfl, .refl _⟩ rfl rfl
  | @executed w fence left shared ran =>
    refine silent ?_ rfl rfl
    exact ran.preserves fresh.asked.kept (fun t locks same => same.trans ⟨rfl, .refl _⟩) (.refl w.shared)
  | @bounded w w' fence left life life' applied =>
    have same := overwritable.applyBoundary (w := w) fence life ⟨rfl, .refl _⟩
    have systems := systems_applyBoundary (w := w) sound fence life
    rw [applied] at same systems
    exact silent same systems rfl
  | finished w => exact silent (.refl _) rfl rfl

/-! ### New worlds -/

theorem catalogued_setUp (systems : List (System σ))
    (catalogued : w.shared.store.Catalogued w.shared.registry) :
    (setUp systems w).value.2.shared.store.Catalogued (setUp systems w).value.2.shared.registry ∧
      (setUp systems w).value.2.systems = w.systems := by
  induction systems generalizing w with
  | nil => exact ⟨catalogued, rfl⟩
  | cons system rest ih =>
    have ran : (system.setUp.run performSetup w).value.2.shared.store.Catalogued
          (system.setUp.run performSetup w).value.2.shared.registry ∧
        (system.setUp.run performSetup w).value.2.systems = w.systems := by
      refine Program.run_preserves
        (P := fun v : World σ => v.shared.store.Catalogued v.shared.registry ∧ v.systems = w.systems)
        (fun command _ v kept => ?_) (Program.only_true system.setUp) ⟨catalogued, rfl⟩
      obtain ⟨catalogued, systems⟩ := kept
      cases command with
      | define definition => exact ⟨catalogued.registerDefinition definition, systems⟩
      | _ => exact ⟨catalogued, systems⟩
    simp only [setUp, Logged.value_bind]
    rcases outcome : (system.setUp.run performSetup w).value with ⟨cause | ok, after⟩
    · rw [outcome] at ran
      exact ran
    · rw [outcome] at ran
      obtain ⟨catalogued', systems⟩ := ih ran.1
      exact ⟨catalogued', systems.trans ran.2⟩

theorem freeze_value (frozen : w.freeze.value = (.ok (), w')) :
    ∃ scheduler memory, w.scheduler.finalize.value = (.ok (), scheduler) ∧
      w' = { w with
        scheduler
        shared.store := (w.shared.store.refreshIndex w.shared.registry.kindCount).value.2
        shared.memory := memory } := by
  simp only [freeze, Logged.value_bind] at frozen
  rcases outcome : w.scheduler.finalize.value with ⟨cause | ok, scheduler⟩
  · rw [outcome] at frozen
    cases frozen
  · obtain ⟨memory, rebound⟩ := rebind_spec w.systems { w with
      scheduler
      shared.store := (w.shared.store.refreshIndex w.shared.registry.kindCount).value.2 }
    simp only [outcome, Logged.value_bind, rebound, Logged.value_pure] at frozen
    cases frozen
    exact ⟨scheduler, memory, rfl, rfl⟩

/-- When a world is built, all systems are told for the first time. -/
theorem told_of_new {config : WorldConfig} {types : List ComponentType} {systems : List (System σ)}
    {memory : σ} (built : (World.new config types systems memory).value = .ok w) :
    Fresh w.shared ∧ w.systems = systems ∧ ∃ v : World σ, Fresh v.shared ∧
      SameCatalog v.shared w.shared ∧
        shownBuilding config types systems memory = showings 0 systems v := by
  obtain ⟨registry, w₁, registered, done, frozen⟩ := setUp_of_new built
  have building := catalogued_setUp systems (w := unstarted config registry systems memory)
    (Store.catalogued_empty registry)
  rw [done] at building
  obtain ⟨catalogued, same⟩ := building
  obtain ⟨scheduler, memory', finalized, rfl⟩ := freeze_value frozen
  obtain ⟨-, catalogued', clean, -⟩ := catalogued.refreshIndex
  refine ⟨⟨catalogued', clean⟩, same, { w₁ with
    scheduler
    shared.store := (w₁.shared.store.refreshIndex w₁.shared.registry.kindCount).value.2 },
    ⟨catalogued', clean⟩, ⟨rfl, .refl _⟩, ?_⟩
  have systems_ : w₁.systems = systems := same
  simp only [shownBuilding, registered, done, shownFreezing, finalized, systems_]

/-! ### Runs -/

/-- What systems were told, as far as it matters later. -/
structure Told (shown : List (Showing σ)) (w : World σ) : Prop where
  fresh : Fresh w.shared
  rebinding : ∀ each ∈ shown, ∀ h ∈ each.heard,
    Query.Exact each.world.shared.registry each.world.shared.store.sequences h
  told : ∀ place < w.systems.length, ∃ last, lastShown? shown place = some last ∧
    last.world.shared.store.sequences = w.shared.store.sequences

/-- What has been told to everybody. -/
theorem told_of_showings {v : World σ} {shown : List (Showing σ)} (fresh : Fresh v.shared)
    (fresh' : Fresh w.shared) (same : SameCatalog v.shared w.shared)
    (before : ∀ each ∈ shown, ∀ h ∈ each.heard,
      Query.Exact each.world.shared.registry each.world.shared.store.sequences h) :
    Told (shown ++ showings 0 w.systems v) w where
  fresh := fresh'
  rebinding := by
    intro each member h heard
    rcases List.mem_append.mp member with old | new
    · exact before each old h heard
    · obtain ⟨same', exact_⟩ := shown_of_fresh w.systems 0 fresh each new
      rw [same'.registry, same'.store.sequences]
      exact exact_ h heard
  told := by
    intro place inside
    have listed : place ∈ (showings 0 w.systems v).map Showing.place := by
      rw [places_showings]
      exact List.mem_range'_1.mpr ⟨Nat.zero_le _, by omega⟩
    obtain ⟨each, member, rfl⟩ := List.mem_map.mp listed
    obtain ⟨last, new, found⟩ := lastShown?_of_mem member
    refine ⟨last, by rw [lastShown?_append, found, Option.some_or], ?_⟩
    obtain ⟨same', -⟩ := shown_of_fresh w.systems 0 fresh last new
    rw [same'.store.sequences, same.store.sequences]

theorem Told.step {shown : List (Showing σ)} (told : Told shown m.world) (step : Step m what m')
    (sound : m.world.shared.Sound) :
    Told (shown ++ Passage.shown ⟨m, what, m'⟩) m'.world := by
  obtain ⟨fresh, systems, informs⟩ := step.informs sound told.fresh
  cases informs with
  | silent same nobody =>
    rw [nobody, List.append_nil]
    refine ⟨fresh, told.rebinding, fun place inside => ?_⟩
    obtain ⟨last, found, known⟩ := told.told place (systems ▸ inside)
    exact ⟨last, found, known.trans same.store.sequences.symm⟩
  | told fresh' same everybody =>
    rw [everybody, ← systems]
    exact told_of_showings fresh' fresh same told.rebinding

theorem told_of_reaches {config : WorldConfig} {types : List ComponentType}
    {systems : List (System σ)} {memory : σ}
    (built : (World.new config types systems memory).value = .ok w₀) (reached : Reaches w₀ past m) :
    Told (shownBuilding config types systems memory ++ past.flatMap Passage.shown) m.world := by
  have started := started_of_new built
  induction reached with
  | start =>
    obtain ⟨fresh, same, v, fresh', catalog, everybody⟩ := told_of_new built
    rw [everybody, List.flatMap_nil, List.append_nil, ← same, ← List.nil_append (showings _ _ _)]
    exact told_of_showings fresh' fresh catalog nofun
  | step reached step ih =>
    rw [List.flatMap_append, List.flatMap_singleton, ← List.append_assoc]
    exact ih.step step (settled_of_reaches started reached).sound

end World

end EntityWorld
