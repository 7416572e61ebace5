import EntityWorld.Proofs.World.Discovery

/-!
# Worlds that are ahead

Two worlds that differ in collections that one of them has early answer every call alike, and after it
they still differ in nothing else. Each function of a world has its lemma here.
-/
namespace EntityWorld

variable {σ : Type} {ids : List DefinitionId} {names : List Sequence}

namespace Shared

variable {s t : Shared σ} {raw : Nat}

/-- Where two worlds look for a raw id, if the second is ahead. -/
inductive Found (s t : Shared σ) (raw : Nat) : Prop where
  | stored {x : EntityId} (here : s.store.entity? raw = some x) (there : t.store.entity? raw = some x)
  | waiting {d : Deferred} (absent : s.store.entity? raw = none) (waits : s.deferred? raw = some d)
      (there : t.store.entity? raw = some d.id)
  | unknown (absent : s.store.entity? raw = none) (idle : s.deferred? raw = none)
      (absent' : t.store.entity? raw = none) (idle' : t.deferred? raw = none)

theorem Ahead.found (ahead : Ahead ids names s t) (raw : Nat) : Found s t raw := by
  have there := ahead.store_entity? raw
  rw [Shared.entity?] at there
  cases here : s.store.entity? raw with
  | some x =>
    rw [here] at there
    exact .stored here there
  | none =>
    rw [here, Option.none_or] at there
    cases waits : s.deferred? raw with
    | some d =>
      rw [waits] at there
      exact .waiting here waits there
    | none =>
      rw [waits] at there
      exact .unknown here waits there (by rw [deferred?, ahead.waiting]; rfl)

/-- Definitions are loaded alike. -/
theorem Ahead.setLoadState (ahead : Ahead ids names s t) {d : DefinitionId} (other : d ∉ ids)
    (state : LoadState) :
    (t.store.setLoadState d state).1 = (s.store.setLoadState d state).1 ∧
      Ahead ids names { s with store := (s.store.setLoadState d state).2 }
        { t with store := (t.store.setLoadState d state).2 } := by
  have sound := (Grows.of_store ahead.sound (Store.keeps_setLoadState ahead.sound.store d state)).sound
  have sound' :=
    (Grows.of_store ahead.sound' (Store.keeps_setLoadState ahead.sound'.store d state)).sound
  unfold Store.setLoadState at sound sound' ⊢
  rw [ahead.definitions d other] at sound' ⊢
  match found : s.store.definition? d with
  | none => exact ⟨rfl, ahead⟩
  | some slot =>
    simp only [found] at sound sound' ⊢
    have look (u : Store) (e : DefinitionId) :
        ({ u with definitions := u.definitions.insert d.key { slot with state } } : Store).definition? e =
          if d.key = e.key then some { slot with state } else u.definition? e :=
      getElem?_insert_nat _ _ _ _
    have stocked := ahead.stocked
    refine ⟨trivial, { ahead with
      sound, sound'
      stocked := ⟨stocked.order, stocked.keyed.of_same rfl rfl, stocked.known, stocked.new⟩
      definitions := fun e apart => ?_
      placed := fun e slot' here => ?_ }⟩
    · rw [look, look, ahead.definitions e apart]
    · rw [look] at here
      split at here
      · cases here
        exact ahead.placed d slot found
      · exact ahead.placed e slot' here

/-- The index of kinds is for queries only. -/
theorem Ahead.of_index (ahead : Ahead ids names s t) (index index' : ArchetypeIndex)
    (dirty dirty' : Bool) :
    Ahead ids names { s with store := { s.store with index, dirty } }
      { t with store := { t.store with index := index', dirty := dirty' } } :=
  { ahead with
    sound := (Grows.of_store ahead.sound
      (.of_eq (t := { s.store with index, dirty }) ahead.sound.store rfl rfl rfl)).sound
    sound' := (Grows.of_store ahead.sound'
      (.of_eq (t := { t.store with index := index', dirty := dirty' }) ahead.sound'.store rfl rfl
        rfl)).sound
    stocked := ⟨ahead.stocked.order, ahead.stocked.keyed.of_same rfl rfl, ahead.stocked.known,
      ahead.stocked.new⟩ }

/-- Both worlds have committed: nobody waits, and what was early is no longer. -/
theorem Ahead.committed {store store' : Store} {allocator : IdAllocator}
    (ahead : Ahead ids names s t)
    (sound : ({ s with deferred := [], store, allocator } : Shared σ).Sound)
    (sound' : ({ t with deferred := [], store := store', allocator } : Shared σ).Sound)
    (stocked : Store.Stocked s.registry [] store store')
    (met : store.sequences = discover s.store.sequences s.deferred)
    (definitions : store.definitions = s.store.definitions)
    (sequences' : store'.sequences = t.store.sequences)
    (definitions' : store'.definitions = t.store.definitions) :
    Ahead ids names { s with deferred := [], store, allocator }
      { t with deferred := [], store := store', allocator } :=
  { ahead with
    sound, sound', stocked
    allocator := rfl
    names := sequences'.trans ahead.names
    waiting := rfl
    apart := fun d member => absurd member List.not_mem_nil
    definitions := fun d other => by
      have same := ahead.definitions d other
      simp only [Store.definition?, definitions, definitions'] at same ⊢
      exact same
    placed := fun d slot found => by
      simp only [Store.definition?, definitions] at found
      rw [met]
      exact Nat.lt_of_lt_of_le (ahead.placed d slot found) (prefix_discover _ _).length_le }

end Shared

namespace World

open Shared

variable {w v : World σ} {raw : Nat}

/-- Systems that declare the same, and that new archetypes leave cold. -/
structure Alike (systems systems' : List (System σ)) : Prop where
  declare : ∀ w, (World.declare systems' w).value = (World.declare systems w).value
  still : ∀ w, (rebind systems w).value = w
  still' : ∀ w, (rebind systems' w).value = w

/-- The second world has collections early that the first makes late. -/
structure Ahead (ids : List DefinitionId) (names : List Sequence) (w v : World σ) : Prop where
  shared : Shared.Ahead ids names w.shared v.shared
  scheduler : v.scheduler = w.scheduler
  registering : v.registering = w.registering
  unregistering : v.unregistering = w.unregistering
  nextUnregistering : v.nextUnregistering = w.nextUnregistering
  systems : Alike w.systems v.systems

/-- The same answer, in worlds of which the second is ahead. -/
structure Agree {α : Type} (ids : List DefinitionId) (names : List Sequence) (r r' : α × World σ) :
    Prop where
  answer : r'.1 = r.1
  ahead : Ahead ids names r.2 r'.2

theorem Agree.of_eq {α : Type} {r r' : α × World σ} {answer : α} {w' : World σ}
    (agree : Agree ids names r r') (outcome : r = (answer, w')) :
    ∃ v', r' = (answer, v') ∧ Ahead ids names w' v' := by
  subst outcome
  exact ⟨r'.2, Prod.ext agree.answer rfl, agree.ahead⟩

namespace Ahead

theorem of_shared (ahead : Ahead ids names w v) {s t : Shared σ} (shared : Shared.Ahead ids names s t) :
    Ahead ids names { w with shared := s } { v with shared := t } :=
  { ahead with shared }

theorem of_scheduler (ahead : Ahead ids names w v) (scheduler : Scheduler σ) :
    Ahead ids names { w with scheduler } { v with scheduler } :=
  { ahead with scheduler := rfl }

theorem of_registering (ahead : Ahead ids names w v) (registering : List Nat) :
    Ahead ids names { w with registering } { v with registering } :=
  { ahead with registering := rfl }

theorem of_unregistering (ahead : Ahead ids names w v) (unregistering : List Nat) :
    Ahead ids names { w with unregistering } { v with unregistering } :=
  { ahead with unregistering := rfl }

/-! ### Public calls -/

theorem create (ahead : Ahead ids names w v) {d : DefinitionId} (other : d ∉ ids) :
    Agree ids names (w.create d) (v.create d) := by
  obtain ⟨answer, shared⟩ := ahead.shared.create other
  exact ⟨answer, ahead.of_shared shared⟩

theorem createWith (ahead : Ahead ids names w v) {types : List TypeId}
    (order : (w.createWith types).2.shared.discovered <+: names) :
    Agree ids names (w.createWith types) (v.createWith types) := by
  obtain ⟨answer, shared⟩ := ahead.shared.createWith order
  exact ⟨answer, ahead.of_shared shared⟩

theorem setDefinitionState (ahead : Ahead ids names w v) {d : DefinitionId} (other : d ∉ ids)
    (state : LoadState) :
    Agree ids names (w.setDefinitionState d state) (v.setDefinitionState d state) := by
  obtain ⟨answer, shared⟩ := ahead.shared.setLoadState other state
  exact ⟨answer, ahead.of_shared shared⟩

theorem access {α : Type} (ahead : Ahead ids names w v) {program : Program (Access.interface σ) α}
    (blind : ∀ h ∈ program.heard Access.perform w.shared, h.Blind ids)
    (order : (w.access program).value.2.shared.discovered <+: names) :
    Agree ids names (w.access program).value (v.access program).value ∧
      program.heard Access.perform v.shared = program.heard Access.perform w.shared := by
  obtain ⟨answer, heard, shared⟩ := ahead.shared.run blind order
  exact ⟨⟨answer, ahead.of_shared shared⟩, heard⟩

/-- Whether the entity waits in the first world or not, it has the new priority in both. -/
theorem setPriority (ahead : Ahead ids names w v) (id : EntityId) (p : Priority) :
    Agree ids names (w.setPriority id p) (v.setPriority id p) := by
  unfold World.setPriority
  cases ahead.shared.found id.raw with
  | @stored x here there =>
    obtain ⟨store, store', updated, updated', shared⟩ :=
      ahead.shared.update_of_stored (x.withPriority p)
        (ahead.shared.sound.store.entity?_eq_some_iff.mp here).1
        (EntityId.raw_withPriority x p) (.inl (EntityId.life_withPriority x p).symm)
    simp only [here, there, updated, updated']
    exact ⟨rfl, ahead.of_shared shared⟩
  | @waiting d absent waits there =>
    obtain ⟨store, updated, shared⟩ :=
      ahead.shared.update_of_waiting (fun id => id.withPriority p) waits
        (EntityId.raw_withPriority d.id p) (.inl (EntityId.life_withPriority d.id p).symm)
    simp only [absent, waits, there, updated]
    exact ⟨rfl, ahead.of_shared shared⟩
  | unknown absent idle absent' idle' =>
    simp only [absent, idle, absent', idle']
    exact ⟨rfl, ahead⟩

/-! ### Life-state changes -/

theorem setLife (ahead : Ahead ids names w v) {x : EntityId} {target : LifeState}
    (held : x ∈ w.shared.store.ids) (step : x.life.canBecome target = true) :
    Agree ids names (w.setLife x target).value (v.setLife x target).value := by
  obtain ⟨store, store', updated, updated', shared⟩ :=
    ahead.shared.update_of_stored (x.withLife target) held (EntityId.raw_withLife x target)
      (.inr (by rwa [EntityId.life_withLife]))
  simp only [World.setLife, EntityId.transition_of_canBecome step, updated, updated', Logged.value_pure]
  exact ⟨rfl, ahead.of_shared shared⟩

theorem setLife_of_waiting (ahead : Ahead ids names w v) {d : Deferred} {target : LifeState}
    (waits : w.shared.deferred? raw = some d) (step : d.id.life.canBecome target = true) :
    ∃ store, (v.setLife d.id target).value = (.ok (), { v with shared.store := store }) ∧
      Shared.Ahead ids names (w.shared.modifyDeferred raw fun id => id.withLife target)
        { v.shared with store } := by
  obtain ⟨store, updated, shared⟩ :=
    ahead.shared.update_of_waiting (fun id => id.withLife target) waits
      (EntityId.raw_withLife d.id target) (.inr (by rwa [EntityId.life_withLife]))
  refine ⟨store, ?_, shared⟩
  simp only [World.setLife, EntityId.transition_of_canBecome step, updated, Logged.value_pure]

theorem applyDestroy (ahead : Ahead ids names w v) (id : EntityId) :
    Agree ids names (w.applyDestroy id).value (v.applyDestroy id).value := by
  unfold World.applyDestroy
  cases ahead.shared.found id.raw with
  | @stored x here there =>
    simp only [here, there]
    split
    next able =>
      have agree := ahead.setLife (ahead.shared.sound.store.entity?_eq_some_iff.mp here).1
        (canUnregister_iff.mp able)
      cases outcome : (w.setLife x .unregister).value with
      | mk result w' =>
        obtain ⟨v', outcome', after⟩ := agree.of_eq outcome
        simp only [Logged.value_bind, outcome, outcome']
        cases result with
        | error fault => exact ⟨rfl, after⟩
        | ok => exact ⟨rfl, { after with
            nextUnregistering := congrArg (· ++ [id.raw]) after.nextUnregistering }⟩
    next unable => exact ⟨rfl, ahead⟩
  | @waiting d absent waits there =>
    simp only [absent, waits, there]
    split
    next able =>
      obtain ⟨store, set, shared⟩ := ahead.setLife_of_waiting waits (canUnregister_iff.mp able)
      simp only [Logged.value_bind, set]
      exact ⟨rfl, { ahead with
        shared
        nextUnregistering := congrArg (· ++ [id.raw]) ahead.nextUnregistering }⟩
    next unable => exact ⟨rfl, ahead⟩
  | unknown absent idle absent' idle' =>
    simp only [absent, idle, absent', idle']
    exact ⟨rfl, ahead⟩

theorem destroy (ahead : Ahead ids names w v) (id : EntityId) :
    Agree ids names (w.destroy id).value (v.destroy id).value := by
  cases outcome : (w.applyDestroy id).value with
  | mk result w' =>
    obtain ⟨v', outcome', after⟩ := (ahead.applyDestroy id).of_eq outcome
    simp only [World.destroy, Logged.value_bind, outcome, outcome']
    cases result with
    | error fault => exact ⟨rfl, after⟩
    | ok made => cases made <;> exact ⟨rfl, after⟩

theorem applyDestroys (requests : List EntityId) (count : Nat) (ahead : Ahead ids names w v) :
    Agree ids names (World.applyDestroys requests count w).value
      (World.applyDestroys requests count v).value := by
  induction requests generalizing w v count with
  | nil => exact ⟨rfl, ahead⟩
  | cons id rest ih =>
    cases outcome : (w.applyDestroy id).value with
    | mk result w' =>
      obtain ⟨v', outcome', after⟩ := (ahead.applyDestroy id).of_eq outcome
      simp only [World.applyDestroys, Logged.value_bind, outcome, outcome']
      cases result with
      | error fault => exact ⟨rfl, after⟩
      | ok made =>
        cases made with
        | unregistered => exact ih (count + 1) after
        | noEffect | unknown => exact ih count after

/-- Who is listed has a row in both worlds. -/
theorem advance {source target : LifeState} (step : source.canBecome target = true)
    (listed : List Nat) (count : Nat) (ahead : Ahead ids names w v)
    (stored : ∀ raw ∈ listed, w.shared.IsStored raw) :
    Agree ids names (World.advance source target listed count w).value
      (World.advance source target listed count v).value := by
  induction listed generalizing w v count with
  | nil => exact ⟨rfl, ahead⟩
  | cons raw rest ih =>
    have later (raw : Nat) (member : raw ∈ rest) := stored raw (List.mem_cons_of_mem _ member)
    obtain ⟨x, here⟩ := stored raw List.mem_cons_self
    have held := (ahead.shared.sound.store.entity?_eq_some_iff.mp here).1
    have there : v.shared.store.entity? raw = some x := by
      rw [ahead.shared.store_entity?, Shared.entity?, here, Option.some_or]
    simp only [World.advance, here, there]
    split
    next due =>
      have able : x.life.canBecome target = true := by rwa [due]
      obtain ⟨store, set, relived⟩ := setLife_spec (w := w) target ahead.shared.sound here able
      obtain ⟨v', set', after⟩ := (ahead.setLife held able).of_eq set
      simp only [Logged.value_bind, set, set']
      exact ih (count + 1) after fun raw member => (relived.stored raw).mpr (later raw member)
    next idle => exact ih count ahead later

/-- Who is owed a change by a boundary has a row by then. -/
theorem applyBoundary (ahead : Ahead ids names w v) (fence : FenceId) (life : LifecycleReport)
    (registering : ∀ raw ∈ w.registering, w.shared.IsStored raw)
    (unregistering : ∀ raw ∈ w.unregistering, w.shared.IsStored raw) :
    Agree ids names (w.applyBoundary fence life).value (v.applyBoundary fence life).value := by
  have taken := ahead.of_shared (ahead.shared.of_destroys [])
  obtain ⟨count, t, new, applied, unregistered⟩ :=
    applyDestroys_spec (w := { w with shared.destroys := [] }) w.shared.destroys life.unregistered
      taken.shared.sound
  obtain ⟨v', applied', after⟩ := (taken.applyDestroys _ _).of_eq applied
  simp only [World.applyBoundary, Logged.value_bind, ahead.shared.destroys, applied, applied']
  -- Requests take nobody out of a row.
  have kept (raw : Nat) (stored : w.shared.IsStored raw) : t.IsStored raw :=
    (unregistered.relived.stored raw).mpr stored
  split
  next first =>
    rw [after.registering]
    obtain ⟨answer, ended⟩ := (after.of_registering []).advance
      (rfl : LifeState.canBecome .register .alive = true) w.registering life.promoted
      fun raw listed => kept raw (registering raw listed)
    exact ⟨congrArg (Except.map fun promoted => _) answer, ended⟩
  next =>
    split
    next last =>
      rw [after.unregistering]
      obtain ⟨answer, ended⟩ := (after.of_unregistering []).advance
        (rfl : LifeState.canBecome .unregister .destroyed = true) w.unregistering life.destroyed
        fun raw listed => kept raw (unregistering raw listed)
      exact ⟨congrArg (Except.map fun destroyed => _) answer, ended⟩
    next => exact ⟨rfl, after⟩

/-! ### Frames -/

/-- Collections that are made from the queue are those that the other store has already. -/
theorem materialize_of_stocked {queue : List Deferred} {t : Store} (keyed : w.shared.store.Keyed)
    (stocked : Store.Stocked w.shared.registry queue w.shared.store t)
    (bindable : ∀ d ∈ queue, ∃ c, Collection.unbound.bind w.shared.registry d.sequence = .ok c) :
    ∃ store, (materialize queue w).value = (.ok (), { w with shared.store := store }) ∧
      Store.Stocked w.shared.registry [] store t ∧
      store.definitions = w.shared.store.definitions := by
  induction queue generalizing w with
  | nil => exact ⟨w.shared.store, rfl, stocked, rfl⟩
  | cons entry rest ih =>
    obtain ⟨a, store₁, made⟩ := Store.getOrCreate_of_bindable (s := w.shared.store)
      (bindable entry List.mem_cons_self)
    have making := Store.made_of_getOrCreate keyed made
    obtain ⟨store₂, created, stocked₂, definitions⟩ := stocked.settle making
    have keyed' := (making.keyed keyed).create a entry.id
    rw [created] at keyed'
    obtain ⟨store, done, ended, definitions'⟩ := ih (w := { w with shared.store := store₂ }) keyed'
      stocked₂ fun d member => bindable d (List.mem_cons_of_mem entry member)
    refine ⟨store, ?_, ended, definitions'.trans definitions⟩
    simp only [materialize, Logged.value_bind, made, created, done]

/-- Making collections late, the commit moves the same rows, takes the same entities away and recycles
the same raw ids. -/
theorem commit (ahead : Ahead ids names w v) :
    Agree ids names w.commit.value v.commit.value := by
  obtain ⟨report, s, done, -, -, committed⟩ := commit_spec (w := w) ahead.shared.sound
  obtain ⟨report', t, done', -, -, committed'⟩ := commit_spec (w := v) ahead.shared.sound'
  obtain ⟨w₁, store₂, a, materialized, stored, recycled, same⟩ := stages_of_commit done
  obtain ⟨v₁, t₂, b, idle, stored', recycled', same'⟩ := stages_of_commit done'
  -- One of them makes collections that the other has, which has nothing to make.
  obtain ⟨store, queued, stocked, definitions⟩ :=
    materialize_of_stocked (w := { w with shared.deferred := [] }) ahead.shared.sound.store.keyed
      ahead.shared.stocked ahead.shared.sound.bindable
  obtain ⟨-, met⟩ := sequences_materialize (w := { w with shared.deferred := [] })
    ahead.shared.sound.store.keyed queued
  cases materialized.symm.trans queued
  rw [ahead.shared.waiting] at idle
  cases idle
  obtain ⟨answer, stocked₂⟩ := stocked.commit
  obtain ⟨sequences, definitions₂⟩ := store.sequences_commit
  obtain ⟨sequences', definitions'⟩ := v.shared.store.sequences_commit
  simp only at stored stored'
  rw [stored] at answer stocked₂ sequences definitions₂
  rw [stored'] at answer stocked₂ sequences' definitions'
  cases answer
  -- Both release the same raw ids to allocators that are the same.
  obtain ⟨outcome, allocator, freed⟩ :=
    recycle_eq (σ := σ) report.removed.toList w.shared.allocator
  cases recycled.symm.trans (freed _ rfl)
  cases recycled'.symm.trans (freed _ ahead.shared.allocator)
  cases congrArg World.shared same
  cases congrArg World.shared same'
  rw [done, done']
  have shared := ahead.shared.committed committed.sound committed'.sound stocked₂
    (sequences.trans met) (definitions₂.trans definitions) sequences' definitions'
  exact ⟨rfl, {
    shared
    scheduler := ahead.scheduler
    registering := congrArg (· ++ _) ahead.registering
    unregistering := congrArg₂ (· ++ ·) ahead.unregistering ahead.nextUnregistering
    nextUnregistering := rfl
    systems := ahead.systems }⟩

/-- The index of only one of the worlds may have been stale, but nobody looks. -/
theorem refresh (ahead : Ahead ids names w v) :
    Ahead ids names w.refresh.value.2 v.refresh.value.2 := by
  obtain ⟨index, dirty, memory, done, still⟩ := refresh_eq w
  obtain ⟨index', dirty', memory', done', still'⟩ := refresh_eq v
  rw [done, done', still ahead.systems.still, still' ahead.systems.still']
  exact ahead.of_shared (ahead.shared.of_index index index' dirty dirty')

theorem performDeclaration (ahead : Ahead ids names w v) (command : Declaration.Request σ) :
    Agree ids names (World.performDeclaration command w).value
      (World.performDeclaration command v).value := by
  cases command with
  | schedule update =>
    simp only [World.performDeclaration, Logged.value_bind, ahead.scheduler]
    exact ⟨rfl, ahead.of_scheduler _⟩
  | start update =>
    simp only [World.performDeclaration, Logged.value_bind, ahead.scheduler]
    exact ⟨rfl, ahead.of_scheduler _⟩
  | stop name =>
    simp only [World.performDeclaration, Logged.value_bind, ahead.scheduler]
    exact ⟨rfl, ahead.of_scheduler _⟩
  | has name => exact ⟨congrArg (Scheduler.hasConstant · name) ahead.scheduler, ahead⟩
  | kindOf type => exact ⟨congrArg (Registry.kindOf? · type) ahead.shared.registry, ahead⟩
  | frame => exact ⟨congrArg (Scheduler.frame · + 1) ahead.scheduler, ahead⟩
  | exchange change =>
    simp only [World.performDeclaration, ahead.shared.memory]
    exact ⟨rfl, ahead.of_shared (ahead.shared.of_memory _)⟩

theorem declare_of_systems (systems : List (System σ)) (ahead : Ahead ids names w v) :
    Agree ids names (World.declare systems w).value (World.declare systems v).value := by
  induction systems generalizing w v with
  | nil => exact ⟨rfl, ahead⟩
  | cons system rest ih =>
    obtain ⟨answer, after⟩ := Program.run_related (R := Ahead ids names)
      (fun command w v ahead =>
        ⟨(ahead.performDeclaration command).answer, (ahead.performDeclaration command).ahead⟩)
      system.declare ahead
    cases outcome : (system.declare.run World.performDeclaration w).value with
    | mk result w' =>
      obtain ⟨v', outcome', after⟩ := Agree.of_eq ⟨answer, after⟩ outcome
      simp only [World.declare, Logged.value_bind, outcome, outcome']
      cases result with
      | error cause => exact ⟨rfl, after⟩
      | ok => exact ih after

theorem declare (ahead : Ahead ids names w v) :
    Agree ids names (World.declare w.systems w).value (World.declare v.systems v).value := by
  rw [ahead.systems.declare]
  exact declare_of_systems w.systems ahead

theorem abandon (ahead : Ahead ids names w v) (frame : Nat) (culprit : String) (cause : WorldError) :
    Ahead ids names (w.abandon frame culprit cause).value (v.abandon frame culprit cause).value := by
  have same : (v.abandon frame culprit cause).value =
      { v with scheduler := w.scheduler.discardOneShots.2 } := by
    rw [← ahead.scheduler]
    rfl
  rw [same]
  exact ahead.of_scheduler _

end Ahead

end World

end EntityWorld
