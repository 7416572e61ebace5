import EntityWorld.Proofs.World.Ahead
import EntityWorld.Proofs.World.Start

/-!
# Provision

Systems may register more definitions than are needed, under ids that nobody uses. Each makes a
collection, if there is none for its components yet; the world is ahead then of what it would have
been. Main statement: `ahead_of_new`.
-/
namespace EntityWorld

variable {σ : Type} {ids : List DefinitionId} {names : List Sequence}

namespace Store

variable {s t : Store} {registry : Registry} {sequence : Sequence} {a : ArchetypeId} {c : Collection}
  {definition : EntityDefinition}

/-- Sequences have one collection at most, and definitions have collections that are there. -/
structure Charted (s : Store) : Prop where
  keyed : s.Keyed
  placed : ∀ d slot, s.definition? d = some slot → slot.archetype.index < s.sequences.length

theorem charted_empty : Store.empty.Charted where
  keyed := keyed_empty
  placed := by
    intro d slot found
    simp [definition?, empty] at found

theorem Made.prefix_sequences (made : Made registry s sequence a t) :
    s.sequences <+: t.sequences := by
  rw [made.sequences]
  split
  next => exact List.prefix_refl _
  next => exact List.prefix_append _ _

/-- What a store is like when it has one definition more, whose collection may be new. -/
structure Registered (registry : Registry) (definition : EntityDefinition) (s t : Store) : Prop where
  known : s.sequences <+: t.sequences
  kept : ∀ a c, s.collection? a = some c →
    ∃ definitions, t.collection? a = some { c with definitions }
  new : ∀ a c', s.collection? a = none → t.collection? a = some c' →
    ∃ sequence c definitions, Collection.unbound.bind registry sequence = .ok c ∧
      c' = { c with definitions }
  own : ∃ slot, t.definition? definition.id = some slot ∧ slot.archetype.index < t.sequences.length
  others : ∀ d, d ≠ definition.id → t.definition? d = s.definition? d

theorem Made.registered (definitions : List DefinitionId) (made : Made registry s sequence a t)
    (here : t.collection? a = some c) :
    Registered registry definition s { t.modifyCollection a fun _ => { c with definitions } with
      definitions := s.definitions.insert definition.id.key ⟨a, definition.state⟩
      dirty := true } := by
  have same : (t.modifyCollection a fun _ => { c with definitions }).sequences = t.sequences :=
    sequences_modifyCollection_of_eq _ here rfl
  have look (b : ArchetypeId) :
      (t.modifyCollection a fun _ => { c with definitions }).collection? b =
        if a = b then some { c with definitions } else t.collection? b := by
    rw [collection?_modifyCollection]
    split
    next at_ => rw [← at_, here, Option.map_some]
    next => rfl
  have find (d : DefinitionId) :
      (s.definitions.insert definition.id.key ⟨a, definition.state⟩)[d.key]? =
        if definition.id.key = d.key then some ⟨a, definition.state⟩ else s.definition? d :=
    getElem?_insert_nat _ _ _ _
  constructor
  case known => exact same ▸ made.prefix_sequences
  case kept =>
    intro b e found
    change ∃ definitions', (t.modifyCollection a _).collection? b = _
    rw [look]
    rcases made.collection?_eq b with old | ⟨absent, -⟩
    · split
      next at_ =>
        subst at_
        obtain rfl := Option.some.inj (here.symm.trans (old.trans found))
        exact ⟨definitions, rfl⟩
      next => exact ⟨e.definitions, by rw [old, found]⟩
    · rw [absent] at found
      cases found
  case new =>
    intro b e absent found
    change (t.modifyCollection a _).collection? b = some e at found
    rw [look] at found
    rcases made.collection?_eq b with old | ⟨-, at_, e', there, bound⟩
    · rw [absent] at old
      split at found
      next at_ =>
        subst at_
        rw [here] at old
        cases old
      next =>
        rw [old] at found
        cases found
    · subst at_
      rw [if_pos rfl] at found
      obtain rfl := Option.some.inj (here.symm.trans there)
      exact ⟨sequence, c, definitions, bound, (Option.some.inj found).symm⟩
  case own =>
    refine ⟨⟨a, definition.state⟩, (find definition.id).trans (if_pos rfl), ?_⟩
    change a.index < (t.modifyCollection a _).sequences.length
    rw [same]
    exact (List.getElem?_eq_some_iff.mp (getElem?_sequences_of_collection here)).1
  case others =>
    intro d other
    apply (find d).trans (if_neg _)
    intro key
    apply other
    obtain ⟨k⟩ := d
    exact congrArg DefinitionId.mk key.symm

theorem Keyed.registered_or_same (keyed : s.Keyed) (registry : Registry)
    (definition : EntityDefinition) :
    (s.registerDefinition registry definition).value.2 = s ∨
      Registered registry definition s (s.registerDefinition registry definition).value.2 := by
  rcases s.registerDefinition_spec keyed registry definition with
    ⟨cause, done⟩ | ⟨sequence, a, s₁, c, definitions, made, here, done⟩
  · rw [done]
    exact .inl rfl
  · rw [done]
    exact .inr (made.registered definitions here)

theorem Charted.registerDefinition (charted : s.Charted) (registry : Registry)
    (definition : EntityDefinition) : (s.registerDefinition registry definition).value.2.Charted := by
  rcases charted.keyed.registered_or_same registry definition with same | registered
  · rw [same]
    exact charted
  · refine ⟨charted.keyed.registerDefinition registry definition, fun d slot found => ?_⟩
    by_cases own : d = definition.id
    · subst own
      obtain ⟨slot', there, inside⟩ := registered.own
      obtain rfl := Option.some.inj (found.symm.trans there)
      exact inside
    · rw [registered.others d own] at found
      exact Nat.lt_of_lt_of_le (charted.placed d slot found) registered.known.length_le

end Store

namespace Shared

variable {s t : Shared σ}

/-- Without anyone who waits, nothing is early. -/
theorem Ahead.refl (sound : s.Sound) (waiting : s.deferred = []) (charted : s.store.Charted) :
    Ahead ids s.store.sequences s s where
  sound := sound
  sound' := sound
  registry := rfl
  locks := rfl
  allocator := rfl
  destroys := rfl
  memory := rfl
  stocked := by
    rw [waiting]
    refine ⟨List.prefix_refl _, charted.keyed, fun a c here => ⟨c, here, rfl, rfl, rfl⟩, ?_⟩
    intro a c absent here
    rw [absent] at here
    cases here
  names := rfl
  waiting := waiting
  apart := by
    rw [waiting]
    exact fun _ member => absurd member List.not_mem_nil
  definitions := fun _ _ => rfl
  placed := charted.placed

/-- One more definition, and perhaps one more collection that is early. -/
theorem Ahead.register (ahead : Ahead ids names s t) (waiting : s.deferred = [])
    {definition : EntityDefinition} (spare : definition.id ∈ ids) :
    Ahead ids (t.store.registerDefinition t.registry definition).value.2.sequences s
      { t with store := (t.store.registerDefinition t.registry definition).value.2 } := by
  have keeps := Store.keeps_registerDefinition ahead.sound'.store t.registry definition
  rcases ahead.sound'.store.keyed.registered_or_same t.registry definition with same | registered
  · rw [same]
    exact { ahead with names := rfl }
  · have stocked := ahead.stocked
    rw [waiting] at stocked
    refine { ahead with
      sound' := (Grows.of_store ahead.sound' keeps).sound
      names := rfl
      stocked := ?_
      definitions := fun d other => ?_ }
    · rw [waiting]
      refine ⟨stocked.order.trans registered.known, keeps.wellFormed.keyed,
        fun a c here => ?_, fun a c' absent there => ?_⟩
      · obtain ⟨c', there, filled⟩ := stocked.known a c here
        obtain ⟨definitions, there'⟩ := registered.kept a c' there
        exact ⟨_, there', filled.sequence, filled.current, filled.pending⟩
      · cases here : t.store.collection? a with
        | some c =>
          obtain ⟨definitions, there'⟩ := registered.kept a c here
          obtain rfl := Option.some.inj (there.symm.trans there')
          obtain ⟨e, bound, filled⟩ := stocked.new a c absent here
          exact ⟨e, bound, filled.sequence, filled.current, filled.pending⟩
        | none =>
          obtain ⟨sequence, e, definitions, bound, rfl⟩ := registered.new a c' here there
          rw [ahead.registry] at bound
          have own : e.sequence = sequence := (Collection.bind_unbound bound).2.2
          exact ⟨e, own ▸ bound, rfl, rfl, rfl⟩
    · rw [registered.others d fun same => other (same ▸ spare)]
      exact ahead.definitions d other

end Shared

namespace World

open Shared

variable {w v w' v' : World σ} {extras : List EntityDefinition} {systems systems' : List (System σ)}

/-! ### One more system -/

/-- Registers definitions in order, up to the first that cannot be. -/
def provide : List EntityDefinition → Program (Setup.interface σ) (Except WorldError Unit)
  | [] => return .ok ()
  | definition :: rest => do
    match ← Setup.define definition with
    | .error cause => return .error cause
    | .ok _ => provide rest

/-- A system that does nothing but register definitions. -/
def provider (extras : List EntityDefinition) : System σ where
  name := "provider"
  setUp := provide extras
  declare := return .ok ()

theorem run_provide_cons (definition : EntityDefinition) (rest : List EntityDefinition) (w : World σ) :
    ((provide (definition :: rest)).run performSetup w).value =
      match w.shared.store.registerDefinition w.shared.registry definition |>.value with
      | (.error cause, store) => (.error cause, { w with shared.store := store })
      | (.ok _, store) => ((provide rest).run performSetup { w with shared.store := store }).value := by
  rw [provide, Program.value_run_bind]
  change ((match (w.shared.store.registerDefinition w.shared.registry definition).value.1 with
    | .error cause => return .error cause
    | .ok _ => provide rest : Program (Setup.interface σ) (Except WorldError Unit)).run performSetup
      { w with shared.store :=
        (w.shared.store.registerDefinition w.shared.registry definition).value.2 }).value = _
  rcases (w.shared.store.registerDefinition w.shared.registry definition).value with
    ⟨cause | a, store⟩ <;> rfl

theorem Ahead.provide (extras : List EntityDefinition) (spare : ∀ d ∈ extras, d.id ∈ ids)
    (ahead : Ahead ids names w v) (waiting : w.shared.deferred = []) :
    ∃ more, Ahead ids more w ((World.provide extras).run performSetup v).value.2 := by
  induction extras generalizing v names with
  | nil => exact ⟨names, ahead⟩
  | cons definition rest ih =>
    have registered := ahead.shared.register waiting (spare definition List.mem_cons_self)
    have later (d : EntityDefinition) (member : d ∈ rest) := spare d (List.mem_cons_of_mem _ member)
    rw [run_provide_cons]
    rcases outcome : (v.shared.store.registerDefinition v.shared.registry definition).value with
      ⟨cause | a, store⟩
    · rw [outcome] at registered
      exact ⟨_, { ahead with shared := registered }⟩
    · rw [outcome] at registered
      exact ih later { ahead with shared := registered }

/-! ### Systems that provide definitions -/

/-- Systems that do the same as others, but at the end have registered these definitions too. -/
structure Provided (extras : List EntityDefinition) (systems systems' : List (System σ)) : Prop where
  setUp : ∀ w w' v : World σ, (World.setUp systems w).value = (.ok (), w') →
    (World.setUp systems' w).value = (.ok (), v) →
      ((World.provide extras).run performSetup w').value = (.ok (), v)
  alike : Alike systems systems'

theorem setUp_append (first second : List (System σ)) (w : World σ) :
    (setUp (first ++ second) w).value =
      match (setUp first w).value with
      | (.error cause, w) => (.error cause, w)
      | (.ok (), w) => (setUp second w).value := by
  induction first generalizing w with
  | nil => rfl
  | cons system rest ih =>
    simp only [List.cons_append, setUp, Logged.value_bind]
    rcases (system.setUp.run performSetup w).value with ⟨source | ok, w'⟩
    · rfl
    · exact ih w'

theorem rebind_append (first second : List (System σ)) (w : World σ) :
    (rebind (first ++ second) w).value = (rebind second (rebind first w).value).value := by
  induction first generalizing w with
  | nil => rfl
  | cons system rest ih => exact ih _

/-- The provider comes last, and does nothing afterwards. -/
theorem provided_append (extras : List EntityDefinition)
    (still : ∀ w, (rebind systems w).value = w) :
    Provided extras systems (systems ++ [provider extras]) where
  setUp := by
    intro w w' v done done'
    rw [setUp_append, done] at done'
    simp only [setUp, Logged.value_bind, provider] at done'
    rcases outcome : ((World.provide extras).run performSetup w').value with ⟨cause | ok, v'⟩
    · rw [outcome] at done'
      cases done'
    · rw [outcome] at done'
      cases done'
      rfl
  alike := by
    constructor
    · intro w
      rw [declare_append]
      rcases (declare systems w).value with ⟨failure | ok, w'⟩ <;> rfl
    · exact still
    · intro w
      rw [rebind_append, still]
      rfl

/-- Two worlds that differ in their systems only. -/
structure SameButSystems (systems systems' : List (System σ)) (w v : World σ) : Prop where
  systems : w.systems = systems
  same : v = { w with systems := systems' }
  charted : w.shared.store.Charted

theorem SameButSystems.performSetup (command : Setup.Request σ)
    (same : SameButSystems systems systems' w v) :
    (World.performSetup command v).value.1 = (World.performSetup command w).value.1 ∧
      SameButSystems systems systems' (World.performSetup command w).value.2
        (World.performSetup command v).value.2 := by
  obtain ⟨rfl, rfl, charted⟩ := same
  cases command with
  | define definition =>
    exact ⟨rfl, rfl, rfl, charted.registerDefinition w.shared.registry definition⟩
  | fence | kindOf | kindCount | exchange => exact ⟨rfl, rfl, rfl, charted⟩

/-- What systems ask for does not depend on who else asks. -/
theorem SameButSystems.setUp (asking : List (System σ))
    (same : SameButSystems systems systems' w v) :
    (World.setUp asking v).value.1 = (World.setUp asking w).value.1 ∧
      SameButSystems systems systems' (World.setUp asking w).value.2
        (World.setUp asking v).value.2 := by
  induction asking generalizing w v with
  | nil => exact ⟨rfl, same⟩
  | cons system rest ih =>
    obtain ⟨answer, after⟩ := Program.run_related (R := SameButSystems systems systems')
      (fun command w v same => same.performSetup command) system.setUp same
    simp only [World.setUp, Logged.value_bind]
    rcases outcome : (system.setUp.run World.performSetup w).value with ⟨result, w'⟩
    rcases outcome' : (system.setUp.run World.performSetup v).value with ⟨result', v'⟩
    rw [outcome, outcome'] at answer after
    obtain rfl : result' = result := answer
    cases result' with
    | error cause => exact ⟨rfl, after⟩
    | ok => exact ih after

theorem Empty.deferred (empty : Empty w) : w.shared.deferred = [] := by
  apply List.eq_nil_iff_forall_not_mem.mpr
  intro d waits
  have found := empty.sound.entity?_of_mem (mem_ids.mpr (.inr ⟨d, waits, rfl⟩))
  rw [empty.absent] at found
  cases found

theorem Ahead.freeze (ahead : Ahead ids names w v) (frozen : w.freeze.value = (.ok (), w'))
    (frozen' : v.freeze.value = (.ok (), v')) : Ahead ids names w' v' := by
  obtain ⟨scheduler, index, dirty, memory, finalized, rfl, still⟩ := freeze_eq frozen
  obtain ⟨scheduler', index', dirty', memory', finalized', rfl, still'⟩ := freeze_eq frozen'
  rw [ahead.scheduler, finalized] at finalized'
  cases finalized'
  rw [still ahead.systems.still, still' ahead.systems.still']
  exact (ahead.of_shared (ahead.shared.of_index index index' dirty dirty')).of_scheduler scheduler

/-- A world with definitions that are provided is ahead of the same world without them. -/
theorem ahead_of_new {config : WorldConfig} {types : List ComponentType} {memory : σ}
    (built : (World.new config types systems memory).value = .ok w)
    (built' : (World.new config types systems' memory).value = .ok v)
    (provided : Provided extras systems systems') :
    Ahead (extras.map EntityDefinition.id) v.shared.store.sequences w v := by
  obtain ⟨registry, w₁, registered, done, frozen⟩ := setUp_of_new built
  obtain ⟨registry', v₁, registered', done', frozen'⟩ := setUp_of_new built'
  obtain rfl : registry' = registry := Except.ok.inj (registered'.symm.trans registered)
  have building := (building_unstarted config systems memory
    (Registry.sound_build registered)).setUp systems
  -- What the first systems do, they do in a world with the others as well.
  have same : SameButSystems systems systems' (unstarted config registry' systems memory)
      (unstarted config registry' systems' memory) := ⟨rfl, rfl, Store.charted_empty⟩
  obtain ⟨answer, after⟩ := same.setUp systems
  match outcome : (World.setUp systems (unstarted config registry' systems' memory)).value with
  | (result, v₀) =>
    rw [done] at building answer after
    rw [outcome] at answer after
    obtain rfl : result = .ok () := answer
    obtain ⟨rfl, rfl, charted⟩ := after
    have early := provided.setUp _ _ _ outcome done'
    have same : Ahead (extras.map EntityDefinition.id) w₁.shared.store.sequences w₁
        { w₁ with systems := systems' } :=
      { shared := .refl building.empty.sound building.empty.deferred charted
        scheduler := rfl
        registering := rfl
        unregistering := rfl
        nextUnregistering := rfl
        systems := provided.alike }
    obtain ⟨more, ahead⟩ := same.provide extras
      (fun d member => List.mem_map_of_mem member) building.empty.deferred
    rw [early] at ahead
    have ended := ahead.freeze frozen frozen'
    rwa [← ended.shared.names] at ended

end World

end EntityWorld
