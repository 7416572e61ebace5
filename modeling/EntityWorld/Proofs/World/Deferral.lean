import EntityWorld.Proofs.Fence.Foresight
import EntityWorld.Proofs.World.Ahead
import EntityWorld.Proofs.World.Asks
import EntityWorld.Proofs.World.Lifetimes
import EntityWorld.Proofs.World.Provision

/-!
# Deferred creation

An entity of types that there is no collection for waits for the next commit. It could as well have
been created in a collection that was there from the beginning: a world in which definitions were
registered for whatever another world discovers answers every call as that one does, commits the same
entities in the same order and recycles the same raw ids. Main statement: `deferral_of_new`.
-/
namespace EntityWorld

open Shared

variable {σ : Type} {ids : List DefinitionId} {names : List Sequence}

/-- Another world standing there. -/
def Moment.put (v : World σ) : Moment σ → Moment σ
  | .resting _ => .resting v
  | .declaring _ => .declaring v
  | .passing _ left => .passing v left
  | .leaving _ fence left => .leaving v fence left

theorem Moment.world_put (v : World σ) (m : Moment σ) : (m.put v).world = v := by
  cases m <;> rfl

/-- The definition that a public call names. -/
def Ask.definition? : Ask σ → Option DefinitionId
  | .create d | .setDefinitionState d _ => some d
  | .createWith _ | .destroy _ | .setPriority _ _ | .access _ | .attempt | .declare | .execute _
  | .bound _ | .finish => none

namespace Dealing

/-- What callbacks hear. -/
def heard : Dealing σ → List (Heard (Access.interface σ))
  | ⟨.access _, answer⟩ => answer.1
  | ⟨.execute _, answer⟩ => answer
  | _ => []

/-- Nobody asks which archetypes there are, or uses one of these definitions. -/
structure Blind (ids : List DefinitionId) (dealing : Dealing σ) : Prop where
  heard : ∀ h ∈ dealing.heard, h.Blind ids
  spared : ∀ d ∈ dealing.ask.definition?, d ∉ ids

instance (dealing : Dealing σ) : Decidable (dealing.Blind ids) :=
  decidable_of_iff ((∀ h ∈ dealing.heard, h.Blind ids) ∧ ∀ d ∈ dealing.ask.definition?, d ∉ ids)
    ⟨fun ⟨heard, spared⟩ => ⟨heard, spared⟩, fun blind => ⟨blind.heard, blind.spared⟩⟩

end Dealing

namespace World

variable {w v w₀ : World σ} {m m' : Moment σ} {past : List (Passage σ)} {ask : Ask σ}
  {answer : ask.Answer}

/-! ### Runs beside each other -/

/-- Who is owed a change by a boundary has been committed. -/
theorem Course.stored (course : Course past m) :
    (∀ raw ∈ m.world.registering, m.world.shared.IsStored raw) ∧
      ∀ raw ∈ m.world.unregistering, m.world.shared.IsStored raw := by
  have stored (raw : Nat) (current : m.world.census.current raw = true) :
      m.world.shared.IsStored raw :=
    (isCurrent_iff.mp current).isStored course.settled.sound.store
  constructor
  · intro raw listed
    obtain ⟨k, committed, -⟩ := (course.timely.registering raw).mp listed
    exact stored raw ((course.timely.current raw).mpr ⟨k, committed⟩)
  · intro raw listed
    obtain ⟨k, left, -, early⟩ := (course.timely.unregistering raw).mp listed
    exact stored raw ((course.timely.left raw k left).2.2 early)

/-- A world that is ahead answers the same and stays ahead. -/
theorem Served.ahead (served : Served m ask answer m') (course : Course past m)
    (ahead : Ahead ids names m.world v) (blind : Dealing.Blind ids ⟨ask, answer⟩)
    (order : m'.world.shared.discovered <+: names) :
    ∃ v', Served (m.put v) ask answer (m'.put v') ∧ Ahead ids names m'.world v' := by
  cases served with
  | created w d =>
    have agree := ahead.create (blind.spared d rfl)
    have served := Served.created v d
    rw [agree.answer] at served
    exact ⟨_, served, agree.ahead⟩
  | createdWith w types =>
    have agree := ahead.createWith order
    have served := Served.createdWith v types
    rw [agree.answer] at served
    exact ⟨_, served, agree.ahead⟩
  | destroyed w id =>
    have agree := ahead.destroy id
    have served := Served.destroyed v id
    rw [agree.answer] at served
    exact ⟨_, served, agree.ahead⟩
  | prioritised w id p =>
    have agree := ahead.setPriority id p
    have served := Served.prioritised v id p
    rw [agree.answer] at served
    exact ⟨_, served, agree.ahead⟩
  | loaded w d state =>
    have agree := ahead.setDefinitionState (blind.spared d rfl) state
    have served := Served.loaded v d state
    rw [agree.answer] at served
    exact ⟨_, served, agree.ahead⟩
  | accessed w program =>
    obtain ⟨agree, heard⟩ := ahead.access blind.heard order
    have served := Served.accessed v program
    rw [heard, agree.answer] at served
    exact ⟨_, served, agree.ahead⟩
  | @attempted w w' report scheduler committed opened =>
    obtain ⟨v', committed', after⟩ := ahead.commit.of_eq committed
    have refreshed := after.refresh
    refine ⟨_, .attempted committed' ?_, refreshed.of_scheduler scheduler⟩
    rw [refreshed.scheduler, opened]
  | @abandoned w w' culprit cause failed =>
    obtain ⟨v', failed', after⟩ := ahead.declare.of_eq failed
    exact ⟨_, .abandoned failed', after.abandon _ culprit cause⟩
  | @declared w w' frame scheduler declared begun =>
    obtain ⟨v', declared', after⟩ := ahead.declare.of_eq declared
    have begun' : v'.scheduler.beginPass = (.ok frame, scheduler) := by rw [after.scheduler, begun]
    exact ⟨_, .declared declared' begun', after.of_scheduler scheduler⟩
  | @executed w fence left moves heard shared ran =>
    obtain ⟨t, ran', after⟩ := ahead.shared.replayFence ran blind.heard order
    have scheduler : v.scheduler = w.scheduler := ahead.scheduler
    rw [← scheduler] at ran'
    exact ⟨_, .executed ran', { ahead with
      shared := after
      scheduler := congrArg (Scheduler.spend · fence) scheduler }⟩
  | @bounded w w' fence left life life' applied =>
    obtain ⟨registering, unregistering⟩ := course.stored
    obtain ⟨v', applied', after⟩ :=
      (ahead.applyBoundary fence life registering unregistering).of_eq applied
    exact ⟨v', .bounded applied', after⟩
  | finished w =>
    exact ⟨_, .finished v, { ahead with scheduler := congrArg Scheduler.endPass ahead.scheduler }⟩

theorem discovered_play {asks : List (Ask σ)} {turns : List (Turn σ)} (started : Started w₀)
    (reached : Reaches w₀ past m) (played : m.play? asks = some (turns, m')) :
    m.world.shared.discovered <+: m'.world.shared.discovered := by
  induction asks generalizing m past turns with
  | nil =>
    cases played
    exact List.prefix_refl _
  | cons ask rest ih =>
    obtain ⟨answer, next, later, served, tail, -⟩ := play?_cons_iff.mp played
    obtain ⟨what, step⟩ := (served_of_serve? served).step
    have sound := (settled_of_reaches started reached).sound
    exact (step.discovered sound.store.keyed).trans (ih (reached.step step) tail)

/-- The same was asked and answered, and the second world is ahead then. -/
structure Beside (ids : List DefinitionId) (names : List Sequence) (t t' : Turn σ) : Prop where
  dealing : t'.dealing = t.dealing
  ahead : ∃ v, t'.after = t.after.put v ∧ Ahead ids names t.after.world v

theorem play?_ahead {asks : List (Ask σ)} {turns : List (Turn σ)} (started : Started w₀)
    (reached : Reaches w₀ past m) (ahead : Ahead ids names m.world v)
    (played : m.play? asks = some (turns, m')) (blind : ∀ t ∈ turns, t.dealing.Blind ids)
    (order : m'.world.shared.discovered <+: names) :
    ∃ turns' n, (m.put v).play? asks = some (turns', n) ∧
      List.Forall₂ (Beside ids names) turns turns' := by
  induction asks generalizing m v past turns with
  | nil =>
    cases played
    exact ⟨[], _, rfl, .nil⟩
  | cons ask rest ih =>
    obtain ⟨answer, next, later, first, tail, rfl⟩ := play?_cons_iff.mp played
    have served := served_of_serve? first
    obtain ⟨what, step⟩ := served.step
    obtain ⟨v₁, served', ahead₁⟩ := served.ahead (course_of_reaches started reached) ahead
      (blind _ List.mem_cons_self) ((discovered_play started (reached.step step) tail).trans order)
    obtain ⟨turns', n, tail', rest'⟩ := ih (reached.step step) ahead₁ tail
      fun t member => blind t (List.mem_cons_of_mem _ member)
    exact ⟨⟨⟨ask, answer⟩, next.put v₁⟩ :: turns', n,
      play?_cons_iff.mpr ⟨answer, next.put v₁, turns', serve?_eq_some_iff.mpr served', tail', rfl⟩,
      .cons ⟨rfl, v₁, rfl, ahead₁⟩ rest'⟩

/-! ### What can be told from outside -/

/-- The collection for a type set. -/
def collectionOf? (w : World σ) (sequence : Sequence) : Option Collection :=
  (w.shared.store.archetypeOf? sequence).bind w.shared.store.collection?

/-- The committed entities with exactly these components, row by row. -/
def population (w : World σ) (sequence : Sequence) : Array EntityId :=
  ((w.collectionOf? sequence).map fun c => c.current.ids).getD #[]

/-- The bytes of their components of one kind, row by row. -/
def components (w : World σ) (sequence : Sequence) (kind : Kind) : Array Row :=
  (((w.collectionOf? sequence).bind fun c => c.column? kind).map Column.rows).getD #[]

/-- Nobody could tell the worlds apart without asking which archetypes there are. -/
structure Indistinct (w v : World σ) : Prop where
  registry : v.shared.registry = w.shared.registry
  entity? : ∀ raw, v.entity? raw = w.entity? raw
  population : ∀ sequence, v.population sequence = w.population sequence
  components : ∀ sequence kind, v.components sequence kind = w.components sequence kind
  -- The raw ids that were recycled, in the order in which they are used again.
  allocator : v.shared.allocator = w.shared.allocator

/-- What there is for a type set in two worlds, if the second is ahead. -/
inductive Ahead.Collected (w v : World σ) (sequence : Sequence) : Prop where
  | known {c c' : Collection} (here : w.collectionOf? sequence = some c)
      (there : v.collectionOf? sequence = some c') (filled : c.Stocked [] c')
  | early {c' : Collection} {columns : List Column} (absent : w.collectionOf? sequence = none)
      (there : v.collectionOf? sequence = some c') (current : c'.current = ⟨#[], columns, ∅⟩)
      (empty : ∀ column ∈ columns, column.size = 0)
  | unknown (absent : w.collectionOf? sequence = none) (absent' : v.collectionOf? sequence = none)

theorem Ahead.collected (ahead : Ahead ids names w v) (sequence : Sequence) :
    Collected w v sequence := by
  cases found : w.shared.store.archetypeOf? sequence with
  | some a =>
    have keyed := ahead.shared.sound.store.keyed
    have found' := ahead.shared.stocked.archetypeOf? keyed found
    obtain ⟨c, here, -⟩ := Store.exists_collection ((keyed.known sequence a).mp found)
    obtain ⟨c', there, filled⟩ := ahead.shared.collection? here
    rw [← Option.bind_some (f := w.shared.store.collection?), ← found] at here
    rw [← Option.bind_some (f := v.shared.store.collection?), ← found'] at there
    exact .known here there filled
  | none =>
    have absent : w.collectionOf? sequence = none := by rw [collectionOf?, found, Option.bind_none]
    cases found' : v.shared.store.archetypeOf? sequence with
    | none =>
      apply Collected.unknown absent
      rw [collectionOf?, found', Option.bind_none]
    | some b =>
      obtain ⟨c', there, same⟩ := Store.exists_collection
        ((ahead.shared.sound'.store.keyed.known sequence b).mp found')
      have early := ahead.shared.stocked.absent there
        (same ▸ ahead.shared.sound.store.keyed.archetypeOf?_eq_none_iff.mp found)
      obtain ⟨c, bound, filled⟩ := ahead.shared.stocked.new b c' early there
      obtain ⟨columns, empty, current, -⟩ := Collection.columns_of_bound bound
      rw [← Option.bind_some (f := v.shared.store.collection?), ← found'] at there
      exact .early absent there (filled.current.trans current) empty

theorem Ahead.indistinct (ahead : Ahead ids names w v) : Indistinct w v where
  registry := ahead.shared.registry
  entity? := ahead.shared.entity?
  population := by
    intro sequence
    unfold population
    cases ahead.collected sequence with
    | known here there filled => simp only [here, there, Option.map_some, filled.current]
    | early absent there current empty =>
      simp only [absent, there, current, Option.map_some, Option.map_none, Option.getD]
    | unknown absent absent' => rw [absent, absent']
  components := by
    intro sequence kind
    unfold components
    cases ahead.collected sequence with
    | @known c c' here there filled =>
      have column : c'.column? kind = c.column? kind := by
        rw [Collection.column?, filled.sequence, filled.current]
        rfl
      simp only [here, there, Option.bind_some, column]
    | @early c' columns absent there current empty =>
      simp only [absent, there, Option.bind_some, Option.bind_none, Option.map_none]
      cases found : c'.column? kind with
      | none => rfl
      | some column =>
        obtain ⟨place, -, at_⟩ := Option.bind_eq_some_iff.mp found
        rw [current] at at_
        exact Array.eq_empty_of_size_eq_zero (empty column (List.mem_of_getElem? at_))
    | unknown absent absent' => rw [absent, absent']
  allocator := ahead.shared.allocator

/-- Definitions for the sequences that are discovered below. -/
def unusedDefinitions : List EntityDefinition :=
  [⟨⟨8⟩, "Aged", [⟨1⟩], .unloaded⟩, ⟨⟨9⟩, "Named", [⟨2⟩, ⟨1⟩], .unloaded⟩]

/-- Three entities wait for the first frame; one gets another priority, and one is destroyed meanwhile.
The frame is abandoned, but the next is not, and its update creates one more entity. -/
def twoFrameAsks : List (Ask Nat) :=
  [.createWith [⟨1⟩], .createWith [⟨2⟩, ⟨1⟩], .createWith [⟨1⟩], .setPriority (.ofRaw 1) .high,
    .destroy (.ofRaw 3), .attempt, .declare, .attempt, .declare, .execute [.frame], .bound .none,
    .execute [.frame, .frame, .frame, .take, .work 0, .work 0, .work 0, .frame, .frame, .frame],
    .bound .none, .execute [.frame], .bound .none, .finish]

/-- Deferred creation comes to the same as creation in collections that were there from the beginning.
The second world has more definitions; nobody uses them, but they make the collections that the first
world only makes when they are needed, in the same order. Both worlds are asked for the same. -/
theorem deferral_of_new {config : WorldConfig} {types : List ComponentType} {memory : σ}
    {systems systems' : List (System σ)} {extras : List EntityDefinition} {asks : List (Ask σ)}
    {turns : List (Turn σ)}
    (built : (World.new config types systems memory).value = .ok w)
    (built' : (World.new config types systems' memory).value = .ok v)
    (provided : Provided extras systems systems')
    (played : Moment.play? asks (.resting w) = some (turns, m))
    (blind : ∀ t ∈ turns, t.dealing.Blind (extras.map EntityDefinition.id))
    (order : m.world.shared.discovered <+: v.shared.store.sequences) :
    Indistinct w v ∧ ∃ turns' n, Moment.play? asks (.resting v) = some (turns', n) ∧
      List.Forall₂ (fun t t' : Turn σ => t'.dealing = t.dealing ∧
        Indistinct t.after.world t'.after.world) turns turns' := by
  have ahead := ahead_of_new built built' provided
  apply And.intro ahead.indistinct
  obtain ⟨turns', n, played', beside⟩ :=
    play?_ahead (m := .resting w) (started_of_new built) .start ahead played blind order
  refine ⟨turns', n, played', beside.imp ?_⟩
  intro t t' both
  obtain ⟨v', after, ahead'⟩ := both.ahead
  apply And.intro both.dealing
  rw [after, Moment.world_put]
  exact ahead'.indistinct

theorem deferral_of_unusedDefinitions : ∃ w v turns m,
    (World.new .singleThreaded ageNameTypes [failsFirst] 0).value = .ok w ∧
      (World.new .singleThreaded ageNameTypes ([failsFirst] ++ [provider unusedDefinitions]) 0).value =
        .ok v ∧
      Moment.play? twoFrameAsks (.resting w) = some (turns, m) ∧ turns.length = 16 ∧
      (m.world.entity? 1).map EntityId.priority = some .high ∧
      (m.world.entity? 3).map EntityId.life = some .destroyed ∧
      Indistinct w v ∧ ∃ turns' n, Moment.play? twoFrameAsks (.resting v) = some (turns', n) ∧
        List.Forall₂ (fun t t' : Turn Nat => t'.dealing = t.dealing ∧
          Indistinct t.after.world t'.after.world) turns turns' := by
  have ran : ((session? .singleThreaded ageNameTypes [failsFirst] 0 []).any fun w =>
      (session? .singleThreaded ageNameTypes ([failsFirst] ++ [provider unusedDefinitions]) 0 []).any
        fun v => (Moment.play? twoFrameAsks (.resting w)).any fun played =>
          played.1.length = 16 ∧ (played.2.world.entity? 1).map EntityId.priority = some .high ∧
            (played.2.world.entity? 3).map EntityId.life = some .destroyed ∧
            (∀ t ∈ played.1, t.dealing.Blind (unusedDefinitions.map EntityDefinition.id)) ∧
            played.2.world.shared.discovered <+: v.shared.store.sequences) = true := by
    decide +kernel
  obtain ⟨w, made, ran⟩ := Option.any_eq_true _ _ |>.mp ran
  obtain ⟨v, made', ran⟩ := Option.any_eq_true _ _ |>.mp ran
  obtain ⟨⟨turns, m⟩, played, facts⟩ := Option.any_eq_true _ _ |>.mp ran
  obtain ⟨length, priority, life, blind, order⟩ := of_decide_eq_true facts
  have built := new_of_session? made
  have built' := new_of_session? made'
  exact ⟨w, v, turns, m, built, built', played, length, priority, life,
    deferral_of_new built built' (provided_append unusedDefinitions fun _ => rfl) played blind order⟩

end World

end EntityWorld
