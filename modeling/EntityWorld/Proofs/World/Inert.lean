import EntityWorld.Proofs.World.Declarations
import EntityWorld.Proofs.World.Deferral
import EntityWorld.Proofs.World.MirroredRun
import EntityWorld.Proofs.World.Queries

/-!
# What priorities come to

Priorities stick, and nothing depends on them: a run in which nobody calls `setPriority` comes to the
same but for the priorities themselves, if callbacks do not depend on them either. Main statement:
`prioritised_of_new`.
-/
namespace EntityWorld

open EntityId (changeAt)
open List (Forall₂)
open World (Settled)

variable {σ : Type} {Memory : σ → σ → Prop}

/-- In the second run all entities have the priority of new ones. Callbacks may remember whatever comes to
the same for them, and log what they want. -/
def Mirror.inert (Memory : σ → σ → Prop) : Mirror σ where
  relabel x := x.withPriority .normal
  raw_relabel x := EntityId.raw_withPriority x .normal
  life_relabel x := EntityId.life_withPriority x .normal
  relabel_withLife _ _ := EntityId.ext_fields (by simp) (by simp) (by simp)
  relabel_ofRaw _ := EntityId.ext_fields (by simp) (by simp [Priority.flags]) (by simp)
  Named x y := y.raw = x.raw
  raw_of_named same := same
  Memory := Memory
  Change change change' := ∀ m m', Memory m m' → Memory (change m) (change' m')
  memory_of_change changes remembered := changes _ _ remembered
  Event _ _ := True

open Mirror (inert)

/-- Sets a priority. -/
def Operation.prioritises : Operation σ → Bool
  | .ask (.setPriority _ _) => true
  | .ask _ | .frame _ => false

/-- The answer to who set a priority. -/
def Sight.prioritised : Sight σ → Bool
  | .dealing ⟨.setPriority _ _, _⟩ => true
  | .dealing _ | .frame _ => false

/-- Erasing priorities erases the last one that was given. -/
theorem EntityId.withPriority_changeAt (raw : Nat) (p : Priority) (x : EntityId) :
    (changeAt raw (fun x => x.withPriority p) x).withPriority .normal = x.withPriority .normal := by
  unfold changeAt
  split
  · exact EntityId.ext_fields (by simp) (by simp) (by simp)
  · rfl

namespace World

variable {w v : World σ}

theorem Mirrored.prioritise (both : Mirrored (inert Memory) w v) (sound : w.shared.Sound) (id : EntityId)
    (p : Priority) : Mirrored (inert Memory) (w.setPriority id p).2 v := by
  rw [setPriority_eq sound]
  cases w.shared.entity? id.raw with
  | none => exact both
  | some x =>
    have shared := both.shared.relabelled (g := fun x => x) (EntityId.withPriority_changeAt id.raw p)
    rw [Shared.relabel_of_fixed fun _ _ => rfl] at shared
    exact { both with shared }

/-- A new world has no entities, and its fences have no updates yet. -/
theorem mirrored_of_new {config : WorldConfig} {types : List ComponentType} {systems : List (System σ)}
    {memory : σ} (built : (World.new config types systems memory).value = .ok w)
    (remembered : Memory w.shared.memory w.shared.memory)
    (alike : ∀ system ∈ w.systems, system.Alike (inert Memory) system) :
    Mirrored (inert Memory) w w := by
  have empty := (started_of_new built).empty
  have none : ∀ x ∈ w.shared.ids, x.withPriority .normal = x := fun x member => by
    have present := empty.sound.entity?_of_mem member
    rw [empty.absent] at present
    cases present
  have same : w.shared.relabel (inert Memory).relabel = w.shared := Shared.relabel_of_fixed none
  have idle : Forall₂ (Fence.Alike (inert Memory)) w.scheduler.fences w.scheduler.fences := by
    refine List.forall₂_same.mpr fun f member => ?_
    obtain ⟨oneShots, constants⟩ := idle_of_new built f member
    exact ⟨rfl, by rw [oneShots]; exact .nil, by rw [constants]; exact .nil⟩
  exact
    { config := rfl
      shared :=
        { registry := rfl
          locks := rfl
          store := (congrArg Shared.store same).symm
          allocator := rfl
          deferred := (congrArg Shared.deferred same).symm
          destroys := fun _ => .rfl
          memory := remembered }
      scheduler := .intro idle
      systems := List.forall₂_same.mpr alike
      registering := rfl
      unregistering := .refl _
      nextUnregistering := .refl _ }

end World

namespace Moment

variable {m n m' : Moment σ}

theorem operates?_cons_iff {operation : Operation σ} {rest : List (Operation σ)} {seen : List (Sight σ)} :
    m.operates? (operation :: rest) = some (seen, m') ↔ ∃ sight next later,
      m.operate? operation = some (sight, next) ∧ next.operates? rest = some (later, m') ∧
        seen = sight :: later := by
  constructor
  · intro done
    obtain ⟨⟨sight, next⟩, first, mapped⟩ := Option.bind_eq_some_iff.mp done
    obtain ⟨⟨later, last⟩, tail, same⟩ := Option.map_eq_some_iff.mp mapped
    cases same
    exact ⟨sight, next, later, first, tail, rfl⟩
  · rintro ⟨sight, next, later, first, tail, rfl⟩
    simp only [Moment.operates?, first, Option.bind_some, tail, Option.map_some]

theorem prioritised_of_operate? {operation : Operation σ} {sight : Sight σ}
    (done : m.operate? operation = some (sight, m')) : sight.prioritised = operation.prioritises := by
  cases operation with
  | ask ask =>
    obtain ⟨⟨answer, next⟩, -, same⟩ := Option.map_eq_some_iff.mp done
    cases same
    cases ask <;> rfl
  | frame timing =>
    obtain ⟨answer, rfl⟩ := exists_answer_of_frame done
    rfl

/-- Whoever sets a priority in the first run changes nothing in the second. -/
theorem Mirrored.prioritise {operation : Operation σ} {sight : Sight σ}
    (mirrored : m.Mirrored (inert Memory) n) (sound : m.world.shared.Sound)
    (done : m.operate? operation = some (sight, m')) (prioritises : operation.prioritises = true) :
    m'.Mirrored (inert Memory) n := by
  cases operation with
  | frame timing => cases prioritises
  | ask ask =>
    cases ask with
    | setPriority id p =>
      cases mirrored with
      | resting both =>
        cases done
        exact .resting (both.prioritise sound id p)
      | declaring | passing | leaving => cases done
    | _ => cases prioritises

/-- What is done beside setting priorities comes to the same in both runs. -/
theorem Mirrored.operates? {operations operations' : List (Operation σ)} {seen : List (Sight σ)}
    (mirrored : m.Mirrored (inert Memory) n) (settled : Settled m) (settled' : Settled n)
    (done : m.operates? operations = some (seen, m'))
    (alike : Forall₂ (Operation.Alike (inert Memory))
      (operations.filter fun operation => !operation.prioritises) operations') :
    ∃ seen' n', n.operates? operations' = some (seen', n') ∧
      Forall₂ (Sight.Alike (inert Memory)) (seen.filter fun sight => !sight.prioritised) seen' ∧
        m'.Mirrored (inert Memory) n' := by
  induction operations generalizing m n operations' seen with
  | nil =>
    cases alike
    cases done
    exact ⟨[], n, rfl, .nil, mirrored⟩
  | cons operation rest ih =>
    obtain ⟨sight, next, later, first, tail, rfl⟩ := operates?_cons_iff.mp done
    have settled₁ := settled_of_operate? settled first
    have kind := prioritised_of_operate? first
    cases prioritises : operation.prioritises with
    | true =>
      simp only [List.filter_cons, prioritises, kind, Bool.not_true, Bool.false_eq_true, if_false]
        at alike ⊢
      exact ih (mirrored.prioritise settled.sound first prioritises) settled₁ settled' tail alike
    | false =>
      simp only [List.filter_cons, prioritises, kind, Bool.not_false, if_true] at alike ⊢
      cases alike with
      | @cons _ operation' _ rest' both alike =>
        have beside := mirrored.operate? settled.sound settled'.sound both
        rw [first] at beside
        generalize first' : n.operate? operation' = b? at beside
        cases beside with
        | @some _ b beside =>
          obtain ⟨seen', n', tail', sights, after⟩ :=
            ih beside.2 settled₁ (settled_of_operate? settled' first') tail alike
          exact ⟨b.1 :: seen', n', operates?_cons_iff.mpr ⟨b.1, b.2, seen', first', tail', rfl⟩,
            .cons beside.1 sights, after⟩

end Moment

namespace World

variable {w : World σ}

/-- Priorities stick, and do nothing else. -/
structure Prioritised (w : World σ) : Prop where
  sticky : ∀ asks turns m, Moment.play? asks (.resting w) = some (turns, m) → Sticky turns m
  -- Callbacks that do not depend on priorities, whatever else they remember, are kept apart by nothing.
  inert : ∀ Memory : σ → σ → Prop, Memory w.shared.memory w.shared.memory →
    (∀ system ∈ w.systems, system.Alike (.inert Memory) system) → ∀ operations operations' seen m,
      Moment.operates? operations (.resting w) = some (seen, m) →
      Forall₂ (Operation.Alike (.inert Memory))
        (operations.filter fun operation => !operation.prioritises) operations' →
      ∃ seen' n, Moment.operates? operations' (.resting w) = some (seen', n) ∧
        Forall₂ (Sight.Alike (.inert Memory)) (seen.filter fun sight => !sight.prioritised) seen' ∧
          m.Mirrored (.inert Memory) n

theorem prioritised_of_new {config : WorldConfig} {types : List ComponentType}
    {systems : List (System σ)} {memory : σ}
    (built : (World.new config types systems memory).value = .ok w) : Prioritised w := by
  have started := started_of_new built
  constructor
  · intro asks turns m played
    exact sticky_of_play? started played
  · intro Memory remembered alike operations operations' seen m done same
    have mirrored : Moment.Mirrored (inert Memory) (.resting w) (.resting w) :=
      .resting (mirrored_of_new built remembered alike)
    exact mirrored.operates? started.settled started.settled done same

/-- What its update creates and destroys depends on nobody's priority. -/
theorem alike_failsFirst : failsFirst.Alike (inert Eq) failsFirst := by
  have relieves : replaceSecond.Alike (inert Eq) replaceSecond :=
    .intro fun context => .call (.same rfl) fun created created' same =>
      .call (.destroy rfl) fun _ _ same => .done (eq_of_heq same)
  refine .intro (.done rfl) (.call (.exchange fun m m' same => congrArg (· + 1) same) ?_)
  intro (attempts : Nat) (attempts' : Nat) (same : attempts = attempts')
  subst same
  rcases attempts with _ | _ | _
  · exact .done (.error .same)
  · refine .call (.schedule relieves) fun answer answer' same => .done ?_
    obtain rfl := eq_of_heq same
    rcases answer' with cause | ok
    · exact .error .same
    · exact .ok rfl
  · exact .done (.ok rfl)

/-- Two entities are given priorities, the first before it has a row and the second after. An update
destroys the second, whose raw id is recycled in the end. -/
def priorityOperations : List (Operation Nat) :=
  [.ask (.createWith [⟨1⟩]), .ask (.createWith [⟨2⟩, ⟨1⟩]), .ask (.setPriority (.ofRaw 1) .high),
    .frame .zero, .ask (.setPriority (.ofRaw 2) .low), .frame .zero, .frame .zero, .frame .zero,
    .ask (.createWith [⟨1⟩])]

theorem prioritised_of_priorityOperations : ∃ w turns m seen n,
    (World.new .singleThreaded ageNameTypes [failsFirst] 0).value = .ok w ∧
      Moment.play? twoFrameAsks (.resting w) = some (turns, m) ∧
      (m.world.entity? 1).map EntityId.priority = some .high ∧
      Moment.operates? priorityOperations (.resting w) = some (seen, n) ∧
      (n.world.entity? 1).map EntityId.priority = some .high ∧
      (n.world.entity? 2).map EntityId.priority = some .normal ∧
      Sticky turns m ∧ ∃ seen' n',
        Moment.operates? (priorityOperations.filter fun operation => !operation.prioritises)
          (.resting w) = some (seen', n') ∧
        Forall₂ (Sight.Alike (inert Eq)) (seen.filter fun sight => !sight.prioritised) seen' ∧
        (n'.world.entity? 1).map EntityId.priority = some .normal ∧ n.Mirrored (inert Eq) n' := by
  have ran : ((session? .singleThreaded ageNameTypes [failsFirst] 0 []).any fun w =>
      (Moment.play? twoFrameAsks (.resting w)).any fun played =>
        (Moment.operates? priorityOperations (.resting w)).any fun done =>
          (played.2.world.entity? 1).map EntityId.priority = some .high ∧
            (done.2.world.entity? 1).map EntityId.priority = some .high ∧
            (done.2.world.entity? 2).map EntityId.priority = some .normal) = true := by
    decide +kernel
  obtain ⟨w, made, ran⟩ := (Option.any_eq_true _ _).mp ran
  obtain ⟨⟨turns, m⟩, played, ran⟩ := (Option.any_eq_true _ _).mp ran
  obtain ⟨⟨seen, n⟩, done, facts⟩ := (Option.any_eq_true _ _).mp ran
  obtain ⟨first, high, normal⟩ := of_decide_eq_true facts
  have built := new_of_session? made
  have prioritised := prioritised_of_new built
  have alike : Forall₂ (Operation.Alike (inert Eq))
      (priorityOperations.filter fun operation => !operation.prioritises)
      (priorityOperations.filter fun operation => !operation.prioritises) :=
    .cons (.ask (.createWith _)) (.cons (.ask (.createWith _)) (.cons (.frame _ _)
      (.cons (.frame _ _) (.cons (.frame _ _) (.cons (.frame _ _) (.cons (.ask (.createWith _)) .nil))))))
  obtain ⟨-, systems, -⟩ := told_of_new built
  obtain ⟨seen', n', done', sights, after⟩ := prioritised.inert Eq rfl
    (by simpa [systems] using alike_failsFirst) priorityOperations _ seen n done alike
  have erased : (n'.world.entity? 1).map EntityId.priority = some .normal := by
    rw [entity?, after.world.shared.entity?]
    rw [entity?] at high
    cases found : n.world.shared.entity? 1 with
    | none => simp [found] at high
    | some x => exact congrArg some (EntityId.priority_withPriority x .normal)
  exact ⟨w, turns, m, seen, n, built, played, first, done, high, normal,
    prioritised.sticky twoFrameAsks turns m played, seen', n', done', sights, erased, after⟩

end World

end EntityWorld
