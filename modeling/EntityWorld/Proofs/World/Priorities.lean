import EntityWorld.Proofs.Fence.Heard
import EntityWorld.Proofs.Relabel
import EntityWorld.Proofs.World.Asks
import EntityWorld.Proofs.World.Start

/-!
# Priorities

An entity has the priority that it was last given: whether it waits or has a row, and wherever commits
and boundaries take it, nothing but `setPriority` changes it. A raw id that is free has no priority to
hand on. Main statement: `sticky_of_play?`.
-/
namespace EntityWorld

open EntityId (changeAt)

variable {σ : Type} {raw : Nat}

namespace Shared

variable {s t : Shared σ} {x : EntityId}

/-- The priority of the entity with this raw id, or the one that a new entity has. -/
def priorityOf (s : Shared σ) (raw : Nat) : Priority :=
  ((s.entity? raw).map EntityId.priority).getD .normal

theorem priorityOf_of_some (found : s.entity? raw = some x) : s.priorityOf raw = x.priority := by
  rw [priorityOf, found]
  rfl

theorem priorityOf_of_none (absent : s.entity? raw = none) : s.priorityOf raw = .normal := by
  rw [priorityOf, absent]
  rfl

/-- New entities have the priority that their raw ids had before. -/
theorem Grows.priorityOf (grown : Grows s t) (sound : s.Sound) (raw : Nat) :
    t.priorityOf raw = s.priorityOf raw := by
  cases found : t.entity? raw with
  | none =>
    have absent : s.entity? raw = none := Option.eq_none_iff_forall_ne_some.mpr fun x there => by
      rw [grown.entity?_of_some sound there] at found
      cases found
    rw [priorityOf_of_none found, priorityOf_of_none absent]
  | some x =>
    obtain ⟨member, same⟩ := grown.sound.entity?_eq_some_iff.mp found
    rw [priorityOf_of_some found]
    rcases grown.old_or_new sound found with old | ⟨absent, -⟩
    · exact (priorityOf_of_some old).symm
    · rw [priorityOf_of_none absent]
      rcases grown.plain x member with old | plain
      · rw [sound.entity?_eq_some_iff.mpr ⟨old, same⟩] at absent
        cases absent
      · rw [EntityId.priority, plain]
        rfl

theorem Relived.priorityOf {change : Nat → LifeState → LifeState} (relived : Relived s t change)
    (raw : Nat) : t.priorityOf raw = s.priorityOf raw := by
  simp only [Shared.priorityOf, relived.entity?, Option.map_map, Function.comp_def,
    EntityId.priority_withLife]

theorem Committed.priorityOf {report : CommitReport} (committed : Committed s t report)
    (sound : s.Sound) (raw : Nat) : t.priorityOf raw =
      if raw ∈ report.removed.toList.map EntityId.raw then .normal else s.priorityOf raw := by
  have removed : raw ∈ report.removed.toList.map EntityId.raw ↔
      ∃ x, s.entity? raw = some x ∧ Collection.survives x = false := by
    simp only [List.mem_map, committed.removed.mem_iff, List.mem_filter, Bool.not_eq_true',
      sound.entity?_eq_some_iff, and_right_comm]
  cases found : s.entity? raw with
  | none =>
    have absent : t.entity? raw = none := by rw [committed.entity?, found, Option.filter_none]
    rw [priorityOf_of_none absent, priorityOf_of_none found, ite_self]
  | some x =>
    simp only [found, Option.some.injEq, exists_eq_left'] at removed
    by_cases alive : Collection.survives x = true
    · have kept : t.entity? raw = some x := by
        rw [committed.entity?, found, Option.filter_some, if_pos alive]
      rw [if_neg fun gone => by simp [removed.mp gone] at alive, priorityOf_of_some kept,
        priorityOf_of_some found]
    · have absent : t.entity? raw = none := by
        rw [committed.entity?, found, Option.filter_some, if_neg alive]
      rw [if_pos (removed.mpr (Bool.eq_false_iff.mpr alive)), priorityOf_of_none absent]

end Shared

/-- The priority that the entity with this raw id has after a dealing, if it had the given one. Whoever
has the raw id after its entity was removed starts again. -/
def Dealing.prioritise (raw : Nat) (given : Priority) : Dealing σ → Priority
  | ⟨.setPriority id p, .ok _⟩ => if id.raw = raw then p else given
  | ⟨.attempt, report⟩ => if raw ∈ report.removed.toList.map EntityId.raw then .normal else given
  | _ => given

/-- The priority that the entity with this raw id was last given. -/
def givenPriority (raw : Nat) (dealings : List (Dealing σ)) : Priority :=
  dealings.foldl (Dealing.prioritise raw) .normal

namespace World

open Shared

variable {w w₀ : World σ} {m n : Moment σ} {ask : Ask σ} {answer : ask.Answer}

/-- Whether the entity has a row or waits, it is given the priority where it is. -/
theorem setPriority_eq (sound : w.shared.Sound) (id : EntityId) (p : Priority) :
    w.setPriority id p =
      match w.shared.entity? id.raw with
      | none => (.error (.unknownEntity id), w)
      | some x => (.ok (x.withPriority p),
        { w with shared := w.shared.relabel (changeAt id.raw fun x => x.withPriority p) }) := by
  unfold setPriority Shared.entity?
  cases found : w.shared.store.entity? id.raw with
  | some current =>
    obtain ⟨held, same⟩ := sound.store.entity?_eq_some_iff.mp found
    obtain ⟨store, updated, shared⟩ :=
      update_eq_relabel (f := fun x => x.withPriority p) sound held
        (EntityId.raw_withPriority current p) (.inl (EntityId.life_withPriority current p).symm)
    rw [same] at shared
    simp only [updated, shared, Option.some_or]
  | none =>
    cases waiting : w.shared.deferred? id.raw with
    | none => rfl
    | some d =>
      simp only [modifyDeferred_eq_relabel (f := fun x => x.withPriority p) sound waiting,
        Option.none_or, Option.map_some]

theorem priorityOf_setPriority (sound : w.shared.Sound) (id : EntityId) (p : Priority) (raw : Nat) :
    (w.setPriority id p).2.shared.priorityOf raw = Dealing.prioritise (σ := σ) raw
      (w.shared.priorityOf raw) ⟨.setPriority id p, (w.setPriority id p).1⟩ := by
  rw [setPriority_eq sound]
  cases found : w.shared.entity? id.raw with
  | none => rfl
  | some x =>
    have after (raw : Nat) := entity?_relabel (f := changeAt id.raw fun x => x.withPriority p)
      (fun x => by unfold changeAt; split <;> simp) w.shared raw
    simp only [Dealing.prioritise, Shared.priorityOf, after]
    split
    next same =>
      subst same
      have named : x.raw = id.raw := (sound.entity?_eq_some_iff.mp found).2
      simp [found, EntityId.changeAt_of_eq named]
    next other =>
      cases there : w.shared.entity? raw with
      | none => rfl
      | some y =>
        have named : y.raw = raw := (sound.entity?_eq_some_iff.mp there).2
        have apart : y.raw ≠ id.raw := fun same => other (same.symm.trans named)
        rw [Option.map_some, EntityId.changeAt_of_ne apart]

/-- What a dealing does to the priority of an entity. -/
theorem Served.priorityOf (served : Served m ask answer n) (sound : m.world.shared.Sound) (raw : Nat) :
    n.world.shared.priorityOf raw =
      Dealing.prioritise raw (m.world.shared.priorityOf raw) ⟨ask, answer⟩ := by
  cases served with
  | created w d => exact (grows_create sound d).priorityOf sound raw
  | createdWith w types => exact (grows_createWith sound types).priorityOf sound raw
  | destroyed w id =>
    obtain ⟨t, new, same, unregistered⟩ := destroy_spec (w := w) sound id
    rw [same]
    exact unregistered.relived.priorityOf raw
  | prioritised w id p => exact priorityOf_setPriority sound id p raw
  | loaded w d state =>
    exact (Grows.of_store sound (Store.keeps_setLoadState sound.store d state)).priorityOf sound raw
  | accessed w program => exact (grows_run sound program).priorityOf sound raw
  | @attempted w w' report scheduler committed opened =>
    obtain ⟨t, rfl, -, result⟩ := committed_of_commit (w := w) sound committed
    obtain ⟨u, same, refreshed⟩ :=
      refresh_spec (w := ({ w with shared := t } : World σ).oweChanges report) result.sound
    rw [same]
    exact (refreshed.priorityOf raw).trans (result.priorityOf sound raw)
  | @abandoned w w' culprit cause failed =>
    obtain ⟨memory, scheduler, rfl, -⟩ := eq_of_declare failed
    exact (Relived.of_memory sound memory).priorityOf raw
  | @declared w w' frame scheduler declared begun =>
    obtain ⟨memory, scheduler', rfl, -⟩ := eq_of_declare declared
    exact (Relived.of_memory sound memory).priorityOf raw
  | executed ran =>
    exact ((Scheduler.exists_replayFence?_iff.mp ⟨_, _, ran⟩).grows sound).priorityOf sound raw
  | @bounded w w' fence left life life' applied =>
    obtain ⟨new, bounded⟩ := bounded_of_applyBoundary (w := w) sound applied
    exact bounded.relived.priorityOf raw
  | finished w => rfl

theorem priorityOf_of_play? {asks : List (Ask σ)} {turns : List (Turn σ)} (settled : Settled m)
    (played : m.play? asks = some (turns, n)) (raw : Nat) :
    n.world.shared.priorityOf raw =
      (turns.map Turn.dealing).foldl (Dealing.prioritise raw) (m.world.shared.priorityOf raw) := by
  induction asks generalizing m turns with
  | nil =>
    cases played
    rfl
  | cons ask rest ih =>
    obtain ⟨answer, next, later, first, tail, rfl⟩ := play?_cons_iff.mp played
    have served := served_of_serve? first
    obtain ⟨what, step⟩ := served.step
    rw [ih (settled.step step) tail, served.priorityOf settled.sound]
    rfl

theorem settled_of_play? {asks : List (Ask σ)} {turns : List (Turn σ)} (settled : Settled m)
    (played : m.play? asks = some (turns, n)) : Settled n := by
  induction asks generalizing m turns with
  | nil =>
    cases played
    exact settled
  | cons ask rest ih =>
    obtain ⟨answer, next, later, first, tail, rfl⟩ := play?_cons_iff.mp played
    obtain ⟨what, step⟩ := (served_of_serve? first).step
    exact ih (settled.step step) tail

/-- Every entity has the priority that it was last given. -/
structure Sticky (turns : List (Turn σ)) (m : Moment σ) : Prop where
  held : ∀ raw x, m.world.entity? raw = some x →
    x.priority = givenPriority raw (turns.map Turn.dealing)
  -- In the updates of a fence, however far it has come.
  midway : ∀ fence moves heard s, m.world.scheduler.Midway fence moves m.world.shared heard s →
    ∀ raw x, s.entity? raw = some x → x.priority = givenPriority raw (turns.map Turn.dealing)
  -- Nothing is left of it when its raw id is free again.
  free : ∀ raw, m.world.entity? raw = none → givenPriority raw (turns.map Turn.dealing) = .normal
  appeared : ∀ ask answer n, m.serve? ask = some (answer, n) → ∀ raw x,
    m.world.entity? raw = none → n.world.entity? raw = some x → x.priority = .normal

/-- At any point of a fence. -/
theorem grows_midway {fence : FenceId} {moves : List Batch.Move} {scheduler : Scheduler σ}
    {s t : Shared σ} {heard : List (Heard (Access.interface σ))} (sound : s.Sound)
    (ran : scheduler.Midway fence moves s heard t) : Grows s t := by
  have kept : Says (Access.perform (σ := σ)) (Grows s) fun _ => True :=
    ⟨fun command _ grown => grown.trans (grows_perform grown.sound command), fun _ _ _ => trivial⟩
  exact (kept.midway
    (fun _ _ grown => grown.trans (.of_keeps grown.sound (.refl grown.sound.store) rfl rfl rfl)) ran
    (.refl sound)).2

/-- Nobody who is not there can be given a priority. -/
theorem Served.prioritise_of_absent (served : Served m ask answer n) (sound : m.world.shared.Sound)
    (absent : m.world.shared.entity? raw = none) :
    Dealing.prioritise raw .normal ⟨ask, answer⟩ = .normal := by
  cases served with
  | prioritised w id p =>
    have sound' : w.shared.Sound := sound
    rw [setPriority_eq sound']
    cases found : w.shared.entity? id.raw with
    | none => rfl
    | some x =>
      refine if_neg fun same => ?_
      have present : some x = none := (same ▸ found).symm.trans absent
      cases present
  | attempted => exact ite_self _
  | _ => rfl

/-- The last priority that was given sticks. -/
theorem sticky_of_play? {asks : List (Ask σ)} {turns : List (Turn σ)} (started : Started w₀)
    (played : Moment.play? asks (.resting w₀) = some (turns, m)) : Sticky turns m := by
  have settled := settled_of_play? started.settled played
  have given (raw : Nat) : m.world.shared.priorityOf raw = givenPriority raw (turns.map Turn.dealing) := by
    have initial : w₀.shared.priorityOf raw = .normal := priorityOf_of_none (started.empty.absent raw)
    rw [priorityOf_of_play? started.settled played, Moment.world, initial, givenPriority]
  constructor
  · intro raw x found
    rw [← given, priorityOf_of_some found]
  · intro fence moves heard s midway raw x found
    rw [← given, ← (grows_midway settled.sound midway).priorityOf settled.sound, priorityOf_of_some found]
  · intro raw absent
    rw [← given, priorityOf_of_none absent]
  · intro ask answer n asked raw x absent found
    have served := served_of_serve? asked
    rw [← priorityOf_of_some found, served.priorityOf settled.sound, priorityOf_of_none absent]
    exact served.prioritise_of_absent settled.sound absent

end World

end EntityWorld
