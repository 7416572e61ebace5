import EntityWorld.Proofs.World.Priorities
import EntityWorld.Proofs.World.Queries
import EntityWorld.Proofs.World.Requests
import EntityWorld.Proofs.World.Stutter

/-!
# What cannot fail

Most of the failures that the parts of a world can report never happen in one: a frame commits, opens the
declarations, begins its pass and passes its boundaries wherever it is run, and creation always finds the
collection it was promised. What is left are the errors that systems answer themselves and faults inside
the batch of a fence. Main statement: `unfailing_of_reaches`.
-/
namespace EntityWorld

open Shared

variable {σ : Type}

/-! ### Creation -/

/-- What creation answers if it fails: there was nothing wrong but with what was asked for, or there are
no raw ids left. -/
def Access.Creates : Heard (Access.interface σ) → Prop
  | ⟨.create d, answer⟩ => ∀ cause, answer = .error cause →
    cause = .unknownDefinition d ∨ (∃ state, cause = .definitionNotLoaded d state) ∨
      ∃ full, cause = .capacity full
  | ⟨.createWith _, answer⟩ => ∀ cause, answer = .error cause →
    (∃ unknown, cause = .registry unknown) ∨ cause = .collection .emptySequence ∨
      ∃ full, cause = .capacity full
  | _ => True

namespace Shared

variable {s : Shared σ} {a : ArchetypeId}

/-- An entity fits into every archetype that there is. -/
theorem capacity_of_place {cause : WorldError} (there : a.index < s.store.sequences.length)
    (failed : (s.place a).1 = .error cause) : ∃ full, cause = .capacity full := by
  obtain ⟨c, here, -⟩ := Store.exists_collection (List.getElem?_eq_getElem there)
  unfold place at failed
  split at failed
  next full allocator refused =>
    cases failed
    exact ⟨full, rfl⟩
  next id allocator fresh =>
    simp only [Store.create, here] at failed
    cases failed

namespace Fresh

theorem created (fresh : Fresh s) (d : DefinitionId) : Access.Creates (σ := σ) ⟨.create d, (s.create d).1⟩ := by
  intro cause failed
  unfold create at failed
  split at failed
  next unknown =>
    cases failed
    exact .inl rfl
  next slot found =>
    split at failed
    next loaded =>
      exact .inr (.inr (capacity_of_place (fresh.catalogued.housed d slot found) failed))
    next unloaded =>
      cases failed
      exact .inr (.inl ⟨slot.state, rfl⟩)

theorem createdWith (fresh : Fresh s) (types : List TypeId) :
    Access.Creates (σ := σ) ⟨.createWith types, (s.createWith types).1⟩ := by
  intro cause failed
  unfold createWith at failed
  split at failed
  next unknown _ =>
    cases failed
    exact .inl ⟨unknown, rfl⟩
  next sequence found =>
    split at failed
    next empty =>
      cases failed
      exact .inr (.inl rfl)
    next nonempty =>
      refine .inr (.inr ?_)
      split at failed
      next a known =>
        have listed := (fresh.catalogued.keyed.known sequence a).mp known
        exact capacity_of_place (List.getElem?_eq_some_iff.mp listed).1 failed
      next unknown =>
        unfold defer at failed
        split at failed
        next full allocator refused =>
          cases failed
          exact ⟨full, rfl⟩
        next id allocator fresh' => cases failed

/-- At any point of a fence too. -/
theorem creates (fresh : Fresh s) :
    Says (Access.perform (σ := σ)) (SameCatalog s) Access.Creates where
  kept := fresh.asked.kept
  holds := by
    intro command t same
    cases command with
    | create d => exact (fresh.of_same same).created d
    | createWith types => exact (fresh.of_same same).createdWith types
    | _ => trivial

end Fresh

end Shared

/-! ### Faults -/

/-- The batch of a fence ends in a fault. -/
inductive Scheduler.Breaks (s : Scheduler σ) (fence : FenceId) (shared : Shared σ) (fault : Fault) :
    Prop where
  | intro {slot : Fence σ} {serial concurrent : List (Update σ)} {after : Shared σ}
      (found : s.fence? fence = some slot)
      (due : slot.due.partition (fun u => u.mode.isSerial) = (serial, concurrent))
      (ran : ((s.batch fence concurrent).run (s.runSerial fence serial shared).value).value =
        (.error fault, after)) : Breaks s fence shared fault

theorem Scheduler.breaks_of_runFence {s s' : Scheduler σ} {fence : FenceId} {elapsed : Duration}
    {shared shared' : Shared σ} {fault : Fault}
    (ran : (s.runFence fence elapsed shared).value = (.error (.fault fault), s', shared')) :
    s.Breaks fence shared fault := by
  unfold runFence at ran
  split at ran
  · cases ran
  · cases ran
  next slot phase found =>
    simp only [Logged.value_within, Logged.value_bind] at ran
    rcases outcome : ((s.batch fence (slot.due.partition fun u => u.mode.isSerial).2).run
        (s.runSerial fence (slot.due.partition fun u => u.mode.isSerial).1 shared).value).value with
      ⟨cause | retries, after⟩
    · rw [outcome] at ran
      cases ran
      exact .intro found rfl outcome
    · rw [outcome] at ran
      simp only [Logged.value_ite, Logged.value_bind, Logged.value_pure, ite_self] at ran
      cases ran

namespace World

variable {w w₀ w' : World σ} {m : Moment σ} {past : List (Passage σ)}

/-- A fault ends a frame where it stands, which is before a fence. -/
theorem breaks_of_executeFences {timing : Timing} {left : List FenceId} {reports : List FenceReport}
    {life : LifecycleReport} {fault : Fault} (started : Started w₀)
    (reached : Reaches w₀ past (.passing w left))
    (ran : (executeFences timing left reports life w).value = (.error (.fault fault), w')) :
    ∃ more v fence rest, Reaches w₀ (past ++ more) (.passing v (fence :: rest)) ∧
      v.scheduler.Breaks fence v.shared fault := by
  induction left generalizing w past reports life with
  | nil => cases ran
  | cons fence rest ih =>
    cases executed_of_executeFences (settled_of_reaches started reached) ran with
    | broken outcome =>
      refine ⟨[], w, fence, rest, ?_, Scheduler.breaks_of_runFence outcome⟩
      rwa [List.append_nil]
    | passed executed applied tail =>
      obtain ⟨more, v, other, left, reached', breaks⟩ :=
        ih ((reached.step (.executed executed)).step (.bounded applied)) tail
      rw [List.append_assoc, List.append_assoc] at reached'
      exact ⟨_, v, other, left, reached', breaks⟩

theorem breaks_of_runFrame {timing : Timing} {fault : Fault} (started : Started w₀)
    (reached : Reaches w₀ past (.resting w))
    (ran : (w.runFrame timing).value = (.error (.fault fault), w')) :
    ∃ more v fence rest, Reaches w₀ (past ++ more) (.passing v (fence :: rest)) ∧
      v.scheduler.Breaks fence v.shared fault := by
  obtain ⟨report, d, rebuilt, attempted, same⟩ := exists_attempt (settled_of_reaches started reached)
  obtain ⟨what, step⟩ := (served_of_serve? attempted).step
  have reached₁ := reached.step step
  rw [same] at ran
  cases played_of_playFrame started.settled reached₁ ran with
  | broken declared begins passed =>
    obtain ⟨more, v, fence, rest, reached₂, breaks⟩ :=
      breaks_of_executeFences started (reached₁.step (.declared declared begins)) passed
    rw [List.append_assoc, List.append_assoc] at reached₂
    exact ⟨_, v, fence, rest, reached₂, breaks⟩

/-! ### Frames -/

/-- Where the scheduler stands after a frame. -/
def phaseAfter : Except (Failure WorldError) FrameReport → Phase
  | .ok _ => .steady
  | .error _ => .acceptingUpdates

theorem phase_of_runFrame {timing : Timing} {result : Except (Failure WorldError) FrameReport}
    (started : Started w₀) (reached : Reaches w₀ past (.resting w))
    (ran : (w.runFrame timing).value = (result, w')) :
    (∃ fault, result = .error (.fault fault)) ∨ w'.phase = phaseAfter result := by
  rcases reaches_of_runFrame started.settled reached ran with fault | ⟨more, reached', last⟩
  · exact .inl fault
  · refine .inr ?_
    -- The last step finished the frame, or abandoned it.
    obtain ⟨p, final, what⟩ := Option.map_eq_some_iff.mp last
    obtain ⟨early, rfl⟩ := List.getLast?_eq_some_iff.mp final
    rw [← List.append_assoc] at reached'
    obtain ⟨before, step, after⟩ := reached'.last
    have settled := settled_of_reaches started before
    have effect := step.effect settled.sound
    obtain ⟨m, happened, m'⟩ := p
    simp only at what after effect settled
    subst after what
    cases result with
    | ok report =>
      generalize same : ending (.ok report : Except (Failure WorldError) FrameReport) = what at effect
      cases effect with
      | finished v =>
        have running : v.scheduler.phase = .running := settled.placed.1
        simp only [phase, Scheduler.endPass, if_pos running, phaseAfter]
      | _ => cases same
    | error failure =>
      generalize same : ending (.error failure : Except (Failure WorldError) FrameReport) = what
        at effect
      cases effect with
      | abandoned plan => exact plan.phase.trans settled.placed
      | _ => cases same

/-! ### Operations -/

theorem unknown_of_setPriority {id : EntityId} {p : Priority} {cause : WorldError}
    (sound : w.shared.Sound) (failed : (w.setPriority id p).1 = .error cause) :
    cause = .unknownEntity id := by
  rw [setPriority_eq sound] at failed
  cases found : w.shared.entity? id.raw with
  | none =>
    rw [found] at failed
    cases failed
    rfl
  | some x =>
    rw [found] at failed
    cases failed

theorem unknown_of_destroy {id : EntityId} {failure : Failure WorldError} (sound : w.shared.Sound)
    (failed : (w.destroy id).value.1 = .error failure) : failure = .error (.unknownEntity id) := by
  obtain ⟨outcome, t, new, applied, -⟩ := applyDestroy_spec sound id
  simp only [destroy, Logged.value_bind, applied] at failed
  cases outcome <;> cases failed
  rfl

/-! ### Runs -/

/-- What is not to fail where a world stands, and what happens if it does. -/
structure Unfailing (w₀ : World σ) (past : List (Passage σ)) (m : Moment σ) : Prop where
  -- Creation, by a call, in a program that is run between calls, and at any point of a fence.
  created : ∀ d, Access.Creates (σ := σ) ⟨.create d, (m.world.create d).1⟩
  createdWith : ∀ types, Access.Creates (σ := σ) ⟨.createWith types, (m.world.createWith types).1⟩
  heard : ∀ {α : Type} (program : Program (Access.interface σ) α),
    ∀ h ∈ program.heard Access.perform m.world.shared, Access.Creates h
  midway : ∀ fence moves heard s, m.world.scheduler.Midway fence moves m.world.shared heard s →
    ∀ h ∈ heard, Access.Creates h
  prioritised : ∀ id p cause, (m.world.setPriority id p).1 = .error cause → cause = .unknownEntity id
  -- Life-state changes are never misuse.
  destroyed : ∀ id failure, (m.world.destroy id).value.1 = .error failure →
    failure = .error (.unknownEntity id)
  bounded : ∀ fence life, ∃ life' v, (m.world.applyBoundary fence life).value = (.ok life', v)
  -- The commit of a frame, operation by operation.
  committed : ∃ v report store u,
    (materialize m.world.shared.deferred { m.world with shared.deferred := [] }).value = (.ok (), v) ∧
      v.shared.store.commit.value = (.ok report, store) ∧
      (recycle report.removed.toList { v with shared.store := store }).value = (.ok (), u)
  -- The scheduler is in the right phase, and has the fence.
  opened : ∀ w, m = .resting w → ∃ report v scheduler, w.commit.value = (.ok report, v) ∧
    v.refresh.value.2.scheduler.openDeclarations = (.ok (), scheduler)
  begun : ∀ w v, m = .declaring w → (declare w.systems w).value = (.ok (), v) →
    ∃ frame scheduler, v.scheduler.beginPass = (.ok frame, scheduler)
  executed : ∀ w fence left, m = .passing w (fence :: left) → w.phase = .running ∧
    (w.scheduler.fence? fence).isSome ∧ ∀ elapsed failure scheduler shared,
      (w.scheduler.runFence fence elapsed w.shared).value = (.error failure, scheduler, shared) →
        ∃ fault, failure = .fault fault
  -- A frame answers an error only if a system answered it while declaring.
  abandoned : ∀ w timing cause v, m = .resting w →
    (w.runFrame timing).value = (.error (.error cause), v) →
      v.phase = .acceptingUpdates ∧ ∃ failed, Fails w cause failed v
  finished : ∀ w timing report v, m = .resting w → (w.runFrame timing).value = (.ok report, v) →
    v.phase = .steady
  -- A fault is one of the updates of a fence.
  broken : ∀ w timing fault v, m = .resting w →
    (w.runFrame timing).value = (.error (.fault fault), v) → ∃ more u fence rest,
      Reaches w₀ (past ++ more) (.passing u (fence :: rest)) ∧
        u.scheduler.Breaks fence u.shared fault

/-- The failures that parts of a world can report have no way to happen, wherever steps lead, except for
what callers get wrong, what systems answer and what goes wrong in the batch of a fence. -/
theorem unfailing_of_reaches {config : WorldConfig} {types : List ComponentType}
    {systems : List (System σ)} {memory : σ}
    (built : (World.new config types systems memory).value = .ok w₀) (reached : Reaches w₀ past m) :
    Unfailing w₀ past m := by
  have started := started_of_new built
  have settled := settled_of_reaches started reached
  have fresh : Fresh m.world.shared := (told_of_reaches built reached).fresh
  exact {
    created := fresh.created
    createdWith := fresh.createdWith
    heard := fun program => (fresh.creates.run program (.refl _)).1
    midway := fun fence moves heard s midway =>
      (fresh.creates.midway (fun t locks same => same.trans ⟨rfl, .refl _⟩) midway (.refl _)).1
    prioritised := fun id p cause => unknown_of_setPriority settled.sound
    destroyed := fun id failure => unknown_of_destroy settled.sound
    bounded := by
      intro fence life
      obtain ⟨life', v, -, applied, -⟩ := applyBoundary_spec settled.sound fence life
      exact ⟨life', v, applied⟩
    committed := by
      obtain ⟨report, t, done, -⟩ := commit_spec settled.sound
      obtain ⟨v, store, allocator, materialized, stored, recycled, -⟩ := stages_of_commit done
      exact ⟨v, report, store, _, materialized, stored, recycled⟩
    opened := by
      rintro w rfl
      obtain ⟨report, v, scheduler, committed, opened, -⟩ := runFrame_eq settled
      exact ⟨report, v, scheduler, committed, opened⟩
    begun := by
      rintro w v rfl declared
      exact exists_beginPass settled declared
    executed := by
      rintro w fence left rfl
      obtain ⟨running, suffix⟩ := settled.placed
      have member : fence ∈ w.scheduler.order := suffix.subset List.mem_cons_self
      obtain ⟨slot, found⟩ := Scheduler.exists_fence? member
      exact ⟨running, Option.isSome_iff_exists.mpr ⟨slot, found⟩,
        fun elapsed failure scheduler shared => Scheduler.runFence_fault running member⟩
    abandoned := by
      rintro w timing cause v rfl ran
      obtain ⟨fault, same⟩ | phase := phase_of_runFrame started reached ran
      · cases same
      · exact ⟨phase, fails_of_runFrame started reached ran⟩
    finished := by
      rintro w timing report v rfl ran
      obtain ⟨fault, same⟩ | phase := phase_of_runFrame started reached ran
      · cases same
      · exact phase
    broken := by
      rintro w timing fault v rfl ran
      exact breaks_of_runFrame started reached ran }

/-- The first frame is abandoned, and it is the system that failed. The second is not. -/
theorem unfailing_of_failsFirst : ∃ w₀ past w,
    (World.new .singleThreaded ageNameTypes [failsFirst] 0).value = .ok w₀ ∧
      Reaches w₀ past (.resting w) ∧
      (w.runFrame .zero).value.1 = .error (.error (.unknownDefinition ⟨0⟩)) ∧
      ((w.runFrame .zero).value.2.runFrame .zero).value.1.isOk = true ∧
      Unfailing w₀ past (.resting w) := by
  have ran : (session? .singleThreaded ageNameTypes [failsFirst] 0 [.createWith [⟨1⟩]]).any (fun w =>
      (w.runFrame .zero).value.1 = .error (.error (.unknownDefinition ⟨0⟩)) ∧
        ((w.runFrame .zero).value.2.runFrame .zero).value.1.isOk = true) = true := by
    decide +kernel
  obtain ⟨w, made, facts⟩ := Option.any_eq_true _ _ |>.mp ran
  obtain ⟨failed, completed⟩ := of_decide_eq_true facts
  obtain ⟨w₀, past, built, reached⟩ := reaches_of_session? made
  exact ⟨w₀, past, w, built, reached, failed, completed, unfailing_of_reaches built reached⟩

end World

end EntityWorld
