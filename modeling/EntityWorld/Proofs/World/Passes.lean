import EntityWorld.Proofs.Fence.Phases
import EntityWorld.Proofs.World.Declarations
import EntityWorld.Proofs.World.Prepared

/-!
# Passes of a frame

The number of a world's frame is the number of passes that were begun. A frame begins its pass when
nothing is left that could answer an error, so one that completes counts and one that fails does not,
whatever world it is run in. Main statement: `World.numbered_of_runFrame`.
-/
namespace EntityWorld

variable {σ : Type}

namespace Scheduler

theorem frame_modifyFence (s : Scheduler σ) (fence : FenceId) (change : Fence σ → Fence σ) :
    (s.modifyFence fence change).frame = s.frame := by
  unfold modifyFence
  split <;> rfl

theorem frame_enter (s : Scheduler σ) (request : Declaration.Request σ) :
    (request.enter s).frame = s.frame := by
  cases request with
  | schedule update =>
    simp only [Declaration.Request.enter, schedule]
    split
    · rfl
    · exact frame_modifyFence ..
  | start update =>
    simp only [Declaration.Request.enter, startConstant]
    split
    · rfl
    · exact frame_modifyFence ..
  | stop name =>
    simp only [Declaration.Request.enter, stopConstant]
    split
    · rfl
    · split <;> rfl
  | _ => rfl

theorem frame_endPass (s : Scheduler σ) : s.endPass.frame = s.frame := by
  unfold endPass
  split <;> rfl

end Scheduler

namespace World

variable {w w' : World σ} {timing : Timing}

theorem frame_declare (systems : List (System σ)) (w : World σ) :
    (declare systems w).value.2.frame = w.frame :=
  declare_preserves (P := fun v => v.frame = w.frame)
    (fun command v _ same => by
      rw [frame, scheduler_performDeclaration, Scheduler.frame_enter]
      exact same)
    rfl

/-- Committing leaves the fences alone. -/
theorem scheduler_commit (w : World σ) : w.commit.value.2.scheduler = w.scheduler := by
  have kept : w.commit.value.2 = w.commit.value.2.staffed w.systems w.scheduler w.shared.memory :=
    congrArg Prod.snd (commit_staffed (w := w))
  exact (congrArg World.scheduler kept).trans rfl

theorem scheduler_refresh (w : World σ) : w.refresh.value.2.scheduler = w.scheduler := by
  obtain ⟨memory, refreshed, -⟩ := refresh_value w
  rw [refreshed]

theorem scheduler_applyBoundary (w : World σ) (fence : FenceId) (life : LifecycleReport) :
    (w.applyBoundary fence life).value.2.scheduler = w.scheduler := by
  have kept : (w.applyBoundary fence life).value.2 =
      (w.applyBoundary fence life).value.2.staffed w.systems w.scheduler w.shared.memory :=
    congrArg Prod.snd (applyBoundary_staffed (w := w) fence life)
  exact (congrArg World.scheduler kept).trans rfl

/-- While a pass runs, only a fault ends the execution of its fences early. -/
theorem frame_of_executeFences {left : List FenceId} {reports : List FenceReport}
    {life : LifecycleReport} {result : Except (Failure FenceError) (List FenceReport × LifecycleReport)}
    (running : w.scheduler.phase = .running) (inside : ∀ fence ∈ left, fence ∈ w.scheduler.order)
    (ran : (executeFences timing left reports life w).value = (result, w')) :
    (∃ fault, result = .error (.fault fault)) ∨
      (∃ answer, result = .ok answer) ∧ w'.frame = w.frame := by
  induction left generalizing w reports life with
  | nil =>
    cases ran
    exact .inr ⟨⟨_, rfl⟩, rfl⟩
  | cons fence rest ih =>
    simp only [executeFences, Logged.value_bind] at ran
    rcases outcome : (w.scheduler.runFence fence (timing.fence fence) w.shared).value with
      ⟨failure | report, scheduler, shared⟩
    · obtain ⟨fault, rfl⟩ :=
        Scheduler.runFence_fault running (inside fence List.mem_cons_self) outcome
      rw [outcome] at ran
      cases ran
      exact .inl ⟨fault, rfl⟩
    · obtain ⟨rfl, -⟩ := Scheduler.fenceRun_of_runFence outcome
      have kept := scheduler_applyBoundary
        { w with scheduler := w.scheduler.spend fence, shared } fence life
      rw [outcome] at ran
      simp only [Logged.value_bind] at ran
      rcases applied : (World.applyBoundary { w with scheduler := w.scheduler.spend fence, shared }
        fence life).value with ⟨fault | life', v⟩
      · rw [applied] at ran
        cases ran
        exact .inl ⟨fault, rfl⟩
      · -- The one-shots of the fence are gone; the pass and the fences that are left are not.
        rw [applied] at ran kept
        obtain ⟨order, phase⟩ := Scheduler.samePlan_spend w.scheduler fence
        have inside' : ∀ fence ∈ rest, fence ∈ v.scheduler.order := by
          intro other member
          rw [kept, order]
          exact inside other (List.mem_cons_of_mem _ member)
        have frame : v.frame = w.frame := by
          rw [World.frame, kept]
          exact Scheduler.frame_modifyFence ..
        rw [← frame]
        exact ih (by rw [kept, phase, running]) inside' ran

/-- A pass ends with a fault, or has not begun, or is the next one. -/
theorem execute_cases {result : Except (Failure FenceError) (PassReport × LifecycleReport)}
    (ran : (w.execute timing).value = (result, w')) :
    (∃ fault, result = .error (.fault fault)) ∨
      (∃ cause, result = .error (.error cause)) ∧ w'.frame = w.frame ∨
        ∃ pass life, result = .ok (pass, life) ∧ pass.frame = w.frame + 1 ∧
          w'.frame = w.frame + 1 := by
  unfold execute at ran
  rcases w.scheduler.beginPass_cases with ⟨cause, begins⟩ | ⟨begins, -⟩
  · rw [begins] at ran
    cases ran
    exact .inr (.inl ⟨⟨cause, rfl⟩, Scheduler.frame_endPass _⟩)
  · obtain ⟨begun, begins, number, running⟩ : ∃ begun, w.scheduler.beginPass =
        (.ok (w.frame + 1), begun) ∧ begun.frame = w.frame + 1 ∧ begun.phase = .running :=
      ⟨_, begins, rfl, rfl⟩
    simp only [begins, Logged.value_bind] at ran
    rcases passed : (executeFences timing begun.order [] .none { w with scheduler := begun }).value with
      ⟨failure, u⟩
    have inside : ∀ fence ∈ begun.order, fence ∈ begun.order := fun _ member => member
    rcases frame_of_executeFences (w := { w with scheduler := begun }) running inside passed with
      ⟨fault, rfl⟩ | ⟨⟨⟨fences, life⟩, rfl⟩, same⟩
    · rw [passed] at ran
      cases ran
      exact .inl ⟨fault, rfl⟩
    · rw [passed] at ran
      cases ran
      have counted : u.scheduler.endPass.frame = w.frame + 1 :=
        (Scheduler.frame_endPass _).trans (same.trans number)
      exact .inr (.inr ⟨_, _, rfl, rfl, counted⟩)

/-- What a frame that ended does to the number of frames. A fault leaves the frame unfinished. -/
def Numbered (before after : Nat) : Except (Failure WorldError) FrameReport → Prop
  | .ok report => after = before + 1 ∧ report.frame = before + 1
  | .error (.error _) => after = before
  | .error (.fault _) => True

theorem numbered_of_playFrame {commit : CommitReport} {rebuilt : Bool}
    {result : Except (Failure WorldError) FrameReport}
    (ran : (w.playFrame timing commit rebuilt).value = (result, w')) :
    Numbered w.frame w'.frame result := by
  have declared := frame_declare w.systems w
  simp only [playFrame, Logged.value_bind] at ran
  rcases outcome : (declare w.systems w).value with ⟨⟨culprit, cause⟩ | ok, v⟩
  · rw [outcome] at ran declared
    cases ran
    exact declared
  · rw [outcome] at ran declared
    have declared : v.frame = w.frame := declared
    simp only [Logged.value_bind] at ran
    rcases passed : (v.execute timing).value with ⟨answer, u⟩
    rw [passed] at ran
    rcases execute_cases passed with
      ⟨fault, rfl⟩ | ⟨⟨cause, rfl⟩, same⟩ | ⟨pass, life, rfl, number, counted⟩
    · cases ran
      trivial
    · cases ran
      exact same.trans declared
    · cases ran
      rw [← declared]
      exact ⟨counted, number⟩

/-- A frame that completes is the next one by number; a frame that fails takes no number. -/
theorem numbered_of_runFrame {result : Except (Failure WorldError) FrameReport}
    (ran : (w.runFrame timing).value = (result, w')) : Numbered w.frame w'.frame result := by
  have committed := scheduler_commit w
  simp only [runFrame, Logged.value_within, Logged.value_bind] at ran
  rcases outcome : w.commit.value with ⟨failure | commit, v⟩
  · rw [outcome] at ran committed
    cases ran
    cases failure with
    | error cause => exact congrArg Scheduler.frame committed
    | fault => trivial
  · rw [outcome] at ran committed
    have same : v.refresh.value.2.frame = w.frame :=
      congrArg Scheduler.frame ((scheduler_refresh v).trans committed)
    simp only [Logged.value_bind] at ran
    rcases opened : v.refresh.value.2.scheduler.openDeclarations with ⟨cause | ok, scheduler⟩
    · rw [opened] at ran
      have kept : scheduler = v.refresh.value.2.scheduler := by
        unfold Scheduler.openDeclarations at opened
        split at opened
        · cases opened
          rfl
        · cases opened
      cases ran
      rw [kept]
      exact same
    · obtain rfl := Scheduler.openDeclarations_eq opened
      rw [opened] at ran
      have played := numbered_of_playFrame ran
      rw [← same]
      exact played

end World

end EntityWorld
