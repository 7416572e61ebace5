import EntityWorld.Proofs.World.Figures
import EntityWorld.Proofs.World.Live
import EntityWorld.Proofs.World.Requests

/-!
# Frame reports

A frame that is completed reports what has happened in it, whatever moves the workers have made: each
figure is the number of those whom it counts, and the entities there are change by those that are removed
and those that updates create. Main statement: `reported_of_reaches`.
-/
namespace EntityWorld

open Access (hasCreated)

variable {σ : Type}

/-- What a frame reports, given its commit and what its boundaries have counted. -/
def Figure.reported (commit : CommitReport) (life : LifecycleReport) : Figure → Nat
  | .migrated => commit.migrated.size
  | .removed => commit.removed.size
  | .promoted => life.promoted
  | .unregistered => life.unregistered
  | .destroyed => life.destroyed

def FrameReport.figure (report : FrameReport) : Figure → Nat
  | .migrated => report.migrated
  | .removed => report.removed
  | .promoted => report.lifecycle.promoted
  | .unregistered => report.lifecycle.unregistered
  | .destroyed => report.lifecycle.destroyed

namespace World

variable {w w₀ w' : World σ} {m : Moment σ} {past steps : List (Passage σ)} {commit : CommitReport}
  {heard : List (Heard (Access.interface σ))} {life : LifecycleReport}

/-- A frame that is under way, with the steps that were made, what its updates have heard and what its
boundaries have counted. It is completed when the world rests again. -/
inductive Underway (w : World σ) (commit : CommitReport) :
    List (Passage σ) → List (Heard (Access.interface σ)) → LifecycleReport → Moment σ → Prop where
  | attempted {m : Moment σ} (step : Step (.resting w) (.attempted commit) m) :
      Underway w commit [⟨.resting w, .attempted commit, m⟩] [] .none m
  | declared {steps : List (Passage σ)} {heard : List (Heard (Access.interface σ))}
      {life : LifecycleReport} {m m' : Moment σ} (sofar : Underway w commit steps heard life m)
      (step : Step m .declared m') :
      Underway w commit (steps ++ [⟨m, .declared, m'⟩]) heard life m'
  | executed {steps : List (Passage σ)} {heard later : List (Heard (Access.interface σ))}
      {life : LifecycleReport} {v : World σ} {fence : FenceId} {left : List FenceId}
      {moves : List Batch.Move} {shared : Shared σ}
      (sofar : Underway w commit steps heard life (.passing v (fence :: left)))
      (ran : v.scheduler.replayFence? fence moves v.shared = some (later, shared)) :
      Underway w commit (steps ++ [⟨.passing v (fence :: left), .executed fence,
          .leaving { v with scheduler := v.scheduler.spend fence, shared } fence left⟩])
        (heard ++ later) life
        (.leaving { v with scheduler := v.scheduler.spend fence, shared } fence left)
  | bounded {steps : List (Passage σ)} {heard : List (Heard (Access.interface σ))}
      {life life' : LifecycleReport} {v v' : World σ} {fence : FenceId} {left : List FenceId}
      (sofar : Underway w commit steps heard life (.leaving v fence left))
      (applied : (v.applyBoundary fence life).value = (.ok life', v')) :
      Underway w commit (steps ++ [⟨.leaving v fence left, .bounded fence, .passing v' left⟩]) heard
        life' (.passing v' left)
  | finished {steps : List (Passage σ)} {heard : List (Heard (Access.interface σ))}
      {life : LifecycleReport} {v : World σ} (sofar : Underway w commit steps heard life (.passing v [])) :
      Underway w commit (steps ++ [⟨.passing v [], .finished,
          .resting { v with scheduler := v.scheduler.endPass }⟩]) heard life
        (.resting { v with scheduler := v.scheduler.endPass })

namespace Underway

theorem reaches (underway : Underway w commit steps heard life m)
    (reached : Reaches w₀ past (.resting w)) : Reaches w₀ (past ++ steps) m := by
  induction underway with
  | attempted step => exact reached.step step
  | declared sofar step ih =>
    rw [← List.append_assoc]
    exact ih.step step
  | executed sofar ran ih =>
    rw [← List.append_assoc]
    exact ih.step (.executed (Scheduler.exists_replayFence?_iff.mp ⟨_, _, ran⟩))
  | bounded sofar applied ih =>
    rw [← List.append_assoc]
    exact ih.step (.bounded applied)
  | finished sofar ih =>
    rw [← List.append_assoc]
    exact ih.step (.finished _)

end Underway

/-- What is reported has happened. -/
structure Accounted (w : World σ) (past steps : List (Passage σ)) (commit : CommitReport)
    (heard : List (Heard (Access.interface σ))) (life : LifecycleReport) (m : Moment σ) : Prop where
  figures : ∀ figure, Figure.reported commit life figure = (roll figure past steps).length
  live : m.world.liveEntities + commit.removed.size = w.liveEntities + heard.countP hasCreated

theorem Accounted.step {p : Passage σ} {later : List (Heard (Access.interface σ))}
    {life' : LifecycleReport} (accounted : Accounted w past steps commit heard life p.before)
    (figures : ∀ figure, Figure.reported commit life' figure =
      Figure.reported commit life figure + (counted p.before.world p.after.world figure).length)
    (live : p.after.world.liveEntities = p.before.world.liveEntities + later.countP hasCreated) :
    Accounted w past (steps ++ [p]) commit (heard ++ later) life' p.after where
  figures := by
    intro figure
    rw [length_roll_concat, figures, accounted.figures]
  live := by
    rw [live, List.countP_append, ← Nat.add_assoc, ← accounted.live]
    exact Nat.add_right_comm _ _ _

/-- A step at which there is nothing to count for a figure. -/
theorem length_counted_of_elsewhere {p : Passage σ} (figure : Figure) {early : List (Passage σ)}
    (course : Course early p.before) (step : Step p.before p.what p.after)
    (elsewhere : ∀ raw, ¬ figure.At p.what raw) :
    (counted p.before.world p.after.world figure).length = 0 := by
  have after := course.step step
  apply List.length_eq_zero_iff.mpr
  apply List.eq_nil_iff_forall_not_mem.mpr
  intro raw member
  apply elsewhere raw
  apply (after.lawful p (by simp)).at_of_counts
  exact (mem_counted course.settled.sound after.settled.sound).mp member

namespace Accounted

theorem attempted (course : Course past (.resting w)) (step : Step (.resting w) (.attempted commit) m) :
    Accounted w past [⟨.resting w, .attempted commit, m⟩] commit [] .none m := by
  have after := course.step step
  have sound := course.settled.sound
  have effect := step.effect sound
  have nobody (figure : Figure) := length_counted_of_elsewhere figure
    (p := ⟨.resting w, .attempted commit, m⟩) course step
  constructor
  · intro figure
    rw [← List.nil_append [_], length_roll_concat, roll, List.length_nil, Nat.zero_add]
    cases figure with
    | migrated => exact counted_migrated effect sound
    | removed => exact counted_removed (after.lawful _ (by simp)) course.timely rfl sound after.settled.sound
    | promoted => exact (nobody .promoted (by simp [Figure.At])).symm
    | unregistered => exact (nobody .unregistered (by simp [Figure.At])).symm
    | destroyed => exact (nobody .destroyed (by simp [Figure.At])).symm
  · cases effect with
    | @attempted _ t u _ scheduler committed refreshed opened =>
      change u.allocator.live + _ = _
      rw [refreshed.live committed.sound]
      exact Shared.live_of_committed sound committed

/-- Nobody is counted by the other steps of a frame. -/
theorem still {p : Passage σ} {later : List (Heard (Access.interface σ))} {early : List (Passage σ)}
    (accounted : Accounted w past steps commit heard life p.before) (course : Course early p.before)
    (step : Step p.before p.what p.after) (calm : p.what.isCounted = false)
    (live : p.after.world.liveEntities = p.before.world.liveEntities + later.countP hasCreated) :
    Accounted w past (steps ++ [p]) commit (heard ++ later) life p.after := by
  refine accounted.step (fun figure => ?_) live
  rw [length_counted_of_elsewhere figure course step, Nat.add_zero]
  intro raw at_
  cases calm.symm.trans at_.isCounted

theorem bounded {v v' : World σ} {fence : FenceId} {left : List FenceId} {life' : LifecycleReport}
    {early : List (Passage σ)} (accounted : Accounted w past steps commit heard life (.leaving v fence left))
    (course : Course early (.leaving v fence left))
    (applied : (v.applyBoundary fence life).value = (.ok life', v')) :
    Accounted w past (steps ++ [⟨.leaving v fence left, .bounded fence, .passing v' left⟩]) commit heard
      life' (.passing v' left) := by
  have sound : v.shared.Sound := course.settled.sound
  have nobody (figure : Figure) := length_counted_of_elsewhere figure
    (p := ⟨.leaving v fence left, .bounded fence, .passing v' left⟩) course (.bounded applied)
  obtain ⟨new, bounded⟩ := bounded_of_applyBoundary sound applied
  rw [← List.append_nil heard]
  apply accounted.step (p := ⟨.leaving v fence left, .bounded fence, .passing v' left⟩)
  case live => exact bounded.relived.live sound
  case figures =>
    intro figure
    rw [counted_boundary course.timely sound applied]
    cases figure with
    | migrated =>
      rw [nobody .migrated (by simp [Figure.At, Happening.isAttempt])]
      rfl
    | removed =>
      rw [nobody .removed (by simp [Figure.At, Happening.isAttempt])]
      rfl
    | promoted | unregistered | destroyed => rfl

end Accounted

theorem Underway.accounted (started : Started w₀) (reached : Reaches w₀ past (.resting w))
    (underway : Underway w commit steps heard life m) : Accounted w past steps commit heard life m := by
  induction underway with
  | attempted step => exact .attempted (course_of_reaches started reached) step
  | @declared steps heard life m m' sofar step ih =>
    have course := course_of_reaches started (sofar.reaches reached)
    have live : m'.world.liveEntities = m.world.liveEntities := by
      cases step.effect course.settled.sound with
      | declared => rfl
    rw [← List.append_nil heard]
    exact ih.still (p := ⟨m, .declared, m'⟩) course step rfl live
  | @executed steps heard later life v fence left moves shared sofar ran ih =>
    have course := course_of_reaches started (sofar.reaches reached)
    have replayed := Scheduler.replayFence?_eq_some_iff.mp ran
    exact ih.still (p := ⟨_, _, _⟩) course (.executed (Scheduler.exists_replayFence?_iff.mp ⟨_, _, ran⟩))
      rfl (Shared.live_midway course.settled.sound replayed.midway)
  | bounded sofar applied ih =>
    exact ih.bounded (course_of_reaches started (sofar.reaches reached)) applied
  | @finished steps heard life v sofar ih =>
    have course := course_of_reaches started (sofar.reaches reached)
    rw [← List.append_nil heard]
    exact ih.still (p := ⟨.passing v [], .finished, _⟩) course (.finished v) rfl rfl

/-! ### Frames that are run -/

theorem Underway.of_executeFences {timing : Timing} {left : List FenceId} {reports : List FenceReport}
    {v : World σ} {answer : List FenceReport × LifecycleReport} (settled : Settled (.resting w))
    (sofar : Underway w commit steps heard life (.passing v left))
    (ran : (executeFences timing left reports life v).value = (.ok answer, w')) :
    ∃ more later, Underway w commit (steps ++ more) (heard ++ later) answer.2 (.passing w' []) := by
  -- By induction on the fences that are left; each is one step for its updates and one for its boundary.
  induction left generalizing v steps heard life reports with
  | nil =>
    cases ran
    refine ⟨[], [], ?_⟩
    rwa [List.append_nil, List.append_nil]
  | cons fence rest ih =>
    cases executed_of_executeFences ((sofar.reaches .start).settled settled) ran with
    | passed executed applied tail =>
      obtain ⟨moves, hears, replayed⟩ := Scheduler.exists_replayFence?_iff.mpr executed
      obtain ⟨more, later, passed⟩ := ih ((sofar.executed replayed).bounded applied) tail
      rw [List.append_assoc, List.append_assoc, List.append_assoc] at passed
      exact ⟨_, _, passed⟩

/-- A frame that is run is one of the frames there are. -/
theorem underway_of_runFrame {timing : Timing} {report : FrameReport} (settled : Settled (.resting w))
    (ran : (w.runFrame timing).value = (.ok report, w')) :
    ∃ commit steps heard, Underway w commit steps heard report.lifecycle (.resting w') ∧
      ∀ figure, report.figure figure = Figure.reported commit report.lifecycle figure := by
  obtain ⟨commit, w₁, scheduler, committed, opened, same⟩ := runFrame_eq settled
  have attempted := Underway.attempted (.attempted committed opened)
  rw [same] at ran
  cases played_of_playFrame settled (attempted.reaches .start) ran with
  | completed declared begins passed =>
    obtain ⟨more, later, done⟩ :=
      (attempted.declared (.declared declared begins)).of_executeFences settled passed
    refine ⟨commit, _, _, done.finished, fun figure => ?_⟩
    cases figure <;> rfl

/-! ### Whole runs -/

/-- Whom a run has counted. -/
structure Counting (past : List (Passage σ)) : Prop where
  -- An entity has one place on the roll of a figure, in whichever frame that is.
  once : ∀ figure, (roll figure [] past).Nodup
  place : ∀ p ∈ past, ∀ figure, ∀ raw ∈ counted p.before.world p.after.world figure,
    figure.At p.what raw
  -- No commit, be its frame completed or not, takes away an entity that it has not found current.
  swept : ∀ p ∈ past, ∀ commit, p.what = .attempted commit →
    ∀ x ∈ commit.removed.toList, p.before.world.isCurrent x.raw = true

theorem counting_of_reaches (started : Started w₀) (reached : Reaches w₀ past m) : Counting past := by
  have courses {p : Passage σ} (member : p ∈ past) :
      ∃ early, Course early p.before ∧ Course (early ++ [p]) p.after := by
    obtain ⟨early, late, rfl⟩ := List.append_of_mem member
    have after := reached.middle
    exact ⟨early, course_of_reaches started after.last.1, course_of_reaches started after⟩
  refine ⟨fun figure => (rolled_of_reaches started reached figure).distinct, ?_, ?_⟩
  · intro p member figure raw counted
    obtain ⟨early, before, after⟩ := courses member
    apply (after.lawful p (by simp)).at_of_counts
    exact (mem_counted before.settled.sound after.settled.sound).mp counted
  · intro p member commit attempted
    obtain ⟨early, before, after⟩ := courses member
    exact isCurrent_of_removed (after.lawful p (by simp)) before.timely attempted

/-- What is reported of a frame that begins where the world rests, if it is completed. -/
structure Reported (past : List (Passage σ)) (m : Moment σ) : Prop where
  counting : Counting past
  -- However the workers move, the figures are the numbers of those that the frame puts on the rolls.
  completed : ∀ w commit steps heard life w', m = .resting w →
    Underway w commit steps heard life (.resting w') → Counting (past ++ steps) ∧
      (∀ figure, Figure.reported commit life figure = (roll figure past steps).length) ∧
        w'.liveEntities + commit.removed.size = w.liveEntities + heard.countP hasCreated
  ran : ∀ w timing report w', m = .resting w → (w.runFrame timing).value = (.ok report, w') →
    ∃ commit steps heard, Underway w commit steps heard report.lifecycle (.resting w') ∧
      (∀ figure, report.figure figure = (roll figure past steps).length) ∧
        w'.liveEntities + report.removed = w.liveEntities + heard.countP hasCreated

/-- Wherever steps lead, frames report what has happened. -/
theorem reported_of_reaches {config : WorldConfig} {types : List ComponentType}
    {systems : List (System σ)} {memory : σ}
    (built : (World.new config types systems memory).value = .ok w₀) (reached : Reaches w₀ past m) :
    Reported past m := by
  have started := started_of_new built
  refine ⟨counting_of_reaches started reached, ?_, ?_⟩
  · rintro w commit steps heard life w' rfl done
    have accounted := done.accounted started reached
    exact ⟨counting_of_reaches started (done.reaches reached), accounted.figures, accounted.live⟩
  · rintro w timing report w' rfl ran
    obtain ⟨commit, steps, heard, done, same⟩ :=
      underway_of_runFrame (settled_of_reaches started reached) ran
    have accounted := done.accounted started reached
    have removed : report.removed = commit.removed.size := same .removed
    refine ⟨commit, steps, heard, done, fun figure => (same figure).trans (accounted.figures figure), ?_⟩
    rw [removed]
    exact accounted.live

/-- An entity that an abandoned frame has committed is destroyed by the next frame, which commits, promotes
and unregisters another one, and creates a third; the frame after that removes the first. -/
theorem reported_of_abandonedFrame : ∃ w₀ past w,
    (World.new .singleThreaded ageNameTypes [failsFirst] 0).value = .ok w₀ ∧
      Reaches w₀ past (.resting w) ∧
      (w.runFrame .zero).value.1.map
        (fun report => [.migrated, .removed, .promoted, .unregistered, .destroyed].map report.figure) =
          .ok [1, 0, 1, 1, 1] ∧
      ((w.runFrame .zero).value.2.runFrame .zero).value.1.map FrameReport.removed = .ok 1 ∧
      w.liveEntities = 2 ∧ (w.runFrame .zero).value.2.liveEntities = 3 ∧
      Reported past (.resting w) := by
  have ran : (session? .singleThreaded ageNameTypes [failsFirst] 0
      [.createWith [⟨1⟩], .runFrame .zero, .destroy (.ofRaw 1), .createWith [⟨1⟩]]).any (fun w =>
        (w.runFrame .zero).value.1.map
          (fun report => [.migrated, .removed, .promoted, .unregistered, .destroyed].map report.figure) =
            .ok [1, 0, 1, 1, 1] ∧
        ((w.runFrame .zero).value.2.runFrame .zero).value.1.map FrameReport.removed = .ok 1 ∧
        w.liveEntities = 2 ∧ (w.runFrame .zero).value.2.liveEntities = 3) = true := by
    decide +kernel
  obtain ⟨w, made, facts⟩ := (Option.any_eq_true _ _).mp ran
  obtain ⟨figures, removed, before, after⟩ := of_decide_eq_true facts
  obtain ⟨w₀, past, built, reached⟩ := reaches_of_session? made
  exact ⟨w₀, past, w, built, reached, figures, removed, before, after, reported_of_reaches built reached⟩

end World

end EntityWorld
