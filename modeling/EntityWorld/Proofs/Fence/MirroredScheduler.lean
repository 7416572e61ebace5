import EntityWorld.Proofs.Fence.MirroredBatch

/-!
# Schedulers in mirrored runs

Updates that do alike are declared, executed and dropped alike: fences, their order and what is reported
of them are the same in both runs. Main statements: `Alike.replayFence?` and `Alike.runFence`.
-/
namespace EntityWorld

open List (Forall₂)

variable {σ : Type} {mirror : Mirror σ}

/-- Under the same number, updates that do alike. -/
structure ScheduledUpdate.Alike (mirror : Mirror σ) (d d' : ScheduledUpdate σ) : Prop where
  update : d.update.Alike mirror d'.update
  sequence : d'.sequence = d.sequence

theorem Update.Alike.name {u u' : Update σ} (alike : u.Alike mirror u') : u'.name = u.name := by
  cases alike
  rfl

theorem Update.Alike.mode {u u' : Update σ} (alike : u.Alike mirror u') : u'.mode = u.mode := by
  cases alike
  rfl

structure Fence.Alike (mirror : Mirror σ) (f f' : Fence σ) : Prop where
  id : f'.id = f.id
  oneShots : Forall₂ (ScheduledUpdate.Alike mirror) f.oneShots f'.oneShots
  constants : Forall₂ (ScheduledUpdate.Alike mirror) f.constants f'.constants

namespace Fence.Alike

variable {f f' : Fence σ}

theorem runsConstant (alike : f.Alike mirror f') (name : String) :
    f'.runsConstant name = f.runsConstant name :=
  any_eq_of_forall₂ alike.constants fun d d' same => by rw [same.update.name]

theorem due (alike : f.Alike mirror f') : Forall₂ (Update.Alike mirror) f.due f'.due := by
  unfold Fence.due
  rw [List.forall₂_map_left_iff, List.forall₂_map_right_iff]
  refine (forall₂_mergeSort (List.rel_append alike.oneShots alike.constants) ?_).imp fun _ _ same =>
    same.update
  intro a b c d first second
  rw [first.sequence, second.sequence]

end Fence.Alike

namespace Scheduler

/-- Schedulers that differ in what the updates do only, which they do alike. -/
inductive Alike (mirror : Mirror σ) (s : Scheduler σ) : Scheduler σ → Prop
  | intro {fences : List (Fence σ)} (both : Forall₂ (Fence.Alike mirror) s.fences fences) :
      Alike mirror s { s with fences }

namespace Alike

variable {s t : Scheduler σ} {fence : FenceId} {shared shared' : Shared σ}

theorem fences (alike : s.Alike mirror t) : Forall₂ (Fence.Alike mirror) s.fences t.fences := by
  obtain @⟨fences, both⟩ := alike
  exact both

theorem phase (alike : s.Alike mirror t) : t.phase = s.phase := by
  cases alike
  rfl

theorem frame (alike : s.Alike mirror t) : t.frame = s.frame := by
  cases alike
  rfl

theorem order (alike : s.Alike mirror t) : t.order = s.order :=
  map_eq_of_forall₂ alike.fences fun _ _ same => same.id

theorem expectPhase (alike : s.Alike mirror t) (allowed : List Phase) (operation : String) :
    t.expectPhase allowed operation = s.expectPhase allowed operation := by
  cases alike
  rfl

theorem fence? (alike : s.Alike mirror t) (id : FenceId) :
    Option.Rel (Fence.Alike mirror) (s.fence? id) (t.fence? id) :=
  forall₂_find? alike.fences fun _ _ same => by rw [same.id]

theorem hasConstant (alike : s.Alike mirror t) (name : String) :
    t.hasConstant name = s.hasConstant name :=
  any_eq_of_forall₂ alike.fences fun _ _ same => same.runsConstant name

theorem modifyFence (alike : s.Alike mirror t) (id : FenceId) {change change' : Fence σ → Fence σ}
    (kept : ∀ f f', f.Alike mirror f' → (change f).Alike mirror (change' f')) :
    (s.modifyFence id change).Alike mirror (t.modifyFence id change') := by
  have place : t.fences.findIdx? (fun f => f.id = id) = s.fences.findIdx? fun f => f.id = id :=
    findIdx?_eq_of_forall₂ alike.fences fun _ _ same => by rw [same.id]
  unfold Scheduler.modifyFence
  rw [place]
  obtain @⟨fences, both⟩ := alike
  cases s.fences.findIdx? fun f => f.id = id with
  | none => exact .intro both
  | some place => exact .intro (forall₂_modify both place kept)

/-! ### Declarations -/

theorem admissible (alike : s.Alike mirror t) {u u' : Update σ} (same : u.Alike mirror u')
    (operation : String) (taken : Bool) :
    t.admissible operation u' taken = s.admissible operation u taken := by
  have found := alike.fence? u.fence
  have phase := alike.expectPhase [.acceptingUpdates] operation
  cases same with
  | intro does =>
    unfold Scheduler.admissible
    dsimp only
    rw [phase]
    generalize s.fence? u.fence = f? at found
    generalize t.fence? u.fence = g? at found
    cases alike with
    | intro both => cases found <;> rfl

private theorem counted (alike : s.Alike mirror t) :
    Alike mirror { s with nextSequence := s.nextSequence + 1 }
      { t with nextSequence := t.nextSequence + 1 } := by
  cases alike with
  | intro both => exact .intro both

private theorem number (alike : s.Alike mirror t) : t.nextSequence = s.nextSequence := by
  cases alike
  rfl

theorem schedule (alike : s.Alike mirror t) {u u' : Update σ} (same : u.Alike mirror u') :
    (t.schedule u').value.1 = (s.schedule u).value.1 ∧
      (s.schedule u).value.2.Alike mirror (t.schedule u').value.2 := by
  have fence : u'.fence = u.fence := by
    cases same
    rfl
  unfold Scheduler.schedule
  rw [alike.admissible same, fence, alike.number]
  cases s.admissible "schedule_update" u false with
  | error cause => exact ⟨rfl, alike⟩
  | ok =>
    exact ⟨rfl, counted (alike.modifyFence u.fence fun f f' fences =>
      { fences with oneShots := List.rel_append fences.oneShots (.cons ⟨same, rfl⟩ .nil) })⟩

theorem startConstant (alike : s.Alike mirror t) {u u' : Update σ} (same : u.Alike mirror u') :
    (t.startConstant u').value.1 = (s.startConstant u).value.1 ∧
      (s.startConstant u).value.2.Alike mirror (t.startConstant u').value.2 := by
  have fence : u'.fence = u.fence := by
    cases same
    rfl
  unfold Scheduler.startConstant
  rw [alike.admissible same, alike.hasConstant, same.name, fence, alike.number]
  cases s.admissible "start_constant_update" u (s.hasConstant u.name) with
  | error cause => exact ⟨rfl, alike⟩
  | ok =>
    exact ⟨rfl, counted (alike.modifyFence u.fence fun f f' fences =>
      { fences with constants := List.rel_append fences.constants (.cons ⟨same, rfl⟩ .nil) })⟩

theorem stopConstant (alike : s.Alike mirror t) (name : String) :
    (t.stopConstant name).value.1 = (s.stopConstant name).value.1 ∧
      (s.stopConstant name).value.2.Alike mirror (t.stopConstant name).value.2 := by
  have found : t.fences.findIdx? (fun f => f.runsConstant name) =
      s.fences.findIdx? fun f => f.runsConstant name :=
    findIdx?_eq_of_forall₂ alike.fences fun _ _ same => same.runsConstant name
  unfold Scheduler.stopConstant
  rw [alike.expectPhase, found]
  cases s.expectPhase [.acceptingUpdates] "stop_constant_update" with
  | error cause => exact ⟨rfl, alike⟩
  | ok =>
    cases s.fences.findIdx? fun f => f.runsConstant name with
    | none => exact ⟨rfl, alike⟩
    | some place =>
      obtain @⟨fences, both⟩ := alike
      refine ⟨rfl, .intro (forall₂_modify both place fun f f' same => { same with constants := ?_ })⟩
      exact forall₂_eraseP same.constants fun d d' same => by rw [same.update.name]

theorem discardOneShots (alike : s.Alike mirror t) :
    s.discardOneShots.2.Alike mirror t.discardOneShots.2 := by
  obtain @⟨fences, both⟩ := alike
  unfold Scheduler.discardOneShots
  refine .intro (List.forall₂_map_left_iff.mpr (List.forall₂_map_right_iff.mpr ?_))
  exact both.imp fun _ _ same => { same with oneShots := .nil }

theorem openDeclarations (alike : s.Alike mirror t) :
    t.openDeclarations.1 = s.openDeclarations.1 ∧
      s.openDeclarations.2.Alike mirror t.openDeclarations.2 := by
  unfold Scheduler.openDeclarations
  rw [alike.expectPhase]
  cases s.expectPhase [.acceptingUpdates, .steady] "open_declarations" with
  | error cause => exact ⟨rfl, alike⟩
  | ok =>
    obtain @⟨fences, both⟩ := alike
    exact ⟨rfl, .intro both⟩

/-! ### Execution -/

theorem beginPass (alike : s.Alike mirror t) :
    t.beginPass.1 = s.beginPass.1 ∧ s.beginPass.2.Alike mirror t.beginPass.2 := by
  unfold Scheduler.beginPass
  rw [alike.expectPhase, alike.frame]
  cases s.expectPhase [.acceptingUpdates, .steady] "begin_pass" with
  | error cause => exact ⟨rfl, alike⟩
  | ok =>
    obtain @⟨fences, both⟩ := alike
    exact ⟨rfl, .intro both⟩

theorem endPass (alike : s.Alike mirror t) : s.endPass.Alike mirror t.endPass := by
  unfold Scheduler.endPass
  rw [alike.phase]
  obtain @⟨fences, both⟩ := alike
  split
  · exact .intro both
  · exact .intro both

theorem spend (alike : s.Alike mirror t) (fence : FenceId) :
    (s.spend fence).Alike mirror (t.spend fence) :=
  alike.modifyFence fence fun _ _ same => { same with oneShots := .nil }

theorem batch (alike : s.Alike mirror t) (fence : FenceId) {updates updates' : List (Update σ)}
    (both : Forall₂ (Update.Alike mirror) updates updates') :
    (s.batch fence updates).Alike mirror (t.batch fence updates') := by
  cases alike
  exact .intro both

end Alike

variable {s t : Scheduler σ} {shared shared' : Shared σ}

/-- Sub-tasks that are run one after another, and what they hear. -/
theorem runTasks_alike (fence : FenceId) (frame tasks : Nat) {u u' : Update σ}
    (same : u.Alike mirror u') (mirrored : Shared.Mirrored mirror shared shared') (places : List Nat) :
    Shared.Mirrored mirror (runTasks fence frame tasks u places shared).value
        (runTasks fence frame tasks u' places shared').value ∧
      Forall₂ (Heard.Alike mirror.access) (heardTasks fence frame tasks u places shared)
        (heardTasks fence frame tasks u' places shared') := by
  induction places generalizing shared shared' with
  | nil => exact ⟨mirrored, .nil⟩
  | cons task rest ih =>
    have does : (u.program fence frame task tasks).Alike mirror.access (fun a b => b = a)
        (u'.program fence frame task tasks) := by
      cases same with
      | intro does => exact does _
    obtain ⟨-, after, heard⟩ := does.run (Shared.keptBy_perform mirror) mirrored
    obtain ⟨last, later⟩ := ih after
    simp only [runTasks, heardTasks, Logged.value_bind]
    exact ⟨last, List.rel_append heard later⟩

namespace Alike

variable {fence : FenceId}

theorem runSerial (alike : s.Alike mirror t) (fence : FenceId) {updates updates' : List (Update σ)}
    (both : Forall₂ (Update.Alike mirror) updates updates')
    (mirrored : Shared.Mirrored mirror shared shared') :
    Shared.Mirrored mirror (s.runSerial fence updates shared).value
        (t.runSerial fence updates' shared').value ∧
      Forall₂ (Heard.Alike mirror.access) (s.heardSerial fence updates shared)
        (t.heardSerial fence updates' shared') := by
  have tasks : t.tasks = s.tasks := by
    cases alike
    rfl
  induction both generalizing shared shared' with
  | nil => exact ⟨mirrored, .nil⟩
  | @cons u u' rest rest' same both ih =>
    simp only [Scheduler.runSerial, heardSerial, Logged.value_bind, alike.frame, tasks, same.mode]
    obtain ⟨after, heard⟩ := runTasks_alike fence s.frame (u.mode.taskCount s.tasks) same mirrored
      (List.range (u.mode.taskCount s.tasks))
    obtain ⟨last, later⟩ := ih after
    exact ⟨last, List.rel_append heard later⟩

/-- The updates of a fence, those for the frame thread and those for the workers. -/
private theorem partition_due {f f' : Fence σ} (same : f.Alike mirror f') :
    Forall₂ (Update.Alike mirror) (f.due.partition fun u => u.mode.isSerial).1
        (f'.due.partition fun u => u.mode.isSerial).1 ∧
      Forall₂ (Update.Alike mirror) (f.due.partition fun u => u.mode.isSerial).2
        (f'.due.partition fun u => u.mode.isSerial).2 := by
  simp only [List.partition_eq_filter_filter]
  constructor
  · refine List.rel_filter (fun u u' same => ?_) same.due
    simp only [same.mode]
  · refine List.rel_filter (fun u u' same => ?_) same.due
    simp only [Function.comp_apply, same.mode]

theorem replayFence? (alike : s.Alike mirror t) (fence : FenceId) (moves : List Batch.Move)
    (mirrored : Shared.Mirrored mirror shared shared') :
    Option.Rel (fun a b => Forall₂ (Heard.Alike mirror.access) a.1 b.1 ∧ Shared.Mirrored mirror a.2 b.2)
      (s.replayFence? fence moves shared) (t.replayFence? fence moves shared') := by
  unfold Scheduler.replayFence?
  rw [alike.phase]
  split
  · refine rel_bind_of_rel (alike.fence? fence) fun f f' same => ?_
    obtain ⟨serial, concurrent⟩ := partition_due same
    obtain ⟨ready, heard⟩ := alike.runSerial fence serial mirrored
    obtain ⟨replayed, later⟩ :=
      (alike.batch fence concurrent).replay? ((alike.batch fence concurrent).start ready) moves
    refine rel_bind_of_rel replayed fun a b last => ?_
    rw [last.control]
    split
    · exact .some ⟨List.rel_append heard later, last.shared⟩
    · exact .none
  · exact .none

/-- The same is reported, apart from the time it took. -/
theorem runFence (alike : s.Alike mirror t) (fence : FenceId) (elapsed elapsed' : Duration)
    (mirrored : Shared.Mirrored mirror shared shared') :
    (t.runFence fence elapsed' shared').value.1 =
        (s.runFence fence elapsed shared).value.1.map (fun report => { report with elapsed := elapsed' }) ∧
      (s.runFence fence elapsed shared).value.2.1.Alike mirror
          (t.runFence fence elapsed' shared').value.2.1 ∧
        Shared.Mirrored mirror (s.runFence fence elapsed shared).value.2.2
          (t.runFence fence elapsed' shared').value.2.2 := by
  have found := alike.fence? fence
  unfold Scheduler.runFence
  rw [alike.expectPhase]
  generalize s.fence? fence = f? at found
  generalize t.fence? fence = f?' at found
  cases s.expectPhase [.running] "run_fence" with
  | error cause => exact ⟨rfl, alike, mirrored⟩
  | ok =>
    cases found with
    | none => exact ⟨rfl, alike, mirrored⟩
    | @some f f' same =>
      obtain ⟨serial, concurrent⟩ := partition_due same
      obtain ⟨ready, -⟩ := alike.runSerial fence serial mirrored
      obtain ⟨outcome, after⟩ := (alike.batch fence concurrent).run ready
      simp only [Logged.value_within, Logged.value_bind, ← serial.length_eq, ← concurrent.length_eq]
      generalize ((s.batch fence _).run _).value = ran at outcome after ⊢
      generalize ((t.batch fence _).run _).value = ran' at outcome after ⊢
      obtain ⟨o, shared⟩ := ran
      obtain ⟨o', shared'⟩ := ran'
      obtain rfl : o' = o := outcome
      cases o' with
      | error fault => exact ⟨rfl, alike.spend fence, after⟩
      | ok retries =>
        simp only [Logged.value_ite, Logged.value_bind, Logged.value_pure, ite_self]
        exact ⟨rfl, alike.spend fence, after⟩

end Alike

end Scheduler

end EntityWorld
