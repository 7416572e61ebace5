import EntityWorld.Proofs.Fence.Completion
import EntityWorld.Proofs.Fence.Progress
import EntityWorld.Proofs.Lists
import EntityWorld.Proofs.World.Frames
import Mathlib.Data.List.Nodup

/-!
# The callbacks of a fence

One execution of a fence calls the callbacks of what is declared on it: the serial ones one after
another, in the order they were declared, and then the concurrent ones in any order that the batch
allows. Main statements: `Scheduler.exists_executes_iff`, `Scheduler.Executes.called` and
`Scheduler.executes_of_fits`.
-/
namespace EntityWorld

variable {σ : Type}

/-- The callbacks leave the lock table alone. -/
def Update.Calm (u : Update σ) : Prop := ∀ context, (u.body context).Only Access.LeavesLocks

/-- A callback that is called: for which declaration, and for which of its sub-tasks. -/
structure Callback (σ : Type) where
  declared : ScheduledUpdate σ
  task : Nat

/-- A callback for every sub-task, in order. -/
def ScheduledUpdate.callbacks (d : ScheduledUpdate σ) (tasks : Nat) : List (Callback σ) :=
  (List.range (d.update.mode.taskCount tasks)).map (Callback.mk d)

/-- What is declared on a fence, in the order it was declared. -/
def Fence.queue (f : Fence σ) : List (ScheduledUpdate σ) :=
  (f.oneShots ++ f.constants).mergeSort fun a b => a.sequence ≤ b.sequence

def Fence.serial (f : Fence σ) : List (ScheduledUpdate σ) :=
  f.queue.filter fun d => d.update.mode.isSerial

def Fence.concurrent (f : Fence σ) : List (ScheduledUpdate σ) :=
  f.queue.filter fun d => !d.update.mode.isSerial

theorem Fence.partition_due (f : Fence σ) : f.due.partition (fun u => u.mode.isSerial) =
    (f.serial.map ScheduledUpdate.update, f.concurrent.map ScheduledUpdate.update) := by
  have due : f.due = f.queue.map ScheduledUpdate.update := rfl
  rw [due, List.partition_eq_filter_filter, List.filter_map, List.filter_map]
  rfl

/-- The callback that a job of a batch of these updates is. -/
def callbackOf? (concurrent : List (ScheduledUpdate σ)) (job : Batch.Job) : Option (Callback σ) :=
  concurrent[job.update]?.map fun d => ⟨d, job.task⟩

namespace Scheduler

variable {s : Scheduler σ} {fence : FenceId} {shared shared' : Shared σ}

/-- Calls a callback and runs it to its end. -/
def play (s : Scheduler σ) (fence : FenceId) (shared : Shared σ) (callback : Callback σ) : Shared σ :=
  let u := callback.declared.update
  ((u.program fence s.frame callback.task (u.mode.taskCount s.tasks)).run Access.perform shared).value.2

/-- A fence is executed: its serial callbacks, its concurrent callbacks and what they lead to. -/
inductive Executes (s : Scheduler σ) (fence : FenceId) (shared : Shared σ) :
    List (Callback σ) → List (Callback σ) → Shared σ → Prop
  | intro {slot : Fence σ} {b : Batch σ} {moves : List (Batch.State σ × Batch.Move)}
      {t : Batch.State σ} (running : s.phase = .running) (found : s.fence? fence = some slot)
      (batch : b = s.batch fence (slot.concurrent.map ScheduledUpdate.update))
      (run : Batch.Run b
        (b.start ((slot.serial.flatMap (·.callbacks s.tasks)).foldl (s.play fence) shared)) moves t)
      (closed : t.control = .closed) :
      Executes s fence shared (slot.serial.flatMap (·.callbacks s.tasks))
        ((moves.flatMap Batch.began).filterMap (callbackOf? slot.concurrent)) t.shared

/-! ### The serial updates -/

theorem runTasks_eq (d : ScheduledUpdate σ) (tasks : List Nat) (shared : Shared σ) :
    (runTasks fence s.frame (d.update.mode.taskCount s.tasks) d.update tasks shared).value =
      (tasks.map (Callback.mk d)).foldl (s.play fence) shared := by
  induction tasks generalizing shared with
  | nil => rfl
  | cons task rest ih =>
    simp only [runTasks, Logged.value_bind, List.map_cons, List.foldl_cons]
    exact ih _

theorem runSerial_eq (declared : List (ScheduledUpdate σ)) (shared : Shared σ) :
    (s.runSerial fence (declared.map ScheduledUpdate.update) shared).value =
      (declared.flatMap (·.callbacks s.tasks)).foldl (s.play fence) shared := by
  induction declared generalizing shared with
  | nil => rfl
  | cons d rest ih =>
    simp only [List.map_cons, runSerial, Logged.value_bind, List.flatMap_cons, List.foldl_append, ih,
      runTasks_eq]
    rfl

/-- These are the executions that there are. -/
theorem exists_executes_iff :
    (∃ serial concurrent, Executes s fence shared serial concurrent shared') ↔
      FenceRun s fence shared shared' := by
  constructor
  · rintro ⟨serial, concurrent, executed⟩
    cases executed with
    | @intro slot b moves t running found batch run closed =>
      rw [← runSerial_eq] at run
      exact .intro running found slot.partition_due batch run closed
  · intro ran
    cases ran with
    | @intro slot serial concurrent b t moves running found due batch run closed =>
      rw [slot.partition_due] at due
      cases due
      rw [runSerial_eq] at run
      exact ⟨_, _, .intro running found batch run closed⟩

end Scheduler

/-! ### The concurrent updates -/

namespace Batch

variable {b : Batch σ}

/-- Every sub-task of every update. -/
def allJobs (b : Batch σ) : List Job :=
  (List.range b.updates.length).flatMap fun place => jobsOf place (b.tasksAt place)

theorem mem_allJobs {job : Job} : job ∈ b.allJobs ↔ job.task < b.tasksAt job.update := by
  simp only [allJobs, jobsOf, List.mem_flatMap, List.mem_range, List.mem_map]
  constructor
  · rintro ⟨place, -, task, inside, rfl⟩
    exact inside
  · intro inside
    refine ⟨job.update, ?_, job.task, inside, rfl⟩
    by_contra outside
    rw [tasksAt, List.getElem?_eq_none (Nat.le_of_not_lt outside)] at inside
    cases inside

theorem nodup_allJobs (b : Batch σ) : b.allJobs.Nodup := by
  refine List.nodup_flatMap.mpr ⟨fun place _ => ?_, List.nodup_range.imp fun other job here there => ?_⟩
  · exact List.nodup_range.map fun _ _ same => (Job.mk.inj same).2
  · obtain ⟨task, -, rfl⟩ := List.mem_map.mp here
    obtain ⟨task', -, same⟩ := List.mem_map.mp there
    exact other (Job.mk.inj same).1.symm

theorem perm_allJobs {jobs : List Job}
    (once : ∀ job : Job, jobs.count job = if job.task < b.tasksAt job.update then 1 else 0) :
    jobs.Perm b.allJobs := by
  refine List.perm_iff_count.mpr fun job => ?_
  simp only [once, b.nodup_allJobs.count, mem_allJobs]

end Batch

namespace Scheduler

variable {s : Scheduler σ} {fence : FenceId} {shared shared' : Shared σ}

theorem filterMap_callbackOf? (s : Scheduler σ) (concurrent : List (ScheduledUpdate σ)) :
    (s.batch fence (concurrent.map ScheduledUpdate.update)).allJobs.filterMap (callbackOf? concurrent) =
      concurrent.flatMap (·.callbacks s.tasks) := by
  have here (place : Nat) : (Batch.jobsOf place
      ((s.batch fence (concurrent.map ScheduledUpdate.update)).tasksAt place)).filterMap
        (callbackOf? concurrent) = concurrent[place]?.elim [] (·.callbacks s.tasks) := by
    cases found : concurrent[place]? with
    | none => simp [Batch.tasksAt, batch, found, Batch.jobsOf]
    | some d =>
      have callback : callbackOf? concurrent ∘ Batch.Job.mk place = some ∘ Callback.mk d := by
        funext task
        simp [callbackOf?, found]
      have count : (s.batch fence (concurrent.map ScheduledUpdate.update)).tasksAt place =
          d.update.mode.taskCount s.tasks := by
        simp [Batch.tasksAt, batch, found, Batch.taskCount]
      simp only [Batch.jobsOf, List.filterMap_map, callback, count, Option.elim_some]
      rw [List.filterMap_eq_map]
      rfl
  rw [Batch.allJobs, List.filterMap_flatMap]
  simp only [here]
  rw [show (s.batch fence (concurrent.map ScheduledUpdate.update)).updates.length =
    concurrent.length from List.length_map _]
  exact flatMap_range_getElem? concurrent _

/-! ### What has to be given -/

/-- What is declared can be run together. -/
def Admissible (s : Scheduler σ) : Prop :=
  ∀ f ∈ s.fences, ∀ d ∈ f.oneShots ++ f.constants,
    d.update.validate s.kindCount = .ok () ∧ d.update.Calm

/-- The lock table has a slot for every kind that updates are checked against, and is idle. -/
structure Fits (s : Scheduler σ) (shared : Shared σ) : Prop where
  slots : s.kindCount < shared.locks.size
  idle : shared.locks.isIdle = true

theorem fits_ofRegistry (s : Scheduler σ) (registry : Registry) (memory : σ)
    (kinds : s.kindCount = registry.kindCount) : s.Fits (Shared.ofRegistry registry memory) where
  slots := by simp [Shared.ofRegistry, LockTable.size, LockTable.ofSize, Registry.lockSlots, kinds]
  idle := by
    refine Array.all_eq_true_iff_forall_mem.mpr fun slot member => ?_
    rw [(Array.mem_replicate.mp member).2]
    rfl

theorem locks_foldl_play {callbacks : List (Callback σ)}
    (calm : ∀ callback ∈ callbacks, callback.declared.update.Calm) :
    (callbacks.foldl (s.play fence) shared).locks = shared.locks := by
  induction callbacks generalizing shared with
  | nil => rfl
  | cons callback rest ih =>
    rw [List.foldl_cons, ih fun other later => calm other (List.mem_cons_of_mem _ later)]
    refine Program.run_preserves (P := fun after : Shared σ => after.locks = shared.locks)
      (fun command leaves before same => ?_) (calm callback List.mem_cons_self _) rfl
    rw [before.locks_perform leaves, same]

theorem mem_queue_iff {f : Fence σ} {d : ScheduledUpdate σ} :
    d ∈ f.queue ↔ d ∈ f.oneShots ++ f.constants :=
  (List.mergeSort_perm _ _).mem_iff

theorem Admissible.ready {slot : Fence σ} (admissible : s.Admissible)
    (found : s.fence? fence = some slot) (fits : s.Fits shared) :
    (s.batch fence (slot.concurrent.map ScheduledUpdate.update)).Ready s.kindCount
      ((slot.serial.flatMap (·.callbacks s.tasks)).foldl (s.play fence) shared) := by
  have queued : ∀ d ∈ slot.queue, d.update.validate s.kindCount = .ok () ∧ d.update.Calm :=
    fun d member => admissible slot (List.mem_of_find?_eq_some found) d (mem_queue_iff.mp member)
  have locks : ((slot.serial.flatMap (·.callbacks s.tasks)).foldl (s.play fence) shared).locks =
      shared.locks := by
    refine locks_foldl_play fun callback member => ?_
    obtain ⟨d, serial, turn⟩ := List.mem_flatMap.mp member
    obtain ⟨task, -, rfl⟩ := List.mem_map.mp turn
    exact (queued d (List.mem_filter.mp serial).1).2
  have batched : ∀ u ∈ slot.concurrent.map ScheduledUpdate.update,
      u.validate s.kindCount = .ok () ∧ u.Calm := by
    intro u member
    obtain ⟨d, concurrent, rfl⟩ := List.mem_map.mp member
    exact queued d (List.mem_filter.mp concurrent).1
  exact
    { valid := fun u member => (batched u member).1
      slots := locks ▸ fits.slots
      idle := locks ▸ fits.idle
      leaves := fun u member => (batched u member).2 }

/-- The callbacks that one execution calls. -/
theorem Executes.callbacks {serial concurrent : List (Callback σ)}
    (executed : Executes s fence shared serial concurrent shared') :
    ∃ slot, s.phase = .running ∧ s.fence? fence = some slot ∧
      serial = slot.serial.flatMap (·.callbacks s.tasks) ∧
      concurrent.Perm (slot.concurrent.flatMap (·.callbacks s.tasks)) := by
  cases executed with
  | @intro slot b moves t running found batch run closed =>
    subst batch
    refine ⟨slot, running, found, rfl, ?_⟩
    rw [← filterMap_callbackOf? s slot.concurrent]
    exact (Batch.perm_allJobs fun job => (Batch.once_of_closed run closed job).1).filterMap _

/-- Where the lock table was idle it is so again. -/
theorem Executes.called {serial concurrent : List (Callback σ)}
    (executed : Executes s fence shared serial concurrent shared') (admissible : s.Admissible)
    (fits : s.Fits shared) :
    ∃ slot, s.phase = .running ∧ s.fence? fence = some slot ∧
      serial = slot.serial.flatMap (·.callbacks s.tasks) ∧
      concurrent.Perm (slot.concurrent.flatMap (·.callbacks s.tasks)) ∧ s.Fits shared' := by
  obtain ⟨slot, running, found, serial, concurrent⟩ := executed.callbacks
  refine ⟨slot, running, found, serial, concurrent, ?_⟩
  cases executed with
  | @intro slot b moves t running found batch run closed =>
    subst batch
    have ready := admissible.ready found fits
    exact ⟨(Batch.guarded_of_run ready run).2.slots,
      (Batch.completion_of_closed ready run closed).isIdle⟩

/-- A fence can be executed, unless it has more jobs than can be counted. -/
theorem executes_of_fits {slot : Fence σ} (running : s.phase = .running)
    (found : s.fence? fence = some slot) (admissible : s.Admissible) (fits : s.Fits shared)
    (staffed : 0 < s.workers)
    (countable : total (slot.concurrent.map fun d => d.update.mode.taskCount s.tasks) < wordBound)
    (elapsed : Duration) : ∃ report serial concurrent shared',
      (s.runFence fence elapsed shared).value = (.ok report, s.spend fence, shared') ∧
        report.fence = fence ∧ Executes s fence shared serial concurrent shared' := by
  have ready := admissible.ready found fits
  have jobs : (s.batch fence (slot.concurrent.map ScheduledUpdate.update)).totalJobs < wordBound := by
    rw [Batch.totalJobs, batch, List.map_map]
    exact countable
  obtain ⟨retries, after, ran⟩ := Batch.ok_of_run ready staffed jobs
  rw [← runSerial_eq] at ran
  have phase : s.expectPhase [.running] "run_fence" = .ok () := by simp [expectPhase, running]
  have answered : ∃ report, (s.runFence fence elapsed shared).value =
      (.ok report, s.spend fence, after) ∧ report.fence = fence := by
    simp only [runFence, phase, found, Logged.value_within, slot.partition_due, Logged.value_bind, ran,
      Logged.value_ite, Logged.value_pure, ite_self]
    exact ⟨_, rfl, rfl⟩
  obtain ⟨report, answered, same⟩ := answered
  obtain ⟨serial, concurrent, executed⟩ :=
    exists_executes_iff.mpr (fenceRun_of_runFence answered).2
  exact ⟨report, serial, concurrent, after, answered, same, executed⟩

end Scheduler

end EntityWorld
