import EntityWorld.Proofs.Fence.Calls

/-!
# Shares of a distributed update

The sub-tasks of a distributed update divide rows among themselves without talking to each other:
each works out where its part begins from its own number. The parts fit together all the same, so
every row has one owner, and working them out stays within the number of rows. Main statement:
`Scheduler.sharedOut_of_executes`.
-/
namespace EntityWorld

/-! ### Dividing rows -/

namespace RowRange

variable {start stop total count index row : Nat} {ranges : List RowRange}

/-- Ranges that follow each other without a gap, from the first row to the last. -/
inductive Tiles : Nat → List RowRange → Nat → Prop where
  | nil {start : Nat} : Tiles start [] start
  | cons {r : RowRange} {ranges : List RowRange} {stop : Nat} (forward : r.start ≤ r.stop)
      (rest : Tiles r.stop ranges stop) : Tiles r.start (r :: ranges) stop

theorem Tiles.le (tiles : Tiles start ranges stop) : start ≤ stop := by
  induction tiles with
  | nil => exact Nat.le_refl _
  | cons forward _ ih => exact Nat.le_trans forward ih

theorem Tiles.snoc (tiles : Tiles start ranges stop) {r : RowRange} (adjacent : r.start = stop)
    (forward : r.start ≤ r.stop) : Tiles start (ranges ++ [r]) r.stop := by
  induction tiles with
  | nil =>
    subst adjacent
    exact .cons forward .nil
  | cons before _ ih => exact .cons before (ih adjacent)

/-- Every row between the ends is in one range, and no other row is in any. -/
theorem Tiles.countP_contains (tiles : Tiles start ranges stop) (row : Nat) :
    ranges.countP (·.contains row) = if start ≤ row ∧ row < stop then 1 else 0 := by
  induction tiles with
  | nil =>
    rw [if_neg (by omega)]
    rfl
  | @cons r ranges stop forward rest ih =>
    have after := rest.le
    rw [List.countP_cons, ih]
    simp only [contains, Bool.and_eq_true, decide_eq_true_eq]
    split <;> split <;> split <;> omega

/-- Where the part of a task begins, and the part of the one before it ends. -/
def bound (total count index : Nat) : Nat := index * (total / count) + min index (total % count)

theorem bound_zero (total count : Nat) : bound total count 0 = 0 := by
  simp [bound]

theorem bound_count (total : Nat) (positive : 1 ≤ count) : bound total count count = total := by
  have less : total % count < count := Nat.mod_lt _ positive
  rw [bound, Nat.min_eq_right (Nat.le_of_lt less), Nat.div_add_mod]

theorem bound_succ (total count index : Nat) : bound total count (index + 1) =
    bound total count index + (total / count + if index < total % count then 1 else 0) := by
  simp only [bound, Nat.succ_mul]
  split <;> omega

theorem bound_mono (total count : Nat) {index other : Nat} (before : index ≤ other) :
    bound total count index ≤ bound total count other := by
  induction before with
  | refl => exact Nat.le_refl _
  | step _ ih =>
    rw [bound_succ]
    exact Nat.le_trans ih (Nat.le_add_right _ _)

theorem bound_le (total : Nat) (inside : index ≤ count) (positive : 1 ≤ count) :
    bound total count index ≤ total := by
  calc bound total count index ≤ bound total count count := bound_mono total count inside
    _ = total := bound_count total positive

theorem split_eq (total : Nat) (inside : index < count) :
    split total index count = ⟨bound total count index, bound total count (index + 1)⟩ := by
  have positive : 1 ≤ count := Nat.lt_of_le_of_lt (Nat.zero_le _) inside
  have first := bound_le total (Nat.le_of_lt inside) positive
  have last := bound_le total (Nat.succ_le_of_lt inside) positive
  rw [bound_succ] at last
  simp only [split, Nat.max_eq_left positive, bound_succ]
  exact congrArg₂ RowRange.mk (Nat.min_eq_left first) (Nat.min_eq_left last)

theorem size_split (total : Nat) (inside : index < count) : (split total index count).size =
    total / count + if index < total % count then 1 else 0 := by
  rw [split_eq total inside, size, bound_succ, Nat.add_sub_cancel_left]

/-- The parts of the first tasks. -/
theorem tiles_split (total : Nat) {tasks : Nat} (inside : tasks ≤ count) :
    Tiles 0 ((List.range tasks).map fun index => split total index count)
      (bound total count tasks) := by
  induction tasks with
  | zero =>
    rw [bound_zero]
    exact .nil
  | succ tasks ih =>
    have before := ih (Nat.le_of_succ_le inside)
    have next := split_eq total (Nat.lt_of_succ_le inside)
    rw [List.range_succ, List.map_append, List.map_singleton, next]
    exact before.snoc rfl (bound_mono total count (Nat.le_succ tasks))

-- More tasks than rows: the last ones get none.
example : (List.range 4).map (fun index => split 2 index 4) = [⟨0, 1⟩, ⟨1, 2⟩, ⟨2, 2⟩, ⟨2, 2⟩] :=
  rfl

/-! ### Within a limit -/

/-- A number, unless it is beyond the limit. -/
def upTo? (limit n : Nat) : Option Nat := if n ≤ limit then some n else none

theorem upTo?_of_le {limit n : Nat} (inside : n ≤ limit) : upTo? limit n = some n := if_pos inside

/-- The same part, unless a product or a sum on the way is beyond the limit. -/
def splitUpTo? (limit total index count : Nat) : Option RowRange := do
  let count := max count 1
  let base := total / count
  let extra := total % count
  let whole ← upTo? limit (index * base)
  let start ← upTo? limit (whole + min index extra)
  let size ← upTo? limit (base + if index < extra then 1 else 0)
  let stop ← upTo? limit (start + size)
  return ⟨min start total, min stop total⟩

/-- Nothing on the way is beyond the number of rows. -/
theorem splitUpTo?_eq {limit : Nat} (rows : total ≤ limit) (inside : index < count) :
    splitUpTo? limit total index count = some (split total index count) := by
  have positive : 1 ≤ count := Nat.lt_of_le_of_lt (Nat.zero_le _) inside
  -- What is worked out last is where the next part begins, and everything before is less.
  have last : bound total count (index + 1) ≤ limit :=
    Nat.le_trans (bound_le total inside positive) rows
  rw [bound_succ, bound] at last
  have start := Nat.le_trans (Nat.le_add_right _ _) last
  have size := Nat.le_trans (Nat.le_add_left _ _) last
  have whole := Nat.le_trans (Nat.le_add_right _ _) start
  simp only [splitUpTo?, split, Nat.max_eq_left positive, upTo?_of_le whole, upTo?_of_le start,
    upTo?_of_le size, upTo?_of_le last, Option.bind_eq_bind, Option.bind_some]
  rfl

end RowRange

/-! ### The sub-tasks of a fence -/

variable {σ : Type}

/-- The contexts of sub-tasks that divide rows among themselves, however many rows there are. -/
structure Division (count : Nat) (contexts : List UpdateContext) : Prop where
  positive : 1 ≤ count
  tasks : contexts.map UpdateContext.task = List.range count
  counts : ∀ context ∈ contexts, context.tasks = count
  tiles : ∀ rows, RowRange.Tiles 0 (contexts.map (·.taskRange rows)) rows
  even : ∀ rows, (contexts.map (·.taskRange rows)).Pairwise fun r later =>
    later.size ≤ r.size ∧ r.size ≤ later.size + 1
  owned : ∀ rows row, contexts.countP (fun context => (context.taskRange rows).contains row) =
    if row < rows then 1 else 0
  within : ∀ limit rows, rows ≤ limit → ∀ context ∈ contexts,
    RowRange.splitUpTo? limit rows context.task context.tasks = some (context.taskRange rows)

theorem division_of_tasks {count : Nat} {contexts : List UpdateContext} (positive : 1 ≤ count)
    (tasks : contexts.map UpdateContext.task = List.range count)
    (counts : ∀ context ∈ contexts, context.tasks = count) : Division count contexts := by
  have inside : ∀ context ∈ contexts, context.task < count := by
    intro context member
    have listed := List.mem_map_of_mem (f := UpdateContext.task) member
    rwa [tasks, List.mem_range] at listed
  have ranges (rows : Nat) : contexts.map (·.taskRange rows) =
      (List.range count).map fun index => RowRange.split rows index count := by
    rw [← tasks, List.map_map]
    refine List.map_congr_left fun context member => ?_
    rw [UpdateContext.taskRange, counts context member]
    rfl
  have tiles (rows : Nat) : RowRange.Tiles 0 (contexts.map (·.taskRange rows)) rows := by
    have all := RowRange.tiles_split rows (Nat.le_refl count)
    rwa [RowRange.bound_count rows positive, ← ranges rows] at all
  refine ⟨positive, tasks, counts, tiles, fun rows => ?_, fun rows row => ?_,
    fun limit rows few context member => ?_⟩
  · rw [ranges, List.pairwise_map]
    refine List.pairwise_lt_range.imp_of_mem fun here there before => ?_
    rw [RowRange.size_split rows (List.mem_range.mp here),
      RowRange.size_split rows (List.mem_range.mp there)]
    split <;> split <;> omega
  · have once := (tiles rows).countP_contains row
    rw [List.countP_map] at once
    simpa [Function.comp_def] using once
  · rw [counts context member, RowRange.splitUpTo?_eq few (inside context member),
      UpdateContext.taskRange, counts context member]

namespace Scheduler

variable {s : Scheduler σ} {fence : FenceId} {shared shared' : Shared σ}
  {serial concurrent : List (Callback σ)}

/-- What a callback is called with. -/
def context (s : Scheduler σ) (fence : FenceId) (callback : Callback σ) : UpdateContext :=
  { fence
    update := callback.declared.update.name
    frame := s.frame
    task := callback.task
    tasks := callback.declared.update.mode.taskCount s.tasks }

theorem program_of_callbackOf? {declared : List (ScheduledUpdate σ)} {job : Batch.Job}
    {callback : Callback σ} (called : callbackOf? declared job = some callback) :
    (s.batch fence (declared.map ScheduledUpdate.update)).program job =
      callback.declared.update.body (s.context fence callback) := by
  obtain ⟨d, found, rfl⟩ := Option.map_eq_some_iff.mp called
  simp only [Batch.program, batch, List.getElem?_map, found, Option.map_some]
  rfl

theorem division_callbacks (s : Scheduler σ) (fence : FenceId) (d : ScheduledUpdate σ) :
    Division (d.update.mode.taskCount s.tasks) ((d.callbacks s.tasks).map (s.context fence)) := by
  refine division_of_tasks ?_ ?_ fun context member => ?_
  · rw [UpdateMode.taskCount]
    split
    · exact Nat.le_max_right _ _
    · exact Nat.le_refl 1
  · rw [ScheduledUpdate.callbacks, List.map_map, List.map_map]
    exact List.map_id _
  · obtain ⟨callback, called, rfl⟩ := List.mem_map.mp member
    obtain ⟨task, -, rfl⟩ := List.mem_map.mp called
    rfl

/-- What the callbacks of one execution are called with. -/
structure SharedOut (s : Scheduler σ) (fence : FenceId) (slot : Fence σ)
    (serial concurrent : List (Callback σ)) : Prop where
  serial : serial = slot.serial.flatMap (·.callbacks s.tasks)
  concurrent : concurrent.Perm (slot.concurrent.flatMap (·.callbacks s.tasks))
  played : ∀ shared callback, s.play fence shared callback =
    ((callback.declared.update.body (s.context fence callback)).run Access.perform shared).value.2
  programs : ∀ job callback, callbackOf? slot.concurrent job = some callback →
    (s.batch fence (slot.concurrent.map ScheduledUpdate.update)).program job =
      callback.declared.update.body (s.context fence callback)
  divided : ∀ d ∈ slot.queue, Division (d.update.mode.taskCount s.tasks)
    ((d.callbacks s.tasks).map (s.context fence))

/-- Whenever a fence is executed, the sub-tasks of every update on it are numbered from 0, all know
how many they are, and divide any number of rows so that each row has one owner. -/
theorem sharedOut_of_executes (executed : Executes s fence shared serial concurrent shared') :
    ∃ slot, s.fence? fence = some slot ∧ SharedOut s fence slot serial concurrent := by
  obtain ⟨slot, -, found, serial, concurrent⟩ := executed.callbacks
  exact ⟨slot, found, serial, concurrent, fun _ _ => rfl, fun _ _ => program_of_callbackOf?,
    fun d _ => s.division_callbacks fence d⟩

/-! ### Three sub-tasks -/

/-- One update divides its work on the frame thread and the other among workers. -/
def distributedFence : Fence (List (String × Nat)) where
  id := .update
  oneShots := []
  constants :=
    [⟨Batch.noting "divided" .serialDistributed [] [⟨1⟩], 0⟩,
      ⟨Batch.noting "shared" .concurrentDistributed [] [⟨1⟩], 1⟩]

/-- Two workers, and three sub-tasks for a distributed update. -/
def threeTasks : Scheduler (List (String × Nat)) :=
  let fresh : Scheduler (List (String × Nat)) := .new ⟨2, 3, 16, false⟩ 2
  { fresh with phase := .running, frame := 1, fences := [distributedFence] }

/-- The workers finish the second sub-task first. -/
theorem sharedOut_of_threeTasks : ∃ serial concurrent shared',
    Executes threeTasks .update Batch.twoWritersShared serial concurrent shared' ∧
      shared'.memory = [("divided", 0), ("divided", 1), ("divided", 2), ("shared", 1), ("shared", 0),
        ("shared", 2)] ∧
      ∃ slot, threeTasks.fence? .update = some slot ∧
        SharedOut threeTasks .update slot serial concurrent := by
  have queue : distributedFence.queue = distributedFence.constants :=
    List.mergeSort_of_pairwise (by simp [distributedFence])
  have serial : distributedFence.serial = distributedFence.constants.take 1 := by
    rw [Fence.serial, queue]
    rfl
  have concurrent : distributedFence.concurrent = distributedFence.constants.drop 1 := by
    rw [Fence.concurrent, queue]
    rfl
  let batch := threeTasks.batch .update (distributedFence.concurrent.map ScheduledUpdate.update)
  have made : ∃ t, batch.replay?
      (batch.start ((distributedFence.serial.flatMap (·.callbacks threeTasks.tasks)).foldl
        (threeTasks.play .update) Batch.twoWritersShared))
      [.frame, .frame, .frame, .frame, .frame, .frame, .take, .take, .work 1, .work 1, .take,
        .work 0, .frame, .work 1, .work 0, .work 0, .frame, .frame, .frame] = some t ∧
      t.control = .closed ∧
      t.shared.memory = [("divided", 0), ("divided", 1), ("divided", 2), ("shared", 1), ("shared", 0),
        ("shared", 2)] := by
    simp only [batch, serial, concurrent]
    exact ⟨_, rfl, rfl, rfl⟩
  obtain ⟨t, made, closed, memory⟩ := made
  obtain ⟨trace, -, run⟩ := Batch.run_of_replay? made
  have executed := Executes.intro rfl rfl rfl run closed
  exact ⟨_, _, _, executed, memory, sharedOut_of_executes executed⟩

end Scheduler

end EntityWorld
