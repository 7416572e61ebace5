import EntityWorld.Proofs.Fence.Calls
import EntityWorld.Proofs.Fence.Columns
import EntityWorld.Proofs.Fence.Replay

/-!
# One worker

Where one worker is at work one update is in flight at a time. The first update that waits finds every
lock free, so none is refused, and the queue keeps the order of the jobs. What callbacks that keep away
from the locks hear, and what they leave behind, is then what a loop over the updates makes of them,
however the worker and the frame thread take turns. Main statement: `Scheduler.sequential_of_run`.
-/
namespace EntityWorld

/-- The callbacks neither change the lock table nor look at it. -/
def Update.Aloof {σ : Type} (u : Update σ) : Prop := ∀ context, (u.body context).Only Access.Aloof

namespace Program

variable {I : Interface} {S α : Type} {handle : Handler I S}

/-- Runs a program to its end; what it hears comes after what was heard before. -/
def listen (handle : Handler I S) (told : List (Heard I) × S) (program : Program I α) :
    List (Heard I) × S :=
  (told.1 ++ program.heard handle told.2, (program.run handle told.2).value.2)

theorem listen_done (told : List (Heard I) × S) (value : α) :
    listen handle told (.done value) = told := by
  simp [listen, heard]

theorem listen_call (heard : List (Heard I)) (s : S) (command : I.Command)
    (next : I.Answer command → Program I α) :
    listen handle (heard, s) (.call command next) =
      listen handle (heard ++ [⟨command, (handle command s).value.1⟩], (handle command s).value.2)
        (next (handle command s).value.1) := by
  simp [listen, Program.heard, value_run_call]

end Program

/-! ### The loop -/

namespace Scheduler

variable {σ : Type} {s : Scheduler σ} {fence : FenceId}

theorem listen_runTasks (frame tasks : Nat) (u : Update σ) (left : List Nat)
    (heard : List (Heard (Access.interface σ))) (shared : Shared σ) :
    (left.map fun task => u.program fence frame task tasks).foldl (Program.listen Access.perform)
        (heard, shared) =
      (heard ++ heardTasks fence frame tasks u left shared,
        (runTasks fence frame tasks u left shared).value) := by
  induction left generalizing heard shared with
  | nil => simp [heardTasks, runTasks]
  | cons task rest ih =>
    simp only [List.map_cons, List.foldl_cons, Program.listen, ih, heardTasks, runTasks,
      Logged.value_bind, List.append_assoc]

/-- The programs that the loop runs for an update, one after another. -/
def programs (s : Scheduler σ) (fence : FenceId) (u : Update σ) :
    List (Program (Access.interface σ) Unit) :=
  (List.range (u.mode.taskCount s.tasks)).map fun task =>
    u.program fence s.frame task (u.mode.taskCount s.tasks)

theorem listen_runSerial (updates : List (Update σ)) (heard : List (Heard (Access.interface σ)))
    (shared : Shared σ) :
    (updates.flatMap (s.programs fence)).foldl (Program.listen Access.perform) (heard, shared) =
      (heard ++ s.heardSerial fence updates shared, (s.runSerial fence updates shared).value) := by
  induction updates generalizing heard shared with
  | nil => simp [heardSerial, runSerial]
  | cons u rest ih =>
    simp only [List.flatMap_cons, List.foldl_append, programs, listen_runTasks, ih, heardSerial,
      runSerial, Logged.value_bind, List.append_assoc]

/-- The jobs of a batch, in order, are what the loop runs. -/
theorem map_program_allJobs (updates : List (Update σ)) :
    (s.batch fence updates).allJobs.map (s.batch fence updates).program =
      updates.flatMap (s.programs fence) := by
  have here (place : Nat) :
      (Batch.jobsOf place ((s.batch fence updates).tasksAt place)).map (s.batch fence updates).program =
        updates[place]?.elim [] (s.programs fence) := by
    cases found : updates[place]? with
    | none => simp [Batch.tasksAt, batch, found, Batch.jobsOf]
    | some u => simp [Batch.tasksAt, Batch.taskCount, Batch.program, batch, found, Batch.jobsOf, programs]
  rw [Batch.allJobs, List.map_flatMap]
  simp only [here]
  exact flatMap_range_getElem? updates _

end Scheduler

namespace Batch

variable {σ : Type} {b : Batch σ} {s t : State σ} {move : Move} {kindCount place : Nat}
  {moves : List (State σ × Move)} {shared : Shared σ}

/-! ### One job at a time -/

/-- What is begun has returned before anything else begins. -/
structure OneByOne (moves : List (State σ × Move)) (s : State σ) : Prop where
  single : s.running.length ≤ 1
  returned : moves.flatMap began = moves.flatMap ended ++ s.running.map Prod.fst

theorem oneByOne_start (b : Batch σ) (shared : Shared σ) : OneByOne [] (b.start shared) where
  single := Nat.zero_le 1
  returned := rfl

/-- The job at a worker is the only one there is. -/
theorem OneByOne.running_eq (one : OneByOne moves s) {worker : Nat}
    {entry : Job × Program (Access.interface σ) Unit} (at_ : s.running[worker]? = some entry) :
    worker = 0 ∧ s.running = [entry] := by
  obtain ⟨inside, same⟩ := List.getElem?_eq_some_iff.mp at_
  obtain rfl : worker = 0 := Nat.lt_one_iff.mp (Nat.lt_of_lt_of_le inside one.single)
  obtain ⟨sole, running⟩ := List.length_eq_one_iff.mp (Nat.le_antisymm one.single inside)
  refine ⟨rfl, ?_⟩
  simpa [running] using same

theorem running_eq_nil (alone : b.workers = 1) (idle : s.running.length < b.workers) :
    s.running = [] :=
  List.length_eq_zero_iff.mp (Nat.lt_one_iff.mp (alone ▸ idle))

theorem OneByOne.step (alone : b.workers = 1) (one : OneByOne moves s) (step : Step b s move t) :
    OneByOne (moves ++ [(s, move)]) t := by
  have returned := one.returned
  cases step with
  | @took job queue queued idle =>
    have none := running_eq_nil alone idle
    refine ⟨by simp [none], ?_⟩
    simpa [none, queued, began, ended] using returned
  | @signalled worker job at_ =>
    obtain ⟨rfl, sole⟩ := one.running_eq at_
    refine ⟨by simp [sole], ?_⟩
    simpa [sole, began, ended] using returned
  | @commanded worker job command next at_ =>
    obtain ⟨rfl, sole⟩ := one.running_eq at_
    refine ⟨by simp [sole], ?_⟩
    simpa [sole, began, ended] using returned
  | _ => exact ⟨one.single, by simpa [began, ended] using returned⟩

/-! ### One update at a time -/

/-- Every sub-task of the updates before a place. -/
def jobsBefore (b : Batch σ) (place : Nat) : List Job :=
  (List.range place).flatMap fun earlier => jobsOf earlier (b.tasksAt earlier)

theorem jobsBefore_succ (b : Batch σ) (place : Nat) :
    b.jobsBefore (place + 1) = b.jobsBefore place ++ jobsOf place (b.tasksAt place) := by
  simp [jobsBefore, List.range_succ]

theorem jobsOf_succ (place count : Nat) : jobsOf place (count + 1) = jobsOf place count ++ [⟨place, count⟩] := by
  simp [jobsOf, List.range_succ]

theorem sentAt_le (b : Batch σ) (s : State σ) (place : Nat) : sentAt b s place ≤ b.tasksAt place := by
  unfold sentAt
  split
  · exact Nat.zero_le _
  · exact Nat.zero_le _
  · exact Nat.sub_le _ _
  · exact Nat.sub_le _ _

/-- Whose turn it is: the updates before have finished, and the updates after have not been admitted. -/
structure InTurn (b : Batch σ) (moves : List (State σ × Move)) (s : State σ) (place : Nat) : Prop where
  inside : place ≤ b.updates.length
  finished : ∀ earlier < place, s.stages[earlier]? = some .finished
  current : s.stages[place]? ≠ some .finished
  waiting : ∀ later, place < later → later < b.updates.length → s.stages[later]? = some .waiting
  -- What has been begun and what is queued is what was sent.
  sent : moves.flatMap began ++ s.queue = b.jobsBefore place ++ jobsOf place (sentAt b s place)
  retries : s.retries = 0

theorem inTurn_start (b : Batch σ) (shared : Shared σ) : InTurn b [] (b.start shared) 0 where
  inside := Nat.zero_le _
  finished := fun earlier before => absurd before (Nat.not_lt_zero earlier)
  current := by
    simp only [start, List.getElem?_map]
    cases b.updates[0]? <;> simp
  waiting := fun later _ inside => by simp [start, inside]
  sent := by
    have nothing : sentAt b (b.start shared) 0 = 0 := by
      simp only [sentAt, start, List.getElem?_map]
      cases b.updates[0]? <;> rfl
    rw [nothing]
    rfl
  retries := rfl

/-- Only the update whose turn it is can be in flight. -/
theorem InTurn.eq_of_inFlight (turn : InTurn b moves s place) (account : Accounted b s)
    {other remaining : Nat} (flies : s.stages[other]? = some (.inFlight remaining)) :
    other = place := by
  rcases Nat.lt_trichotomy other place with before | same | after
  · rw [turn.finished other before] at flies
    cases flies
  · exact same
  · obtain ⟨inside, -⟩ := List.getElem?_eq_some_iff.mp flies
    rw [account.length] at inside
    rw [turn.waiting other after inside] at flies
    cases flies

/-- The first update that waits is the one whose turn it is, if nothing is in flight. -/
theorem InTurn.eq_of_waiting (turn : InTurn b moves s place) (none : flyingCount s = 0) {other : Nat}
    (waits : s.stages[other]? = some .waiting)
    (first : ∀ earlier < other, s.stages[earlier]? ≠ some .waiting) : other = place := by
  rcases Nat.lt_trichotomy other place with before | same | after
  · rw [turn.finished other before] at waits
    cases waits
  · exact same
  · obtain ⟨inside, -⟩ := List.getElem?_eq_some_iff.mp waits
    have here : s.stages[place]? = some s.stages[place] := List.getElem?_eq_getElem (after.trans inside)
    have grounded := List.countP_eq_zero.mp none _ (List.mem_of_getElem? here)
    have passed := first place after
    have current := turn.current
    rw [here] at passed current
    cases stage : s.stages[place] with
    | waiting => exact absurd (congrArg some stage) passed
    | inFlight => simp [stage, Stage.isInFlight] at grounded
    | finished => exact absurd (congrArg some stage) current

/-- The turn stays where it is. -/
private theorem InTurn.stays (turn : InTurn b moves s place)
    (others : ∀ other, other ≠ place → t.stages[other]? = s.stages[other]?)
    (current : t.stages[place]? ≠ some .finished) (sent : sentAt b t place = sentAt b s place)
    (queue : began (s, move) ++ t.queue = s.queue) (retries : t.retries = s.retries) :
    InTurn b (moves ++ [(s, move)]) t place where
  inside := turn.inside
  finished := fun earlier before =>
    (others earlier (Nat.ne_of_lt before)).trans (turn.finished earlier before)
  current
  waiting := fun later after inside =>
    (others later (Nat.ne_of_gt after)).trans (turn.waiting later after inside)
  sent := by
    rw [sent, ← turn.sent, ← queue]
    simp
  retries := retries.trans turn.retries

/-- The turn passes to the next update, of which nothing has been sent. -/
private theorem InTurn.passes (turn : InTurn b moves s place) (account : Accounted b s)
    (inside : place < s.stages.length) (stages : t.stages = s.stages.set place .finished)
    (sent : sentAt b s place = b.tasksAt place) (queue : t.queue = s.queue)
    (retries : t.retries = s.retries) : InTurn b (moves ++ [(s, .frame)]) t (place + 1) := by
  have others {other : Nat} (different : place ≠ other) : t.stages[other]? = s.stages[other]? := by
    rw [stages, List.getElem?_set_ne different]
  have next := others (Nat.ne_of_lt (Nat.lt_succ_self place))
  have waits : s.stages[place + 1]? = none ∨ s.stages[place + 1]? = some .waiting := by
    by_cases more : place + 1 < b.updates.length
    · exact .inr (turn.waiting _ (Nat.lt_succ_self place) more)
    · exact .inl (List.getElem?_eq_none (account.length ▸ Nat.le_of_not_lt more))
  have nothing : sentAt b t (place + 1) = 0 := by
    simp only [sentAt, next]
    rcases waits with waits | waits <;> simp [waits]
  refine ⟨account.length ▸ inside, fun earlier before => ?_, ?_, fun later after within => ?_, ?_,
    retries.trans turn.retries⟩
  · rcases Nat.lt_or_eq_of_le (Nat.le_of_lt_succ before) with old | rfl
    · exact (others (Nat.ne_of_gt old)).trans (turn.finished earlier old)
    · rw [stages, List.getElem?_set_self inside]
  · rw [next]
    rcases waits with waits | waits <;> simp [waits]
  · have beyond : place < later := Nat.lt_of_succ_lt after
    exact (others (Nat.ne_of_lt beyond)).trans (turn.waiting later beyond within)
  · rw [nothing, jobsBefore_succ, ← sent, queue]
    simpa [began, jobsOf] using turn.sent

theorem InTurn.step (ready : b.Ready kindCount shared) (alone : b.workers = 1)
    (sane : Sane b kindCount s) (turn : InTurn b moves s place) (step : Step b s move t) :
    ∃ place, InTurn b (moves ++ [(s, move)]) t place := by
  have guard' := sane.guard.step ready sane.account step
  -- An update that may be admitted finds nothing in flight.
  have grounded {other : Nat} (at_ : s.control = .admitting other) (room : s.inFlight < b.workers) :
      s.inFlight = 0 ∧ flyingCount s = 0 := by
    have idle : s.inFlight = 0 := Nat.lt_one_iff.mp (alone ▸ room)
    exact ⟨idle, (sane.account.flyingCount_eq (idle_of_admitting at_)).trans idle⟩
  cases step with
  | passed at_ =>
    exact ⟨place, turn.stays (fun _ _ => rfl) turn.current
      (sentAt_congr ((idle_of_admitting at_).unsent place) rfl rfl) rfl rfl⟩
  | refused at_ found _ room taken =>
    rw [sane.guard.takes ready (grounded at_ room).2 found] at taken
    cases taken
  | misused | unheld | unowed => exact absurd rfl (guard'.unbroken _)
  | @admitted other u locks at_ found waiting room taken =>
    obtain ⟨idle, none⟩ := grounded at_ room
    obtain rfl : other = place := turn.eq_of_waiting none waiting (sane.lively.tried other at_ idle)
    obtain ⟨inside, -⟩ := List.getElem?_eq_some_iff.mp waiting
    refine ⟨other, turn.stays (fun later different => ?_) ?_
      (sentAt_of_admitted at_ waiting rfl rfl other) rfl rfl⟩
    · exact List.getElem?_set_ne different.symm
    · simp [inside]
  | scanned at_ =>
    exact ⟨place, turn.stays (fun _ _ => rfl) turn.current
      (sentAt_congr ((idle_of_admitting at_).unsent place) ((idle_of_scanned s).unsent place) rfl)
      rfl rfl⟩
  | @sent other task at_ more =>
    obtain ⟨flies, -⟩ := sane.account.sending other task at_
    obtain rfl : other = place := turn.eq_of_inFlight sane.account flies
    refine ⟨other, turn.inside, turn.finished, turn.current, turn.waiting, ?_, turn.retries⟩
    have after : sentAt b { s with
        control := .sending other (task + 1), queue := s.queue ++ [⟨other, task⟩] } other =
        task + 1 := sentAt_of_sending rfl flies more
    -- The next job goes to the end of the queue.
    have sent := turn.sent
    rw [sentAt_of_sending at_ flies (Nat.le_of_lt more)] at sent
    rw [after, jobsOf_succ, ← List.append_assoc (b.jobsBefore other), ← sent]
    simp [began]
  | @launched other task at_ last =>
    exact ⟨place, turn.stays (fun _ _ => rfl) turn.current
      (sentAt_of_launched at_ last _ _ place) rfl rfl⟩
  | @counted other remaining signals at_ signalled owed more =>
    obtain rfl : other = place := turn.eq_of_inFlight sane.account owed
    obtain ⟨inside, -⟩ := List.getElem?_eq_some_iff.mp owed
    refine ⟨other, turn.stays (fun later different => ?_) ?_
      (sentAt_of_settled (idle_of_settling at_) (by simp [Control.Idle]) owed rfl (by simp)) rfl rfl⟩
    · exact List.getElem?_set_ne different.symm
    · simp [inside]
  | @finished other u signals locks at_ signalled found owed given =>
    obtain rfl : other = place := turn.eq_of_inFlight sane.account owed
    obtain ⟨inside, -⟩ := List.getElem?_eq_some_iff.mp owed
    have whole : sentAt b s other = b.tasksAt other := by
      simp only [sentAt, owed, (idle_of_settling at_).unsent, Nat.sub_zero]
    exact ⟨other + 1, turn.passes sane.account inside rfl whole rfl rfl⟩
  | drained at_ =>
    exact ⟨place, turn.stays (fun _ _ => rfl) turn.current
      (sentAt_congr ((idle_of_settling (.inr at_)).unsent place) ((idle_afterSignals s).unsent place) rfl)
      rfl rfl⟩
  | took queued =>
    exact ⟨place, turn.stays (fun _ _ => rfl) turn.current rfl (by simp [began, queued]) rfl⟩
  | signalled | commanded => exact ⟨place, turn.stays (fun _ _ => rfl) turn.current rfl rfl rfl⟩

/-- So far the jobs have been begun in order. -/
theorem InTurn.began_prefix (turn : InTurn b moves s place) : moves.flatMap began <+: b.allJobs := by
  refine List.IsPrefix.trans ⟨s.queue, turn.sent⟩ ?_
  rcases Nat.lt_or_eq_of_le turn.inside with more | last
  · -- What was sent is part of the jobs up to this place.
    have whole : b.jobsBefore (place + 1) <+: b.allJobs :=
      (range_prefix_range more).flatMap _
    have part : jobsOf place (sentAt b s place) <+: jobsOf place (b.tasksAt place) :=
      (range_prefix_range (sentAt_le b s place)).map _
    refine List.IsPrefix.trans ?_ whole
    rw [jobsBefore_succ]
    exact List.prefix_append_right_inj _ |>.mpr part
  · have none : sentAt b s place = 0 := by
      have nothing : b.tasksAt place = 0 := by simp [tasksAt, last]
      exact Nat.le_zero.mp (nothing ▸ sentAt_le b s place)
    rw [none, last]
    exact ⟨[], by simp [jobsOf, jobsBefore, allJobs]⟩

/-! ### What is heard and left behind -/

/-- What was heard, and what is shared but for the locks, is what the jobs that were begun make of it,
one after another and each to its end. -/
structure Told (b : Batch σ) (shared : Shared σ) (heard : List (Heard (Access.interface σ)))
    (moves : List (State σ × Move)) (s : State σ) : Prop where
  aloof : ∀ entry ∈ s.running, entry.2.Only Access.Aloof
  -- A job that still runs is looked at as if it ran to its end now.
  told : (s.running.map Prod.snd).foldl (Program.listen Access.perform)
      (heard, { s.shared with locks := shared.locks }) =
    ((moves.flatMap began).map b.program).foldl (Program.listen Access.perform) ([], shared)
  size : s.shared.locks.size = shared.locks.size

theorem told_start (b : Batch σ) (shared : Shared σ) : Told b shared [] [] (b.start shared) where
  aloof := by simp [start]
  told := rfl
  size := rfl

theorem Told.step {heard : List (Heard (Access.interface σ))} (ready : b.Ready kindCount shared)
    (alone : b.workers = 1) (aloof : ∀ u ∈ b.updates, u.Aloof) (guard : Guarded b kindCount s)
    (one : OneByOne moves s) (told : Told b shared heard moves s) (step : Step b s move t) :
    Told b shared (heard ++ heardAt s move) (moves ++ [(s, move)]) t := by
  have size := (guard.size_step ready step).trans told.size
  have before := told.told
  cases step with
  | @took job queue queued idle =>
    refine ⟨fun entry member => ?_, ?_, size⟩
    · obtain rfl : entry = (job, b.program job) := by
        simpa [running_eq_nil alone idle] using member
      simp only [program]
      split
      · trivial
      next u found => exact aloof u (List.mem_of_getElem? found) _
    · have begins : (moves ++ [(s, Move.take)]).flatMap began = moves.flatMap began ++ [job] := by
        simp [began, queued]
      simp only [begins, heardAt, List.append_nil, List.map_append, List.foldl_append, before,
        List.map_cons, List.map_nil]
  | @signalled worker job at_ =>
    obtain ⟨rfl, sole⟩ := one.running_eq at_
    refine ⟨by simp [sole], ?_, size⟩
    simpa [sole, began, heardAt, Program.listen_done] using before
  | @commanded worker job command next at_ =>
    obtain ⟨rfl, sole⟩ := one.running_eq at_
    have only := told.aloof _ (List.mem_of_getElem? at_)
    refine ⟨by simpa [sole] using only.2 _, ?_, size⟩
    -- The command is answered as it would be if nobody held a lock.
    simp only [sole, List.map_cons, List.map_nil, List.foldl_cons, List.foldl_nil,
      Program.listen_call] at before
    rw [Access.perform_locks only.1 s.shared shared.locks] at before
    simpa [sole, began, heardAt] using before
  | _ => exact ⟨told.aloof, by simpa [began, heardAt] using before, size⟩

/-! ### Runs -/

theorem oneByOne_of_run (alone : b.workers = 1) (run : Run b (b.start shared) moves s) :
    OneByOne moves s := by
  induction run with
  | refl => exact oneByOne_start b shared
  | step _ made ih => exact ih.step alone (step_of_step? made)

theorem inTurn_of_run (ready : b.Ready kindCount shared) (alone : b.workers = 1)
    (run : Run b (b.start shared) moves s) : ∃ place, InTurn b moves s place := by
  have staffed : 0 < b.workers := alone ▸ Nat.one_pos
  induction run with
  | refl => exact ⟨0, inTurn_start b shared⟩
  | step run made ih =>
    obtain ⟨place, turn⟩ := ih
    exact turn.step ready alone (sane_of_run ready staffed run) (step_of_step? made)

theorem told_of_run (ready : b.Ready kindCount shared) (alone : b.workers = 1)
    (aloof : ∀ u ∈ b.updates, u.Aloof) (run : Run b (b.start shared) moves s) :
    Told b shared (b.heard (b.start shared) (moves.map Prod.snd)) moves s := by
  induction run with
  | refl => exact told_start b shared
  | step run made ih =>
    rw [heard_step run made]
    exact ih.step ready alone aloof (guarded_of_run ready run).2 (oneByOne_of_run alone run)
      (step_of_step? made)

/-- In the end every job has been begun, so they have been begun in order. -/
theorem began_eq_allJobs (ready : b.Ready kindCount shared) (alone : b.workers = 1)
    (run : Run b (b.start shared) moves s) (closed : s.control = .closed) :
    moves.flatMap began = b.allJobs := by
  obtain ⟨place, turn⟩ := inTurn_of_run ready alone run
  have all := perm_allJobs (completion_of_closed ready run closed).begun
  exact turn.began_prefix.eq_of_length all.length_eq

/-- In the end the locks are as they were. -/
theorem locks_of_closed (ready : b.Ready kindCount shared) (run : Run b (b.start shared) moves s)
    (size : s.shared.locks.size = shared.locks.size) (closed : s.control = .closed) :
    s.shared.locks = shared.locks := by
  have idle := (completion_of_closed ready run closed).isIdle
  rw [LockTable.eq_ofSize_of_isIdle idle, size, ← LockTable.eq_ofSize_of_isIdle ready.idle]

end Batch

namespace Scheduler

open Batch

variable {σ : Type} {s : Scheduler σ} {fence : FenceId} {updates : List (Update σ)} {shared : Shared σ}
  {moves : List (State σ × Move)} {t : State σ}

/-- A run of updates in which they come to the same as in a loop over them. -/
structure Sequential (s : Scheduler σ) (fence : FenceId) (updates : List (Update σ))
    (shared : Shared σ) (moves : List (State σ × Move)) (t : State σ) : Prop where
  -- At most one callback runs, and all that were called before it have returned.
  single : t.running.length ≤ 1
  returned : moves.flatMap began = moves.flatMap ended ++ t.running.map Prod.fst
  -- Update by update as they were declared, and each from its first sub-task to its last.
  inOrder : moves.flatMap began <+: (s.batch fence updates).allJobs
  retries : t.retries = 0
  enabled : t.control ≠ .closed → ∃ move, ((s.batch fence updates).step? t move).isSome
  finite : Acc (s.batch fence updates).Follows t
  called : t.control = .closed → moves.flatMap ended = (s.batch fence updates).allJobs
  heard : t.control = .closed →
    (s.batch fence updates).heard ((s.batch fence updates).start shared) (moves.map Prod.snd) =
      s.heardSerial fence updates shared
  shared : t.control = .closed → t.shared = (s.runSerial fence updates shared).value

theorem ready_of_aloof (fits : s.Fits shared) (valid : ∀ u ∈ updates, u.validate s.kindCount = .ok ())
    (aloof : ∀ u ∈ updates, u.Aloof) : (s.batch fence updates).Ready s.kindCount shared where
  valid
  slots := fits.slots
  idle := fits.idle
  leaves := fun u member context => (aloof u member context).imp fun _ keeps => keeps.1

private theorem sequential_of_ready (ready : (s.batch fence updates).Ready s.kindCount shared)
    (alone : s.workers = 1) (aloof : ∀ u ∈ updates, u.Aloof)
    (run : Run (s.batch fence updates) ((s.batch fence updates).start shared) moves t) :
    Sequential s fence updates shared moves t := by
  have staffed : 0 < (s.batch fence updates).workers := Nat.lt_of_lt_of_eq Nat.one_pos alone.symm
  have sane := sane_of_run ready staffed run
  obtain ⟨place, turn⟩ := inTurn_of_run ready alone run
  have one := oneByOne_of_run alone run
  have told := told_of_run ready alone aloof run
  -- In the end no job is running, and all of them have been told in order.
  have whole (closed : t.control = .closed) :
      moves.flatMap ended = (s.batch fence updates).allJobs ∧
        ((s.batch fence updates).heard ((s.batch fence updates).start shared) (moves.map Prod.snd),
            t.shared) =
          (s.heardSerial fence updates shared, (s.runSerial fence updates shared).value) := by
    obtain ⟨-, running, -⟩ := (completion_of_closed ready run closed).quiet
    have began := began_eq_allJobs ready alone run closed
    have returned := one.returned
    have same := told.told
    rw [running, List.map_nil, List.append_nil] at returned
    rw [running, List.map_nil, List.foldl_nil, began, map_program_allJobs, listen_runSerial,
      List.nil_append, ← locks_of_closed ready run told.size closed] at same
    exact ⟨returned.symm.trans began, same⟩
  exact {
    single := one.single
    returned := one.returned
    inOrder := turn.began_prefix
    retries := turn.retries
    enabled := sane.enabled staffed
    finite := sane.acc ready staffed
    called := fun closed => (whole closed).1
    heard := fun closed => (Prod.mk.inj (whole closed).2).1
    shared := fun closed => (Prod.mk.inj (whole closed).2).2 }

/-- With one worker the callbacks of validated updates are called one at a time and in order, no update
is refused its locks, and every run ends where the loop over the updates ends, after the same commands
and answers. Run as a batch, the updates answer that nothing was retried. -/
theorem sequential_of_run (alone : s.workers = 1) (fits : s.Fits shared)
    (valid : ∀ u ∈ updates, u.validate s.kindCount = .ok ()) (aloof : ∀ u ∈ updates, u.Aloof)
    (run : Run (s.batch fence updates) ((s.batch fence updates).start shared) moves t) :
    Sequential s fence updates shared moves t ∧ ((s.batch fence updates).totalJobs < wordBound →
      ((s.batch fence updates).run shared).value =
        (.ok 0, (s.runSerial fence updates shared).value)) := by
  have ready : (s.batch fence updates).Ready s.kindCount shared := ready_of_aloof fits valid aloof
  refine ⟨sequential_of_ready ready alone aloof run, fun countable => ?_⟩
  have staffed : 0 < (s.batch fence updates).workers := Nat.lt_of_lt_of_eq Nat.one_pos alone.symm
  obtain ⟨retries, after, ran⟩ := ok_of_run ready staffed countable
  obtain ⟨moves, u, run, closed, rfl, rfl⟩ := closed_of_run ran
  have sequential := sequential_of_ready ready alone aloof run
  rw [ran, sequential.retries, sequential.shared closed]

/-! ### Two writers on one worker -/

/-- One worker, and two sub-tasks for a distributed update. -/
def oneWorker : Scheduler (List (String × Nat)) :=
  .new { WorldConfig.singleThreaded with distributedTasks := 2 } 2

theorem aloof_noting (name : String) (mode : UpdateMode) (reads writes : List Kind) :
    (noting name mode reads writes).Aloof := by
  intro context
  refine ⟨⟨fun call same => ?_, fun same => ?_⟩, fun _ => trivial⟩
  · cases same
  · cases same

theorem twoWriters_aloof : ∀ u ∈ twoWriters.updates, u.Aloof := by
  intro u member
  simp only [twoWriters, List.mem_cons, List.not_mem_nil, or_false] at member
  rcases member with rfl | rfl | rfl
  all_goals exact aloof_noting _ _ _ _

/-- The worker begins the first sub-task before the second has been sent. The other updates wait for
their turn. -/
theorem sequential_of_oneWorker : oneWorker.workers = 1 ∧ oneWorker.Fits twoWritersShared ∧
    (∀ u ∈ twoWriters.updates, u.validate oneWorker.kindCount = .ok ()) ∧
    (∀ u ∈ twoWriters.updates, u.Aloof) ∧
    ∃ moves t, Run (oneWorker.batch .update twoWriters.updates)
        ((oneWorker.batch .update twoWriters.updates).start twoWritersShared) moves t ∧
      t.control = .closed ∧
      t.shared.memory = [("first", 0), ("first", 1), ("second", 0), ("third", 0)] ∧
      Sequential oneWorker .update twoWriters.updates twoWritersShared moves t ∧
      ((oneWorker.batch .update twoWriters.updates).run twoWritersShared).value =
        (.ok 0, (oneWorker.runSerial .update twoWriters.updates twoWritersShared).value) := by
  have made : ∃ t, (oneWorker.batch .update twoWriters.updates).replay?
      ((oneWorker.batch .update twoWriters.updates).start twoWritersShared)
      [.frame, .frame, .take, .frame, .work 0, .frame, .work 0, .take, .frame, .frame, .frame, .frame,
        .work 0, .frame, .frame, .work 0, .frame, .frame, .frame, .frame, .frame, .frame, .frame,
        .frame, .frame, .frame, .frame, .take, .work 0, .work 0, .frame, .frame, .frame, .frame, .frame,
        .frame, .frame, .frame, .take, .work 0, .work 0, .frame, .frame] = some t ∧
      t.control = .closed ∧
      t.shared.memory = [("first", 0), ("first", 1), ("second", 0), ("third", 0)] :=
    ⟨_, rfl, rfl, rfl⟩
  have fits : oneWorker.Fits twoWritersShared := ⟨by decide, by decide +kernel⟩
  have valid : ∀ u ∈ twoWriters.updates, u.validate oneWorker.kindCount = .ok () := by decide
  obtain ⟨t, made, closed, memory⟩ := made
  obtain ⟨trace, -, run⟩ := run_of_replay? made
  obtain ⟨sequential, answers⟩ := sequential_of_run rfl fits valid twoWriters_aloof run
  exact ⟨rfl, fits, valid, twoWriters_aloof, trace, t, run, closed, memory, sequential,
    answers (by decide)⟩

end Scheduler

end EntityWorld
