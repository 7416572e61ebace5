import EntityWorld.Proofs.Fence.Exclusion

/-!
# Completion of a batch

A job that was sent is queued, running or has returned, and it is begun as often as it is running or
has returned. `Tallied` says so against the moves of a run; once the frame thread has seen every
update finish nothing is queued or running, so every sub-task has run once and nothing else has.
-/
namespace EntityWorld.Batch

variable {σ : Type} {b : Batch σ} {s t : State σ} {move : Move} {kindCount : Nat}
  {moves : List (State σ × Move)}

/-- Number of jobs of the update at a place that were sent. -/
def sentAt (b : Batch σ) (s : State σ) (place : Nat) : Nat :=
  match s.stages[place]? with
  | none | some .waiting => 0
  | some (.inFlight _) | some .finished => b.tasksAt place - s.control.unsent b place

structure Tallied (b : Batch σ) (moves : List (State σ × Move)) (s : State σ) : Prop where
  sent : ∀ job : Job, (jobsOut s).count job + (moves.flatMap ended).count job =
    if job.task < sentAt b s job.update then 1 else 0
  begun : ∀ job : Job, (moves.flatMap began).count job =
    (s.running.map Prod.fst).count job + (moves.flatMap ended).count job

theorem tallied_start (b : Batch σ) (shared : Shared σ) : Tallied b [] (b.start shared) where
  sent := by
    intro job
    have nothing : sentAt b (b.start shared) job.update = 0 := by
      simp only [sentAt, start, List.getElem?_map]
      cases b.updates[job.update]? <;> rfl
    rw [nothing, if_neg (Nat.not_lt_zero _)]
    rfl
  begun := fun _ => rfl

/-! ### What was sent -/

/-- Where nothing is left to send before and after, only the stage matters. -/
theorem sentAt_congr {place : Nat} (before : s.control.unsent b place = 0)
    (after : t.control.unsent b place = 0) (stages : t.stages[place]? = s.stages[place]?) :
    sentAt b t place = sentAt b s place := by
  simp only [sentAt, before, after, stages]

/-- An update that has been admitted has been sent all its jobs, whatever it still owes. -/
theorem sentAt_of_settled {place settled remaining : Nat} {new : Stage}
    (before : s.control.Idle) (after : t.control.Idle)
    (owed : s.stages[settled]? = some (.inFlight remaining))
    (stages : t.stages = s.stages.set settled new) (passed : new ≠ .waiting) :
    sentAt b t place = sentAt b s place := by
  obtain ⟨inside, -⟩ := List.getElem?_eq_some_iff.mp owed
  by_cases same : settled = place
  · subst same
    simp only [sentAt, stages, List.getElem?_set_self inside, owed, before.unsent, after.unsent]
    cases new with
    | waiting => exact absurd rfl passed
    | inFlight => rfl
    | finished => rfl
  · exact sentAt_congr (before.unsent place) (after.unsent place)
      (by rw [stages, List.getElem?_set_ne same])

/-- Nothing of an update was sent while it waited, and nothing has been sent when it is admitted. -/
theorem sentAt_of_admitted {admitted remaining : Nat} (at_ : s.control = .admitting admitted)
    (waiting : s.stages[admitted]? = some .waiting) (after : t.control = .sending admitted 0)
    (stages : t.stages = s.stages.set admitted (.inFlight remaining)) (place : Nat) :
    sentAt b t place = sentAt b s place := by
  obtain ⟨inside, -⟩ := List.getElem?_eq_some_iff.mp waiting
  by_cases same : admitted = place
  · subst same
    simp only [sentAt, waiting, stages, List.getElem?_set_self inside, after, Control.unsent, if_true,
      Nat.sub_zero, Nat.sub_self]
  · exact sentAt_congr ((idle_of_admitting at_).unsent place) (by rw [after]; exact if_neg same)
      (by rw [stages, List.getElem?_set_ne same])

theorem sentAt_of_sending {place task remaining : Nat} (at_ : s.control = .sending place task)
    (stage : s.stages[place]? = some (.inFlight remaining)) (within : task ≤ b.tasksAt place) :
    sentAt b s place = task := by
  simp only [sentAt, stage, at_, Control.unsent, if_true]
  omega

theorem sentAt_of_launched {sender task : Nat} (at_ : s.control = .sending sender task)
    (last : b.tasksAt sender ≤ task) (next inFlight place : Nat) :
    sentAt b { s with control := .admitting next, inFlight } place = sentAt b s place := by
  refine sentAt_congr ?_ rfl rfl
  simp only [at_, Control.unsent]
  split
  next same => subst same; omega
  next => rfl

/-- The frame thread runs no job; what it does not send either changes no tally. -/
private theorem Tallied.frame (tally : Tallied b moves s) (running : t.running = s.running)
    (queue : t.queue = s.queue) (sent : ∀ place, sentAt b t place = sentAt b s place) :
    Tallied b (moves ++ [(s, .frame)]) t where
  sent := by
    intro job
    rw [sent, ← tally.sent job]
    simp [jobsOut, running, queue, ended]
  begun := by
    intro job
    simpa [running, ended, began] using tally.begun job

theorem Tallied.step (account : Accounted b s) (tally : Tallied b moves s)
    (step : Step b s move t) : Tallied b (moves ++ [(s, move)]) t := by
  cases step with
  | passed at_ _ _ | refused at_ _ _ _ _ | misused at_ _ _ =>
    exact tally.frame rfl rfl fun place =>
      sentAt_congr ((idle_of_admitting at_).unsent place) rfl rfl
  | @admitted place u locks at_ found waiting room taken =>
    exact tally.frame rfl rfl fun other => sentAt_of_admitted at_ waiting rfl rfl other
  | scanned at_ past =>
    exact tally.frame rfl rfl fun place =>
      sentAt_congr ((idle_of_admitting at_).unsent place) ((idle_of_scanned s).unsent place) rfl
  | @sent place task at_ more =>
    obtain ⟨stage, -⟩ := account.sending place task at_
    refine ⟨fun job => ?_, fun job => by simpa [ended, began] using tally.begun job⟩
    have before := tally.sent job
    by_cases same : place = job.update
    · -- The numbers below the next one are the numbers below the old one and the old one.
      have old : sentAt b s job.update = task :=
        same ▸ sentAt_of_sending at_ stage (Nat.le_of_lt more)
      have new : sentAt b { s with
          control := .sending place (task + 1), queue := s.queue ++ [⟨place, task⟩] } job.update =
          task + 1 :=
        same ▸ sentAt_of_sending rfl stage more
      have last : (⟨place, task⟩ : Job) = job ↔ job.task = task := by
        cases job
        simp_all [eq_comm]
      rw [new]
      rw [old] at before
      simp only [jobsOut, List.count_append, List.count_cons, List.count_nil, List.flatMap_append,
        List.flatMap_cons, List.flatMap_nil, ended, beq_iff_eq, last] at before ⊢
      split at before <;> split <;> split <;> omega
    · have other : sentAt b { s with
          control := .sending place (task + 1), queue := s.queue ++ [⟨place, task⟩] } job.update =
          sentAt b s job.update :=
        sentAt_congr (by rw [at_]; exact if_neg same) (if_neg same) rfl
      have fresh : (⟨place, task⟩ : Job) ≠ job := fun equal => same (equal ▸ rfl)
      rw [other, ← before]
      simp only [jobsOut, List.count_append, List.count_cons, List.count_nil, List.flatMap_append,
        List.flatMap_cons, List.flatMap_nil, ended, beq_iff_eq, if_neg fresh, Nat.add_zero]
  | @launched place task at_ last =>
    exact tally.frame rfl rfl fun other => sentAt_of_launched at_ last _ _ other
  | counted at_ signalled owed more =>
    exact tally.frame rfl rfl fun other =>
      sentAt_of_settled (idle_of_settling at_) (by simp [Control.Idle]) owed rfl (by simp)
  | finished at_ signalled found owed given =>
    exact tally.frame rfl rfl fun other =>
      sentAt_of_settled (idle_of_settling at_) (by simp [Control.Idle]) owed rfl (by simp)
  | unheld at_ signalled found owed given =>
    exact tally.frame rfl rfl fun other =>
      sentAt_of_settled (idle_of_settling at_) (by simp [Control.Idle]) owed rfl (by simp)
  | unowed at_ signalled nothing =>
    exact tally.frame rfl rfl fun place =>
      sentAt_congr ((idle_of_settling at_).unsent place) rfl rfl
  | drained at_ empty =>
    exact tally.frame rfl rfl fun place =>
      sentAt_congr ((idle_of_settling (.inr at_)).unsent place)
        ((idle_afterSignals s).unsent place) rfl
  | @took first queue queued idle =>
    -- The job goes from the queue to a worker: it is out as before, and begun once more.
    refine ⟨fun job => ?_, fun job => ?_⟩
    · rw [show sentAt b { s with queue, running := s.running ++ [(first, b.program first)] }
        job.update = sentAt b s job.update from rfl, ← tally.sent job]
      simp only [jobsOut, queued, List.map_append, List.map_cons, List.map_nil, List.count_append,
        List.count_cons, List.count_nil, List.flatMap_append, List.flatMap_cons, List.flatMap_nil,
        ended]
      omega
    · have before := tally.begun job
      simp only [queued, List.map_append, List.map_cons, List.map_nil, List.count_append,
        List.count_cons, List.count_nil, List.flatMap_append, List.flatMap_cons, List.flatMap_nil,
        began, ended, List.take_succ_cons, List.take_zero] at before ⊢
      omega
  | @signalled worker last at_ =>
    -- The job leaves its worker and is counted as returned from then on.
    have perm (job : Job) := ((perm_cons_eraseIdx at_).map Prod.fst).count_eq job
    simp only [List.map_cons] at perm
    refine ⟨fun job => ?_, fun job => ?_⟩
    · rw [show sentAt b { s with
          running := s.running.eraseIdx worker, signals := s.signals ++ [last.update] } job.update =
        sentAt b s job.update from rfl, ← tally.sent job]
      simp only [jobsOut, List.count_append, perm, List.count_cons, List.count_nil,
        List.flatMap_append, List.flatMap_cons, List.flatMap_nil, ended, at_]
      omega
    · have before := tally.begun job
      simp only [List.count_append, perm, List.count_cons, List.count_nil, List.flatMap_append,
        List.flatMap_cons, List.flatMap_nil, began, ended, at_] at before ⊢
      omega
  | @commanded worker job command next at_ =>
    have same := map_fst_set (next (Access.perform command s.shared).value.1) at_
    refine ⟨fun other => ?_, fun other => ?_⟩
    · rw [show sentAt b { s with
          running := s.running.set worker (job, next (Access.perform command s.shared).value.1)
          shared := (Access.perform command s.shared).value.2 } other.update =
        sentAt b s other.update from rfl, ← tally.sent other]
      simp [jobsOut, same, ended, at_]
    · simpa [same, began, ended, at_] using tally.begun other

theorem tallied_of_run {shared : Shared σ} (run : Run b (b.start shared) moves s) :
    Accounted b s ∧ Tallied b moves s := by
  induction run with
  | refl => exact ⟨accounted_start b shared, tallied_start b shared⟩
  | step _ made ih =>
    have step := step_of_step? made
    exact ⟨ih.1.step step, ih.2.step ih.1 step⟩

/-! ### The end of a batch -/

/-- What is left of a batch, and what its run has done, when every update has finished. -/
structure Completion (b : Batch σ) (moves : List (State σ × Move)) (s : State σ) : Prop where
  -- Every sub-task of every update was begun once, and nothing else was.
  begun : ∀ job : Job, (moves.flatMap began).count job =
    if job.task < b.tasksAt job.update then 1 else 0
  returned : ∀ job : Job,
    (moves.flatMap ended).count job = if job.task < b.tasksAt job.update then 1 else 0
  stages : s.stages = b.updates.map fun _ => .finished
  quiet : s.queue = [] ∧ s.running = [] ∧ s.signals = []
  inFlight : s.inFlight = 0
  released : ∀ k, s.shared.locks.readers k = 0 ∧ s.shared.locks.writers k = 0

theorem Completion.isIdle (done : Completion b moves s) : s.shared.locks.isIdle = true :=
  LockTable.isIdle_of_count fun side k => by
    cases side with
    | read => exact (done.released k).1
    | write => exact (done.released k).2

/-- Nothing waits and nothing is in flight, so everything has finished. -/
private theorem Accounted.finished_of_closed (account : Accounted b s) (closed : s.control = .closed) :
    s.inFlight = 0 ∧ s.stages = b.updates.map fun _ => .finished := by
  have done := account.closed closed
  simp only [isDone, Bool.and_eq_true, beq_iff_eq, Bool.not_eq_true', List.contains_eq_mem,
    decide_eq_false_iff_not] at done
  obtain ⟨idle, noneWaits⟩ := done
  have noneFlies : flyingCount s = 0 := by
    rw [account.flying, idle, closed]
    rfl
  refine ⟨idle, List.ext_getElem (by simpa using account.length) fun place inside _ => ?_⟩
  have member : s.stages[place] ∈ s.stages := List.getElem_mem inside
  rw [List.getElem_map]
  cases stage : s.stages[place] with
  | waiting => exact absurd (stage ▸ member) noneWaits
  | inFlight remaining =>
    exact absurd rfl (List.countP_eq_zero.mp noneFlies _ (stage ▸ member))
  | finished => rfl

/-- What no update owes is not there. -/
private theorem Accounted.quiet_of_finished (account : Accounted b s)
    (finished : s.stages = b.updates.map fun _ => .finished) : jobsOut s = [] ∧ s.signals = [] := by
  have nothing : (jobsOut s).map Job.update ++ s.signals = [] := by
    refine List.eq_nil_iff_forall_not_mem.mpr fun place out => ?_
    obtain ⟨remaining, owed⟩ := account.inFlight_of_out out
    rw [finished, List.getElem?_map] at owed
    cases found : b.updates[place]? <;> simp [found] at owed
  simpa using nothing

/-- Every sub-task of every update is begun once and returns once, whatever the locks were, if the
frame thread has seen every update finish. -/
theorem once_of_closed {shared : Shared σ} (run : Run b (b.start shared) moves s)
    (closed : s.control = .closed) (job : Job) :
    (moves.flatMap began).count job = (if job.task < b.tasksAt job.update then 1 else 0) ∧
      (moves.flatMap ended).count job = if job.task < b.tasksAt job.update then 1 else 0 := by
  obtain ⟨account, tally⟩ := tallied_of_run run
  obtain ⟨-, finished⟩ := account.finished_of_closed closed
  obtain ⟨out, -⟩ := account.quiet_of_finished finished
  obtain ⟨-, running⟩ := List.append_eq_nil_iff.mp out
  have sent (place : Nat) : sentAt b s place = b.tasksAt place := by
    simp only [sentAt, finished, List.getElem?_map, closed, Control.unsent, Nat.sub_zero]
    cases found : b.updates[place]? with
    | none => simp [tasksAt, found]
    | some u => rfl
  have returned : (moves.flatMap ended).count job =
      if job.task < b.tasksAt job.update then 1 else 0 := by
    simpa [out, sent] using tally.sent job
  refine ⟨?_, returned⟩
  rw [tally.begun, running, returned, List.count_nil, Nat.zero_add]

theorem completion_of_closed {shared : Shared σ} (ready : b.Ready kindCount shared)
    (run : Run b (b.start shared) moves s) (closed : s.control = .closed) :
    Completion b moves s := by
  obtain ⟨account, guard⟩ := guarded_of_run ready run
  obtain ⟨idle, finished⟩ := account.finished_of_closed closed
  obtain ⟨out, signals⟩ := account.quiet_of_finished finished
  obtain ⟨queue, running⟩ := List.append_eq_nil_iff.mp out
  have unheld (side : LockSide) (k : Kind) : s.shared.locks.count side k = 0 := by
    rw [guard.held]
    refine List.countP_eq_zero.mpr fun entry member => ?_
    obtain ⟨-, stage⟩ := List.of_mem_zip member
    rw [finished] at stage
    obtain ⟨-, -, same⟩ := List.mem_map.mp stage
    simp [← same, Stage.isInFlight]
  exact {
    begun := fun job => (once_of_closed run closed job).1
    returned := fun job => (once_of_closed run closed job).2
    stages := finished
    quiet := ⟨queue, by simpa using running, signals⟩
    inFlight := idle
    released := fun k => ⟨unheld .read k, unheld .write k⟩ }

/-- In every interleaving each signal is owed when it is settled, so no count goes below zero and
nothing stops the frame thread; and when it has seen every update finish, every sub-task has run
once, nothing else has, and every lock is free. -/
theorem completion_of_run {shared : Shared σ} (ready : b.Ready kindCount shared)
    (run : Run b (b.start shared) moves s) :
    (∀ place ∈ s.signals, ∃ remaining, s.stages[place]? = some (.inFlight (remaining + 1))) ∧
      (∀ cause, s.control ≠ .stopped cause) ∧
      (s.control = .closed → Completion b moves s) := by
  obtain ⟨account, guard⟩ := guarded_of_run ready run
  refine ⟨fun place signalled => ?_, guard.unbroken, completion_of_closed ready run⟩
  exact account.inFlight_of_out (List.mem_append_right _ signalled)

/-- All three updates finish, the second after the first. -/
theorem completion_of_twoWriters : twoWriters.Ready 2 twoWritersShared ∧
    ∃ moves s, Run twoWriters (twoWriters.start twoWritersShared) moves s ∧ s.control = .closed ∧
      s.shared.memory = [("first", 1), ("first", 0), ("third", 0), ("second", 0)] ∧
      Completion twoWriters moves s := by
  have made : ∃ s, twoWriters.replay? (twoWriters.start twoWritersShared)
      [.frame, .frame, .frame, .frame, .frame, .frame, .take, .frame, .take, .frame, .work 1,
        .work 1, .frame, .frame, .work 0, .take, .work 0, .work 0, .work 0, .frame, .frame,
        .frame, .frame, .frame, .frame, .frame, .frame, .frame, .take, .work 0, .work 0, .frame,
        .frame] = some s ∧
      s.control = .closed ∧
      s.shared.memory = [("first", 1), ("first", 0), ("third", 0), ("second", 0)] :=
    ⟨_, rfl, rfl, rfl⟩
  obtain ⟨s, made, closed, memory⟩ := made
  obtain ⟨trace, -, run⟩ := run_of_replay? made
  exact ⟨twoWriters_ready, trace, s, run, closed, memory,
    (completion_of_run twoWriters_ready run).2.2 closed⟩

end EntityWorld.Batch
