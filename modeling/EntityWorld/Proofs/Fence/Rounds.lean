import EntityWorld.Proofs.Fence.BatchAccount

/-!
# Rounds are moves

`run` admits, runs one job whole and settles it, round after round. Each of its rounds is a list of
moves, and every round settles one sub-task, so there are rounds enough: what `run` answers is the end
of one of the interleavings. Main statement: `closed_of_run`.
-/
namespace EntityWorld.Batch

variable {σ : Type} {b : Batch σ} {s t u : State σ} {move : Move} {place : Nat}

/-- Some moves lead from one state to the other. -/
def Leads (b : Batch σ) (s t : State σ) : Prop := ∃ moves, Run b s moves t

theorem Leads.refl (s : State σ) : Leads b s s := ⟨[], .refl⟩

theorem Leads.trans (first : Leads b s t) (rest : Leads b t u) : Leads b s u := by
  obtain ⟨moves, run⟩ := first
  obtain ⟨more, run'⟩ := rest
  exact ⟨moves ++ more, run.trans run'⟩

theorem leads_of_step? {next : Logged (State σ)} (made : b.step? s move = some next) :
    Leads b s next.value := ⟨_, Run.refl.step made⟩

theorem Accounted.leads (account : Accounted b s) (leads : Leads b s t) : Accounted b t := by
  obtain ⟨moves, run⟩ := leads
  exact run.preserves (fun _ _ _ step account => account.step step) account

/-! ### What is left to settle -/

/-- Number of sub-tasks of an update that have not been settled. -/
def due (b : Batch σ) : Update σ × Stage → Nat
  | (u, .waiting) => b.taskCount u
  | (_, .inFlight remaining) => remaining
  | (_, .finished) => 0

def unsettled (b : Batch σ) (stages : List Stage) : Nat := total ((b.updates.zip stages).map b.due)

theorem unsettled_set {stages : List Stage} {u : Update σ} {old : Stage} (new : Stage)
    (found : b.updates[place]? = some u) (stage : stages[place]? = some old) :
    b.unsettled (stages.set place new) + b.due (u, old) = b.unsettled stages + b.due (u, new) := by
  have here : (b.updates.zip stages)[place]? = some (u, old) := by
    rw [List.getElem?_zip_eq_some]
    exact ⟨found, stage⟩
  rw [unsettled, zip_set_right new found, List.map_set]
  exact total_set _ (by rw [List.getElem?_map, here]; rfl)

theorem due_le_unsettled {stages : List Stage} {u : Update σ} {stage : Stage}
    (found : b.updates[place]? = some u) (here : stages[place]? = some stage) :
    b.due (u, stage) ≤ b.unsettled stages := by
  refine le_total (List.mem_map_of_mem (List.mem_of_getElem? (i := place) ?_))
  rw [List.getElem?_zip_eq_some]
  exact ⟨found, here⟩

theorem taskCount_pos (b : Batch σ) (u : Update σ) : 0 < b.taskCount u := by
  unfold taskCount UpdateMode.taskCount
  split
  · exact Nat.lt_of_lt_of_le Nat.one_pos (Nat.le_max_right _ _)
  · exact Nat.one_pos

theorem unsettled_start (b : Batch σ) (shared : Shared σ) :
    b.unsettled (b.start shared).stages = b.totalJobs := by
  simp only [unsettled, start, totalJobs]
  refine congrArg total ?_
  induction b.updates with
  | nil => rfl
  | cons u rest ih =>
    simp only [List.map_cons, List.zip_cons_cons, ih]
    rfl

/-- What holds between two rounds. -/
structure Quiet (b : Batch σ) (s : State σ) : Prop where
  account : Accounted b s
  running : s.running = []
  signals : s.signals = []
  -- An update whose sub-tasks are all settled is not in flight any more.
  owing : Stage.inFlight 0 ∉ s.stages

theorem quiet_start (b : Batch σ) (shared : Shared σ) : Quiet b (b.start shared) where
  account := accounted_start b shared
  running := rfl
  signals := rfl
  owing := by simp [start]

/-- Where nothing is left to settle, every update has finished. -/
theorem Quiet.isDone (quiet : Quiet b s) (at_ : s.control.launching = 0)
    (none : b.unsettled s.stages = 0) :
    isDone s = true := by
  have settled {place : Nat} {stage : Stage} (here : s.stages[place]? = some stage) :
      stage = .finished := by
    obtain ⟨u, found⟩ := quiet.account.update_of_stage here
    have bound := due_le_unsettled found here
    rw [none] at bound
    match stage with
    | .finished => rfl
    | .waiting => exact absurd bound (Nat.not_le_of_lt (taskCount_pos b u))
    | .inFlight 0 => exact absurd (List.mem_of_getElem? here) quiet.owing
    | .inFlight (remaining + 1) => exact absurd bound (Nat.not_succ_le_zero _)
  have finished : ∀ stage ∈ s.stages, stage = .finished := by
    intro stage member
    obtain ⟨place, here⟩ := List.mem_iff_getElem?.mp member
    exact settled here
  have noneFlies : flyingCount s = 0 := by
    refine List.countP_eq_zero.mpr fun stage member => ?_
    rw [finished stage member]
    exact Bool.false_ne_true
  have idle := quiet.account.flying
  rw [noneFlies, at_] at idle
  have noneWaits : Stage.waiting ∉ s.stages := fun member => by cases finished _ member
  have zero : s.inFlight = 0 := by omega
  simp [Batch.isDone, zero, noneWaits]

/-- A round that begins has something left to settle. -/
theorem Quiet.unsettled_pos (quiet : Quiet b s) (at_ : s.control.launching = 0)
    (busy : Batch.isDone s = false) : 0 < b.unsettled s.stages := by
  refine Nat.pos_of_ne_zero fun none => ?_
  rw [quiet.isDone at_ none] at busy
  cases busy

/-! ### One pass over the waiting updates -/

private theorem leads_send {task : Nat} (at_ : s.control = .sending place task) :
    Leads b s (b.send place task s) := by
  have made : b.step? s .frame = some (pure (b.send place task s)) := by
    simp only [step?, frameStep?, at_]
  exact leads_of_step? made

/-- The jobs of an admitted update are sent one after another. -/
private theorem leads_sent (left : Nat) {task : Nat} (at_ : s.control = .sending place task)
    (enough : task + left = b.tasksAt place) :
    Leads b s
      { s with
        control := .admitting (place + 1)
        inFlight := s.inFlight + 1
        queue := s.queue ++ (List.range' task left).map (Job.mk place) } := by
  have first := leads_send (b := b) at_
  unfold send at first
  induction left generalizing s task with
  | zero =>
    rw [if_neg (by omega)] at first
    simpa using first
  | succ left ih =>
    rw [if_pos (by omega)] at first
    have rest := ih
      (s := { s with control := .sending place (task + 1), queue := s.queue ++ [⟨place, task⟩] })
      rfl (by omega) (leads_send rfl)
    -- What the first move puts in the queue is the head of the jobs sent in all.
    refine first.trans ?_
    simpa [List.range'_succ] using rest

theorem leads_sendAll (at_ : s.control = .sending place 0) : Leads b s (b.sendAll s) := by
  simp only [sendAll, at_, jobsOf, List.range_eq_range']
  exact leads_sent _ at_ (Nat.zero_add _)

/-- What admitting does not change. -/
structure Pass (b : Batch σ) (s t : State σ) : Prop where
  leads : Leads b s t
  running : t.running = s.running
  signals : t.signals = s.signals
  unsettled : b.unsettled t.stages = b.unsettled s.stages
  owing : Stage.inFlight 0 ∉ s.stages → Stage.inFlight 0 ∉ t.stages

theorem Pass.refl (s : State σ) : Pass b s s := ⟨.refl s, rfl, rfl, rfl, id⟩

theorem Pass.trans (first : Pass b s t) (rest : Pass b t u) : Pass b s u where
  leads := first.leads.trans rest.leads
  running := rest.running.trans first.running
  signals := rest.signals.trans first.signals
  unsettled := rest.unsettled.trans first.unsettled
  owing := fun owing => rest.owing (first.owing owing)

/-- Trying one update stops the frame thread, or leads to the next one. -/
private theorem pass_consider (at_ : s.control = .admitting place) (inside : place < b.updates.length) :
    ((∃ cause, (b.consider place s).value.control = .stopped cause) ∧
      Pass b s (b.consider place s).value) ∨
      ((∀ cause, (b.consider place s).value.control ≠ .stopped cause) ∧
        (b.sendAll (b.consider place s).value).control = .admitting (place + 1) ∧
        Pass b s (b.sendAll (b.consider place s).value)) := by
  have made : b.step? s .frame = some (b.consider place s) := by
    simp only [step?, frameStep?, at_, if_pos inside]
  have leads := leads_of_step? made
  have step := step_of_step? made
  generalize (b.consider place s).value = t at leads step ⊢
  cases step with
  | @passed place' u at_' _ _ | @refused place' u locks at_' _ _ _ _ =>
    obtain rfl : place = place' := Control.admitting.inj (at_.symm.trans at_')
    exact .inr ⟨by simp, rfl, leads, rfl, rfl, rfl, id⟩
  | @admitted place' u locks at_' found waiting room taken =>
    obtain rfl : place = place' := Control.admitting.inj (at_.symm.trans at_')
    have sent := leads.trans (leads_sendAll (b := b) rfl)
    refine .inr ⟨by simp, rfl, sent, rfl, rfl, ?_, fun owing member => ?_⟩
    · -- A waiting update owes all its sub-tasks, and so does one that was just admitted.
      have same := unsettled_set (.inFlight (b.tasksAt place)) found waiting
      have tasks : b.due (u, .inFlight (b.tasksAt place)) = b.due (u, .waiting) := by
        simp [due, tasksAt, found]
      rw [tasks] at same
      exact Nat.add_right_cancel same
    · rcases List.mem_or_eq_of_mem_set member with old | new
      · exact owing old
      · have some : 0 < b.tasksAt place := by
          simpa [tasksAt, found] using taskCount_pos b u
        rw [← Stage.inFlight.inj new] at some
        exact Nat.lt_irrefl 0 some
  | misused => exact .inl ⟨⟨_, rfl⟩, leads, rfl, rfl, rfl, id⟩
  | scanned at_' past =>
    obtain rfl := Control.admitting.inj (at_.symm.trans at_')
    exact absurd inside (Nat.not_lt_of_le past)
  | sent at_' | launched at_' | drained at_' =>
    rw [at_] at at_'
    cases at_'
  | counted at_' | finished at_' | unheld at_' | unowed at_' =>
    rw [at_] at at_'
    rcases at_' with at_' | at_' <;> cases at_'

theorem pass_admitFrom (left : Nat) (at_ : s.control = .admitting place)
    (all : place + left = b.updates.length) :
    Pass b s (b.admitFrom (List.range' place left) s).value ∧
      ((∃ cause, (b.admitFrom (List.range' place left) s).value.control = .stopped cause) ∨
        (b.admitFrom (List.range' place left) s).value.control = .admitting b.updates.length) := by
  induction left generalizing s place with
  | zero => exact ⟨.refl s, .inr (at_.trans (congrArg _ all))⟩
  | succ left ih =>
    simp only [List.range'_succ, admitFrom, Logged.value_bind]
    rcases pass_consider (b := b) at_ (by omega) with ⟨⟨cause, stopped⟩, pass⟩ | ⟨goes, next, pass⟩
    · simp only [stopped, Logged.value_pure]
      exact ⟨pass, .inl ⟨cause, rfl⟩⟩
    · obtain ⟨rest, result⟩ := ih next (by omega)
      split
      next cause stopped => exact absurd stopped (goes cause)
      next => exact ⟨pass.trans rest, result⟩

/-! ### One round -/

theorem Quiet.pass (quiet : Quiet b s) (pass : Pass b s t) : Quiet b t where
  account := quiet.account.leads pass.leads
  running := pass.running.trans quiet.running
  signals := pass.signals.trans quiet.signals
  owing := pass.owing quiet.owing

/-- A worker that is alone runs its job to the end. -/
private theorem leads_work (job : Job) (program : Program (Access.interface σ) Unit)
    (alone : s.running = [(job, program)]) :
    Leads b s
      { s with
        running := []
        signals := s.signals ++ [job.update]
        shared := (program.run Access.perform s.shared).value.2 } := by
  induction program generalizing s with
  | done =>
    have made : b.step? s (.work 0) = some (pure
        { s with running := [], signals := s.signals ++ [job.update] }) := by
      simp [step?, workStep?, alone]
    exact leads_of_step? made
  | call command next ih =>
    have made : b.step? s (.work 0) = some (pure
        { s with
          running := [(job, next (Access.perform command s.shared).value.1)]
          shared := (Access.perform command s.shared).value.2 }) := by
      simp [step?, workStep?, alone]
    exact (leads_of_step? made).trans (ih _ rfl)

/-- After a pass the first job of the queue is taken, run and signalled. -/
private theorem leads_signalled {job : Job} {queue : List Job} (quiet : Quiet b s)
    (at_ : s.control = .admitting b.updates.length) (queued : s.queue = job :: queue) :
    Leads b s
      { b.finishJob job { s with queue } with control := .receiving, signals := [job.update] } := by
  -- The job belongs to an update in flight, so there is a worker for it.
  have out : job ∈ jobsOut s := by simp [jobsOut, queued]
  obtain ⟨remaining, owed⟩ :=
    quiet.account.inFlight_of_out (List.mem_append_left _ (List.mem_map_of_mem out))
  have flies : 0 < flyingCount s :=
    List.countP_pos_iff.mpr ⟨_, List.mem_of_getElem? owed, rfl⟩
  have flying := quiet.account.flying
  have room := quiet.account.room
  rw [at_, Control.launching, Nat.add_zero] at flying
  have scanned : b.step? s .frame = some (pure { s with control := .receiving }) := by
    simp only [step?, frameStep?, at_, if_neg (Nat.lt_irrefl _), if_neg (show s.inFlight ≠ 0 by omega)]
  have took : b.step? { s with control := .receiving } .take = some (pure
      { s with control := .receiving, queue, running := [(job, b.program job)] }) := by
    have idle : 0 < b.workers := by omega
    simp [step?, takeStep?, queued, quiet.running, idle]
  have worked := leads_work (b := b) (s := { s with
    control := .receiving, queue, running := [(job, b.program job)] }) job (b.program job) rfl
  have done := ((leads_of_step? scanned).trans (leads_of_step? took)).trans worked
  simpa [finishJob, quiet.running, quiet.signals] using done

/-- A round stops the frame thread or settles one sub-task. -/
theorem round_spec {job : Job} {queue : List Job} (quiet : Quiet b s)
    (at_ : s.control = .admitting b.updates.length) (queued : s.queue = job :: queue)
    (settled : (b.settle job.update
      { b.finishJob job { s with queue } with control := .draining }).value = t) :
    Leads b s t ∧ ((∃ cause, t.control = .stopped cause) ∨
      (t.control = .draining ∧ Quiet b t ∧ b.unsettled t.stages + 1 = b.unsettled s.stages)) := by
  have signalled := leads_signalled quiet at_ queued
  have made : b.step? { b.finishJob job { s with queue } with
      control := .receiving, signals := [job.update] } .frame =
      some (b.settle job.update { b.finishJob job { s with queue } with control := .draining }) := by
    have none : (b.finishJob job { s with queue }).signals = [] := quiet.signals
    simp only [step?, frameStep?, ← none]
  have step := step_of_step? made
  have leads := signalled.trans (leads_of_step? made)
  rw [settled] at step leads
  have account := quiet.account.leads leads
  refine ⟨leads, ?_⟩
  cases step with
  | @counted place remaining signals at_' signalled owed more =>
    obtain ⟨rfl, rfl⟩ := List.cons.inj signalled
    obtain ⟨u, found⟩ := quiet.account.update_of_stage owed
    have less := unsettled_set (.inFlight remaining) found owed
    refine .inr ⟨rfl, ⟨account, quiet.running, rfl, fun member => ?_⟩, ?_⟩
    · rcases List.mem_or_eq_of_mem_set member with old | new
      · exact quiet.owing old
      · cases new
        exact Nat.lt_irrefl 0 more
    · simp only [due, finishJob] at less ⊢
      omega
  | @finished place u signals locks at_' signalled found owed given =>
    obtain ⟨rfl, rfl⟩ := List.cons.inj signalled
    have less := unsettled_set .finished found owed
    refine .inr ⟨rfl, ⟨account, quiet.running, rfl, fun member => ?_⟩, ?_⟩
    · rcases List.mem_or_eq_of_mem_set member with old | new
      · exact quiet.owing old
      · cases new
    · simp only [due, finishJob] at less ⊢
      omega
  | unheld | unowed => exact .inl ⟨_, rfl⟩
  | passed at_' | refused at_' | admitted at_' | misused at_' | scanned at_' | sent at_' | launched at_'
  | drained at_' => cases at_'

/-! ### All rounds -/

theorem control_runOut (s : State σ) : (b.runOut s).control = s.control := by
  have kept (jobs : List Job) (s : State σ) :
      (jobs.foldl (fun s job => b.finishJob job s) s).control = s.control := by
    induction jobs generalizing s with
    | nil => rfl
    | cons job rest ih => exact ih (b.finishJob job s)
  exact kept s.queue s

/-- Once the signal is settled the frame thread goes back to the waiting updates, or is done. -/
private theorem leads_drained (quiet : Quiet b s) (draining : s.control = .draining) :
    Leads b s { s with control := afterSignals s } ∧
      (afterSignals s = .closed ∨
        afterSignals s = .admitting 0 ∧ isDone s = false ∧
          Quiet b { s with control := .admitting 0 }) := by
  have made : b.step? s .frame = some (pure { s with control := afterSignals s }) := by
    simp only [step?, frameStep?, draining, quiet.signals]
  have leads := leads_of_step? made
  refine ⟨leads, ?_⟩
  cases done : isDone s with
  | true => exact .inl (if_pos done)
  | false =>
    have again : afterSignals s = .admitting 0 := if_neg (by rw [done]; exact Bool.false_ne_true)
    have account := quiet.account.leads leads
    rw [again] at account
    exact .inr ⟨again, rfl, ⟨account, quiet.running, quiet.signals, quiet.owing⟩⟩

/-- Why the rounds would end too early: a move has stopped the frame thread, or a pass has left nothing to
wait for. -/
def Stuck (b : Batch σ) (s : State σ) : Prop :=
  (∃ cause, s.control = .stopped cause) ∨
    s.control = .admitting b.updates.length ∧ Quiet b s ∧ s.queue = [] ∧ 0 < b.unsettled s.stages

/-- As many rounds as sub-tasks are unsettled are enough for the frame thread to see every update
finish, if nothing stops it. -/
theorem rounds_spec (fuel : Nat) (quiet : Quiet b s) (at_ : s.control = .admitting 0)
    (busy : isDone s = false) (enough : b.unsettled s.stages ≤ fuel) :
    (∃ cause t, (b.rounds fuel s).value.control = .stopped cause ∧ Leads b s t ∧ Stuck b t) ∨
      ((b.rounds fuel s).value.control = .closed ∧ Leads b s (b.rounds fuel s).value) := by
  have some_ := quiet.unsettled_pos (by rw [at_]; rfl) busy
  induction fuel generalizing s with
  | zero => exact absurd enough (Nat.not_le_of_lt some_)
  | succ fuel ih =>
    obtain ⟨pass, result⟩ := pass_admitFrom b.updates.length at_ (Nat.zero_add _)
    rw [← List.range_eq_range'] at pass result
    simp only [rounds, Logged.value_bind]
    generalize (b.admitFrom (List.range b.updates.length) s).value = s₁ at pass result ⊢
    split
    next cause stopped =>
      exact .inl ⟨cause, s₁, by rw [Logged.value_pure, control_runOut, stopped], pass.leads,
        .inl ⟨cause, stopped⟩⟩
    next empty goes =>
      refine .inl ⟨_, s₁, rfl, pass.leads, .inr ⟨?_, quiet.pass pass, empty, ?_⟩⟩
      · rcases result with ⟨cause, stopped⟩ | scanned
        · exact absurd stopped (goes cause)
        · exact scanned
      · rw [pass.unsettled]
        exact some_
    next job queue queued goes =>
      rcases result with ⟨cause, stopped⟩ | scanned
      · exact absurd stopped (goes cause)
      · simp only [Logged.value_bind]
        generalize settled : (b.settle job.update
          { b.finishJob job { s₁ with queue } with control := .draining }).value = t
        obtain ⟨leads, outcome⟩ := round_spec (quiet.pass pass) scanned queued settled
        rcases outcome with ⟨cause, stopped⟩ | ⟨draining, quiet', less⟩
        · simp only [stopped]
          exact .inl ⟨cause, t, by rw [Logged.value_pure, control_runOut, stopped],
            pass.leads.trans leads, .inl ⟨cause, stopped⟩⟩
        · simp only [draining]
          obtain ⟨drained, next⟩ := leads_drained quiet' draining
          have leads' := pass.leads.trans (leads.trans drained)
          rcases next with closed | ⟨again, busy', ready⟩
          · simp only [closed]
            rw [closed] at leads'
            exact .inr ⟨rfl, leads'⟩
          · simp only [again]
            rw [again] at leads'
            -- The round settled one sub-task, so the rounds that are left are still enough.
            have fewer : b.unsettled t.stages ≤ fuel := by
              rw [pass.unsettled] at less
              omega
            rcases ih ready rfl busy' fewer (ready.unsettled_pos rfl busy') with
              ⟨cause, u, stopped, rest, stuck⟩ | ⟨closed, rest⟩
            · exact .inl ⟨cause, u, stopped, leads'.trans rest, stuck⟩
            · exact .inr ⟨closed, leads'.trans rest⟩

/-- There are as many rounds as sub-tasks, so they are enough. -/
theorem rounds_start (b : Batch σ) (shared : Shared σ) (some_ : ¬ b.updates.isEmpty = true) :
    (∃ cause t, (b.rounds b.totalJobs (b.start shared)).value.control = .stopped cause ∧
        Leads b (b.start shared) t ∧ Stuck b t) ∨
      ((b.rounds b.totalJobs (b.start shared)).value.control = .closed ∧
        Leads b (b.start shared) (b.rounds b.totalJobs (b.start shared)).value) := by
  refine rounds_spec b.totalJobs (quiet_start b shared) rfl ?_ (Nat.le_of_eq (unsettled_start b shared))
  cases updates : b.updates with
  | nil => exact absurd (by rw [updates]; rfl) some_
  | cons u rest => simp [isDone, start, updates]

/-- What a batch answers is the end of one of its runs. -/
theorem closed_of_run {shared shared' : Shared σ} {retries : Nat}
    (ran : (b.run shared).value = (.ok retries, shared')) :
    ∃ moves t, Run b (b.start shared) moves t ∧ t.control = .closed ∧ t.retries = retries ∧
      t.shared = shared' := by
  unfold run at ran
  split at ran
  next empty =>
    cases ran
    have none : b.updates = [] := List.isEmpty_iff.mp empty
    have made : b.step? (b.start shared) .frame =
        some (pure { b.start shared with control := .closed }) := by
      simp [step?, frameStep?, start, none, afterSignals, isDone]
    exact ⟨_, _, Run.refl.step made, rfl, rfl, rfl⟩
  next some_ =>
    split at ran
    next => cases ran
    next jobs counted =>
      obtain rfl : jobs = b.totalJobs := eq_of_word counted
      simp only [Logged.value_bind] at ran
      rcases b.rounds_start shared some_ with ⟨cause, t, stopped, -⟩ | ⟨closed, moves, run⟩
      · simp only [stopped, Logged.value_pure] at ran
        cases ran
      · simp only [closed, Logged.value_pure] at ran
        cases ran
        exact ⟨moves, _, run, closed, rfl, rfl⟩

end EntityWorld.Batch
