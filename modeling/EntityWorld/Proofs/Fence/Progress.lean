import EntityWorld.Proofs.Fence.Exclusion
import EntityWorld.Proofs.Fence.Rounds
import Mathlib.Logic.Hydra

/-!
# Progress of a batch

While nothing is in flight the lock table is idle, and a validated update is never in its own way. So a
scan of the waiting updates that finds nothing in flight admits the first of them, and the frame thread
never goes round without a signal to wait for. Every signal that is settled leaves one sub-task less,
and between two signals everybody runs out of moves. Main statement: `progress_of_run`.
-/
namespace EntityWorld.Batch

variable {σ : Type} {b : Batch σ} {s t : State σ} {move : Move} {kindCount : Nat}
  {moves : List (State σ × Move)}

/-! ### A scan is not in vain -/

/-- What every move keeps: where nothing is in flight nobody has been turned away. -/
structure Lively (b : Batch σ) (s : State σ) : Prop where
  -- An update in flight owes something.
  owing : Stage.inFlight 0 ∉ s.stages
  tried : ∀ place, s.control = .admitting place → s.inFlight = 0 →
    ∀ earlier < place, s.stages[earlier]? ≠ some .waiting
  awaited : s.control = .receiving → 0 < s.inFlight

theorem lively_start (b : Batch σ) (shared : Shared σ) : Lively b (b.start shared) where
  owing := by simp [start]
  tried := by
    rintro place at_ - earlier before
    cases at_
    exact absurd before (Nat.not_lt_zero earlier)
  awaited := nofun

theorem afterSignals_eq (s : State σ) :
    afterSignals s = .closed ∧ isDone s = true ∨ afterSignals s = .admitting 0 := by
  unfold afterSignals
  split
  next done => exact .inl ⟨rfl, done⟩
  next => exact .inr rfl

/-- Nobody holds a lock where nothing is in flight. -/
theorem Guarded.unheld (guard : Guarded b kindCount s) (none : flyingCount s = 0) (side : LockSide)
    (k : Kind) : s.shared.locks.count side k = 0 := by
  rw [guard.held]
  refine List.countP_eq_zero.mpr fun entry member => ?_
  have grounded := List.countP_eq_zero.mp none entry.2 (List.of_mem_zip member).2
  simp [grounded]

theorem Accounted.flyingCount_eq (account : Accounted b s) (idle : s.control.Idle) :
    flyingCount s = s.inFlight := by
  rw [account.flying, idle.launching, Nat.add_zero]

/-- Where nothing is in flight every update gets its locks. -/
theorem Guarded.takes {shared : Shared σ} (ready : b.Ready kindCount shared)
    (guard : Guarded b kindCount s) (none : flyingCount s = 0) {place : Nat} {u : Update σ}
    (found : b.updates[place]? = some u) :
    (u.takeLocks s.shared.locks).value = (.ok true, Update.locked s.shared.locks u) := by
  have valid := Update.validate_eq_ok_iff.mp (ready.valid u (List.mem_of_getElem? found))
  have admits : Update.Admits s.shared.locks u :=
    ⟨fun k _ => ⟨guard.unheld none .read k, guard.unheld none .write k⟩,
      fun k _ => guard.unheld none .write k⟩
  rw [Update.takeLocks_value valid guard.slots, if_pos admits]

/-- Where nothing waits and nothing is in flight every update has finished. -/
theorem finished_of_grounded (account : Accounted b s) (none : flyingCount s = 0)
    (noneWaits : ∀ place < b.updates.length, s.stages[place]? ≠ some .waiting) :
    ∀ stage ∈ s.stages, stage = .finished := by
  intro stage member
  obtain ⟨place, here⟩ := List.mem_iff_getElem?.mp member
  obtain ⟨inside, -⟩ := List.getElem?_eq_some_iff.mp here
  rw [account.length] at inside
  cases stage with
  | waiting => exact absurd here (noneWaits place inside)
  | inFlight remaining => exact absurd rfl (List.countP_eq_zero.mp none _ member)
  | finished => rfl

/-- A move that leaves the stages alone and the frame thread neither scanning nor waiting. -/
private theorem Lively.turned (lively : Lively b s) (stages : t.stages = s.stages)
    (scans : ∀ place, t.control ≠ .admitting place) (waits : t.control ≠ .receiving) : Lively b t where
  owing := by rw [stages]; exact lively.owing
  tried := fun place at_ => absurd at_ (scans place)
  awaited := fun at_ => absurd at_ waits

/-- After the signals the frame thread begins a new scan, or is done. -/
private theorem Lively.afterSignals (lively : Lively b s) :
    Lively b { s with control := afterSignals s } := by
  rcases afterSignals_eq s with ⟨closed, -⟩ | again
  · exact lively.turned rfl (by simp [closed]) (by simp [closed])
  · refine ⟨lively.owing, fun place at_ _ earlier before => ?_, by simp [again]⟩
    obtain rfl : 0 = place := by simpa [again] using at_
    exact absurd before (Nat.not_lt_zero earlier)

theorem Lively.step {shared : Shared σ} (ready : b.Ready kindCount shared) (staffed : 0 < b.workers)
    (account : Accounted b s) (guard : Guarded b kindCount s) (lively : Lively b s)
    (step : Step b s move t) : Lively b t := by
  have guard' := guard.step ready account step
  cases step with
  | @passed place u at_ found reason =>
    refine ⟨lively.owing, ?_, by simp⟩
    rintro next same idle earlier before waiting
    cases same
    rcases Nat.lt_or_eq_of_le (Nat.le_of_lt_succ before) with old | rfl
    · exact lively.tried place at_ idle earlier old waiting
    · -- There is a worker left, so a waiting update would have been tried.
      have full := reason waiting
      simp only at idle
      omega
  | @refused place u locks at_ found waiting room taken =>
    refine ⟨lively.owing, ?_, by simp⟩
    intro next same idle
    -- Nothing is in flight, so every lock is free and the update would have been admitted.
    have none : flyingCount s = 0 := (account.flyingCount_eq (idle_of_admitting at_)).trans idle
    rw [guard.takes ready none found] at taken
    cases taken
  | @admitted place u locks at_ found waiting room taken =>
    refine ⟨fun member => ?_, by simp, by simp⟩
    rcases List.mem_or_eq_of_mem_set member with old | new
    · exact lively.owing old
    · have some : 0 < b.tasksAt place := by simpa [tasksAt, found] using taskCount_pos b u
      rw [← Stage.inFlight.inj new] at some
      exact Nat.lt_irrefl 0 some
  | misused => exact lively.turned rfl (by simp) (by simp)
  | @scanned place at_ past =>
    by_cases idle : s.inFlight = 0
    · simp only [if_pos idle]
      exact lively.afterSignals
    · simp only [if_neg idle]
      exact ⟨lively.owing, by simp, fun _ => Nat.pos_of_ne_zero idle⟩
  | sent => exact lively.turned rfl (by simp) (by simp)
  | launched => exact ⟨lively.owing, fun _ _ idle => absurd idle (Nat.succ_ne_zero _), by simp⟩
  | @counted place remaining signals at_ signalled owed more =>
    refine ⟨fun member => ?_, by simp, by simp⟩
    rcases List.mem_or_eq_of_mem_set member with old | new
    · exact lively.owing old
    · cases new
      exact Nat.lt_irrefl 0 more
  | finished =>
    refine ⟨fun member => ?_, by simp, by simp⟩
    rcases List.mem_or_eq_of_mem_set member with old | new
    · exact lively.owing old
    · cases new
  | unheld | unowed => exact absurd rfl (guard'.unbroken _)
  | drained => exact lively.afterSignals
  | took | signalled | commanded => exact ⟨lively.owing, lively.tried, lively.awaited⟩

/-- What holds in every state of a run. -/
structure Sane (b : Batch σ) (kindCount : Nat) (s : State σ) : Prop where
  account : Accounted b s
  guard : Guarded b kindCount s
  lively : Lively b s

theorem Sane.step {shared : Shared σ} (ready : b.Ready kindCount shared) (staffed : 0 < b.workers)
    (sane : Sane b kindCount s) (step : Step b s move t) : Sane b kindCount t where
  account := sane.account.step step
  guard := sane.guard.step ready sane.account step
  lively := sane.lively.step ready staffed sane.account sane.guard step

theorem sane_of_run {shared : Shared σ} (ready : b.Ready kindCount shared) (staffed : 0 < b.workers)
    (run : Run b (b.start shared) moves s) : Sane b kindCount s :=
  run.preserves (P := Sane b kindCount) (fun _ _ _ step sane => sane.step ready staffed step)
    ⟨accounted_start b shared, guarded_start ready, lively_start b shared⟩

/-- A scan that leaves an update unfinished leaves one in flight. -/
theorem Sane.flying_of_scanned (sane : Sane b kindCount s) {place : Nat}
    (at_ : s.control = .admitting place) (past : b.updates.length ≤ place)
    (unfinished : ∃ stage ∈ s.stages, stage ≠ .finished) : 0 < s.inFlight := by
  refine Nat.pos_of_ne_zero fun idle => ?_
  obtain ⟨stage, member, different⟩ := unfinished
  have none := (sane.account.flyingCount_eq (idle_of_admitting at_)).trans idle
  refine different (finished_of_grounded sane.account none (fun earlier inside => ?_) stage member)
  exact sane.lively.tried place at_ idle earlier (Nat.lt_of_lt_of_le inside past)

/-! ### Somebody can move -/

/-- An update in flight owes a sub-task, and that is queued, running or signalled. -/
theorem Sane.out_of_flying (sane : Sane b kindCount s) (idle : s.control.Idle)
    (flying : 0 < s.inFlight) : s.signals ≠ [] ∨ s.running ≠ [] ∨ s.queue ≠ [] := by
  rw [← sane.account.flyingCount_eq idle] at flying
  obtain ⟨stage, member, flies⟩ := List.countP_pos_iff.mp flying
  obtain ⟨place, here⟩ := List.mem_iff_getElem?.mp member
  have balance := sane.account.balance place
  rw [idle.unsent, owedAt_of_some here] at balance
  by_contra nothing
  simp only [not_or, ne_eq, not_not] at nothing
  obtain ⟨signals, running, queue⟩ := nothing
  match stage with
  | .inFlight 0 => exact sane.lively.owing member
  | .inFlight (remaining + 1) => simp [jobsOut, signals, running, queue, Stage.owed] at balance
  | .waiting | .finished => cases flies

/-- While the frame thread waits for a signal there is one, or a job is running, or a worker can take
one. -/
theorem Sane.waiting (sane : Sane b kindCount s) (staffed : 0 < b.workers)
    (at_ : s.control = .receiving) :
    s.signals ≠ [] ∨ s.running ≠ [] ∨ s.queue ≠ [] ∧ s.running.length < b.workers := by
  rcases sane.out_of_flying (idle_of_settling (.inl at_)) (sane.lively.awaited at_) with
    signalled | running | queued
  · exact .inl signalled
  · exact .inr (.inl running)
  · by_cases none : s.running = []
    · exact .inr (.inr ⟨queued, by simpa [none] using staffed⟩)
    · exact .inr (.inl none)

theorem isSome_workStep? {worker : Nat} (working : worker < s.running.length) :
    (workStep? worker s).isSome := by
  unfold workStep?
  rw [List.getElem?_eq_getElem working]
  split
  next absent => cases absent
  next => rfl
  next => rfl

theorem Sane.enabled (sane : Sane b kindCount s) (staffed : 0 < b.workers)
    (open_ : s.control ≠ .closed) : ∃ move, (b.step? s move).isSome := by
  cases at_ : s.control with
  | admitting place =>
    refine ⟨.frame, ?_⟩
    by_cases inside : place < b.updates.length
    · simp only [step?, frameStep?, at_, if_pos inside, Option.isSome_some]
    · simp only [step?, frameStep?, at_, if_neg inside, Option.isSome_some]
  | sending place task => exact ⟨.frame, by simp only [step?, frameStep?, at_, Option.isSome_some]⟩
  | draining =>
    refine ⟨.frame, ?_⟩
    cases signalled : s.signals <;>
      simp only [step?, frameStep?, at_, signalled, Option.isSome_some]
  | closed => exact absurd at_ open_
  | stopped cause => exact absurd at_ (sane.guard.unbroken cause)
  | receiving =>
    rcases sane.waiting staffed at_ with signalled | running | ⟨queued, idle⟩
    · obtain ⟨place, rest, signals⟩ := List.exists_cons_of_ne_nil signalled
      exact ⟨.frame, by simp only [step?, frameStep?, at_, signals, Option.isSome_some]⟩
    · refine ⟨.work 0, ?_⟩
      rw [step?, Option.isSome_map]
      exact isSome_workStep? (List.length_pos_of_ne_nil running)
    · obtain ⟨job, rest, queue⟩ := List.exists_cons_of_ne_nil queued
      refine ⟨.take, ?_⟩
      simp only [step?, takeStep?, queue, if_pos idle, Option.map_some, Option.isSome_some]

theorem exists_unfinished (some_ : 0 < b.unsettled s.stages) :
    ∃ stage ∈ s.stages, stage ≠ .finished := by
  by_contra none
  simp only [not_exists, not_and, ne_eq, not_not] at none
  refine Nat.ne_of_gt some_ ?_
  rw [unsettled, List.map_congr_left (g := fun _ => 0)]
  · induction b.updates.zip s.stages with
    | nil => rfl
    | cons entry rest ih => simpa [total] using ih
  · rintro ⟨u, stage⟩ member
    obtain rfl := none stage (List.of_mem_zip member).2
    rfl

/-- The rounds of `run` never stall. -/
theorem Sane.not_stuck (sane : Sane b kindCount s) : ¬ Stuck b s := by
  rintro (⟨cause, stopped⟩ | ⟨scanned, quiet, empty, some_⟩)
  · exact sane.guard.unbroken cause stopped
  · have flying := sane.flying_of_scanned scanned (Nat.le_refl _) (exists_unfinished some_)
    rcases sane.out_of_flying (idle_of_admitting scanned) flying with signalled | running | queued
    · exact signalled quiet.signals
    · exact running quiet.running
    · exact queued empty

/-! ### Signals are settled one by one -/

/-- The signal that is settled with a move. -/
def received : State σ × Move → List Nat
  | (s, .frame) =>
    match s.control with
    | .receiving | .draining => s.signals.take 1
    | _ => []
  | (_, .take) | (_, .work _) => []

theorem received_of_settling {place : Nat} {signals : List Nat}
    (at_ : s.control = .receiving ∨ s.control = .draining)
    (signalled : s.signals = place :: signals) : received (s, .frame) = [place] := by
  rcases at_ with at_ | at_ <;> simp only [received, at_, signalled, List.take_succ_cons, List.take_zero]

/-- Each signal that is settled leaves one sub-task less, and nothing else changes their number. -/
theorem Sane.settles {shared : Shared σ} (ready : b.Ready kindCount shared)
    (sane : Sane b kindCount s) (step : Step b s move t) :
    b.unsettled t.stages + (received (s, move)).length = b.unsettled s.stages := by
  have guard' := sane.guard.step ready sane.account step
  cases step with
  | passed at_ | refused at_ | misused at_ | scanned at_ | sent at_ | launched at_ =>
    simp only [received, at_, List.length_nil, Nat.add_zero]
  | @admitted place u locks at_ found waiting room taken =>
    -- A waiting update owes all its sub-tasks, and so does one that was just admitted.
    have same := unsettled_set (.inFlight (b.tasksAt place)) found waiting
    have tasks : b.due (u, .inFlight (b.tasksAt place)) = b.due (u, .waiting) := by
      simp [due, tasksAt, found]
    rw [tasks] at same
    simp only [received, at_, List.length_nil, Nat.add_zero]
    exact Nat.add_right_cancel same
  | @counted place remaining signals at_ signalled owed more =>
    obtain ⟨u, found⟩ := sane.account.update_of_stage owed
    have less := unsettled_set (.inFlight remaining) found owed
    rw [received_of_settling at_ signalled]
    simp only [due, List.length_singleton] at less ⊢
    omega
  | @finished place u signals locks at_ signalled found owed given =>
    have less := unsettled_set .finished found owed
    rw [received_of_settling at_ signalled]
    simp only [due, List.length_singleton] at less ⊢
    omega
  | unheld | unowed => exact absurd rfl (guard'.unbroken _)
  | drained at_ empty => simp only [received, at_, empty, List.take_nil, List.length_nil, Nat.add_zero]
  | took | signalled | commanded => rfl

theorem settled_of_run {shared : Shared σ} (ready : b.Ready kindCount shared) (staffed : 0 < b.workers)
    (run : Run b (b.start shared) moves s) :
    b.unsettled s.stages + (moves.flatMap received).length = b.totalJobs := by
  induction run with
  | refl => exact unsettled_start b shared
  | step run made ih =>
    have settles := (sane_of_run ready staffed run).settles ready (step_of_step? made)
    simp only [List.flatMap_append, List.flatMap_cons, List.flatMap_nil, List.length_append,
      List.append_nil] at ih ⊢
    omega

/-! ### Every run ends -/

/-- An upper bound on the moves of the frame thread before it has to settle a signal. -/
def Control.ahead (b : Batch σ) : Control → Nat
  | .draining => total (b.updates.map fun u => b.taskCount u + 2) + 3
  | .admitting place => total ((b.updates.drop place).map fun u => b.taskCount u + 2) + 2
  | .sending place task =>
    total ((b.updates.drop (place + 1)).map fun u => b.taskCount u + 2) +
      (b.tasksAt place - task) + 3
  | .receiving => 1
  | .closed | .stopped _ => 0

theorem ahead_admitting {place : Nat} {u : Update σ} (found : b.updates[place]? = some u) :
    (Control.admitting place).ahead b =
      (Control.admitting (place + 1)).ahead b + (b.tasksAt place + 2) := by
  obtain ⟨inside, here⟩ := List.getElem?_eq_some_iff.mp found
  have tasks : b.tasksAt place = b.taskCount u := by simp [tasksAt, found]
  rw [Control.ahead, Control.ahead, List.drop_eq_getElem_cons inside, List.map_cons, total, here, tasks]
  omega

theorem ahead_afterSignals (s : State σ) :
    (afterSignals s).ahead b < Control.draining.ahead b := by
  rcases afterSignals_eq s with ⟨closed, -⟩ | again
  · rw [closed]
    exact Nat.succ_pos _
  · rw [again]
    exact Nat.lt_succ_self _

/-- What is left to do: sub-tasks to settle, then moves of the frame thread, then jobs in the queue,
then what the workers have begun. -/
def remainder (b : Batch σ) (s : State σ) :
    Nat × Nat × Nat × Multiset (Program (Access.interface σ) Unit) :=
  (b.unsettled s.stages, s.control.ahead b, s.queue.length, (s.running.map Prod.snd : List _))

/-- Less is left: in the first place where two remainders differ. A worker that moves has less of its
program before it. -/
def Smaller (b : Batch σ) : State σ → State σ → Prop :=
  InvImage (Prod.Lex (· < ·) (Prod.Lex (· < ·) (Prod.Lex (· < ·)
    (Relation.CutExpand Program.Next)))) b.remainder

theorem wellFounded_smaller (b : Batch σ) : WellFounded b.Smaller :=
  InvImage.wf _ (wellFounded_lt.prod_lex (wellFounded_lt.prod_lex (wellFounded_lt.prod_lex
    Program.wellFounded_next.cutExpand)))

/-- The frame thread moves on without settling a signal. -/
private theorem smaller_of_ahead (unsettled : b.unsettled t.stages = b.unsettled s.stages)
    (ahead : t.control.ahead b < s.control.ahead b) : b.Smaller t s := by
  unfold Smaller InvImage remainder
  rw [unsettled]
  exact .right _ (.left _ _ ahead)

/-- A worker moves on with a job. -/
private theorem smaller_of_running (stages : t.stages = s.stages) (control : t.control = s.control)
    (queue : t.queue = s.queue)
    (running : Relation.CutExpand Program.Next
      ((t.running.map Prod.snd : List _) : Multiset (Program (Access.interface σ) Unit))
      (s.running.map Prod.snd : List _)) : b.Smaller t s := by
  unfold Smaller InvImage remainder
  rw [stages, control, queue]
  exact .right _ (.right _ (.right _ running))

/-- Every move leaves less. -/
theorem Sane.smaller {shared : Shared σ} (ready : b.Ready kindCount shared)
    (sane : Sane b kindCount s) (step : Step b s move t) : b.Smaller t s := by
  have settles := sane.settles ready step
  have guard' := sane.guard.step ready sane.account step
  cases step with
  | @passed place u at_ found | @refused place u locks at_ found =>
    refine smaller_of_ahead rfl ?_
    rw [at_, ahead_admitting found]
    exact Nat.lt_add_of_pos_right (Nat.succ_pos _)
  | @admitted place u locks at_ found waiting room taken =>
    simp only [received, at_, List.length_nil, Nat.add_zero] at settles
    refine smaller_of_ahead settles ?_
    rw [at_, ahead_admitting found]
    simp only [Control.ahead]
    omega
  | misused | unheld | unowed => exact absurd rfl (guard'.unbroken _)
  | @scanned place at_ past =>
    refine smaller_of_ahead rfl ?_
    rw [at_]
    by_cases idle : s.inFlight = 0
    · -- Nothing is in flight after a scan, so every update has finished.
      have finished : ∀ stage ∈ s.stages, stage = .finished := by
        by_contra unfinished
        simp only [not_forall, exists_prop] at unfinished
        exact Nat.ne_of_gt (sane.flying_of_scanned at_ past unfinished) idle
      have done : isDone s = true := by
        have noneWaits : Stage.waiting ∉ s.stages := fun member => by cases finished _ member
        simp [isDone, idle, noneWaits]
      simp only [if_pos idle, afterSignals, if_pos done, Control.ahead]
      omega
    · simp only [if_neg idle, Control.ahead]
      omega
  | @sent place task at_ more =>
    refine smaller_of_ahead rfl ?_
    rw [at_]
    simp only [Control.ahead]
    omega
  | @launched place task at_ last =>
    refine smaller_of_ahead rfl ?_
    rw [at_]
    simp only [Control.ahead]
    omega
  | counted at_ signalled | finished at_ signalled =>
    rw [received_of_settling at_ signalled, List.length_singleton] at settles
    exact .left _ _ (Nat.lt_of_succ_le (Nat.le_of_eq settles))
  | drained at_ empty =>
    refine smaller_of_ahead rfl ?_
    rw [at_]
    exact ahead_afterSignals s
  | @took job queue queued idle =>
    unfold Smaller InvImage remainder
    refine .right _ (.right _ (.left _ _ ?_))
    simp [queued]
  | @signalled worker job at_ =>
    refine smaller_of_running rfl rfl rfl ⟨0, .done (), by simp, ?_⟩
    have perm := (perm_cons_eraseIdx at_).map Prod.snd
    rw [add_zero, add_comm, Multiset.singleton_add, Multiset.cons_coe]
    exact Multiset.coe_eq_coe.mpr perm.symm
  | @commanded worker job command next at_ =>
    refine smaller_of_running rfl rfl rfl
      ⟨{next (Access.perform command s.shared).value.1}, .call command next, ?_, ?_⟩
    · intro smaller member
      obtain rfl := Multiset.mem_singleton.mp member
      exact Program.Next.intro (I := Access.interface σ) command next _
    · have perm := (perm_set (job, next (Access.perform command s.shared).value.1) at_).map Prod.snd
      simp only [List.map_cons] at perm
      rw [add_comm, Multiset.singleton_add, add_comm, Multiset.singleton_add, Multiset.cons_coe,
        Multiset.cons_coe]
      exact Multiset.coe_eq_coe.mpr perm.symm

/-- The state that one move leads to. -/
def Follows (b : Batch σ) (t s : State σ) : Prop :=
  ∃ move next, b.step? s move = some next ∧ next.value = t

theorem Sane.acc {shared : Shared σ} (ready : b.Ready kindCount shared) (staffed : 0 < b.workers)
    (sane : Sane b kindCount s) : Acc b.Follows s := by
  induction s using (wellFounded_smaller b).induction with
  | _ s ih =>
    refine Acc.intro s ?_
    rintro t ⟨move, next, made, rfl⟩
    have step := step_of_step? made
    exact ih next.value (sane.smaller ready step) (sane.step ready staffed step)

/-- What `run` answers is never a fault. -/
theorem ok_of_run {shared : Shared σ} (ready : b.Ready kindCount shared) (staffed : 0 < b.workers)
    (fits : b.totalJobs < wordBound) : ∃ retries after, (b.run shared).value = (.ok retries, after) := by
  unfold run
  split
  next => exact ⟨0, shared, rfl⟩
  next some_ =>
    simp only [word, if_pos fits, Logged.value_bind]
    rcases b.rounds_start shared some_ with ⟨cause, t, -, ⟨moves, run⟩, stuck⟩ | ⟨closed, -⟩
    · exact absurd stuck (sane_of_run ready staffed run).not_stuck
    · simp only [closed, Logged.value_pure]
      exact ⟨_, _, rfl⟩

/-- What every state of a batch that is being run offers, after these moves. -/
structure Progress (b : Batch σ) (moves : List (State σ × Move)) (s : State σ) : Prop where
  -- The frame thread never goes round without a signal to wait for.
  scanned : ∀ place, s.control = .admitting place → b.updates.length ≤ place →
    (∃ stage ∈ s.stages, stage ≠ .finished) → 0 < s.inFlight
  waiting : s.control = .receiving →
    s.signals ≠ [] ∨ s.running ≠ [] ∨ s.queue ≠ [] ∧ s.running.length < b.workers
  enabled : s.control ≠ .closed → ∃ move, (b.step? s move).isSome
  settles : ∀ move next, b.step? s move = some next →
    b.unsettled next.value.stages + (received (s, move)).length = b.unsettled s.stages
  settled : b.unsettled s.stages + (moves.flatMap received).length = b.totalJobs
  -- However the moves go on, they come to an end.
  finite : Acc b.Follows s

/-- In every interleaving, however the updates conflict, somebody can move until every update has
finished, the frame thread never spins, and the moves come to an end. The execution that `run` follows
ends without a fault. -/
theorem progress_of_run {shared : Shared σ} (ready : b.Ready kindCount shared)
    (staffed : 0 < b.workers) (run : Run b (b.start shared) moves s) :
    Progress b moves s ∧ (b.totalJobs < wordBound →
      ∃ retries after, (b.run shared).value = (.ok retries, after)) := by
  have sane := sane_of_run ready staffed run
  refine ⟨?_, ok_of_run ready staffed⟩
  exact {
    scanned := fun place at_ past => sane.flying_of_scanned at_ past
    waiting := sane.waiting staffed
    enabled := sane.enabled staffed
    settles := fun move next made => sane.settles ready (step_of_step? made)
    settled := settled_of_run ready staffed run
    finite := sane.acc ready staffed }

/-- The second update is refused and the frame thread waits; nothing is signalled, and both workers are
busy. -/
theorem progress_of_twoWriters : twoWriters.Ready 2 twoWritersShared ∧ 0 < twoWriters.workers ∧
    twoWriters.totalJobs < wordBound ∧
    ∃ moves s, Run twoWriters (twoWriters.start twoWritersShared) moves s ∧ s.control = .receiving ∧
      s.retries = 1 ∧ s.signals = [] ∧ s.running.length = twoWriters.workers ∧
      Progress twoWriters moves s ∧
      ∃ retries after, (twoWriters.run twoWritersShared).value = (.ok retries, after) := by
  have made : ∃ s, twoWriters.replay? (twoWriters.start twoWritersShared)
      [.frame, .frame, .frame, .frame, .frame, .frame, .take, .frame, .take, .frame, .frame] =
        some s ∧ s.control = .receiving ∧ s.retries = 1 ∧ s.signals = [] ∧
        s.running.length = twoWriters.workers :=
    ⟨_, rfl, rfl, rfl, rfl, rfl⟩
  have staffed : 0 < twoWriters.workers := by decide
  have fits : twoWriters.totalJobs < wordBound := by decide
  obtain ⟨s, made, at_, refused, none, busy⟩ := made
  obtain ⟨trace, -, run⟩ := run_of_replay? made
  obtain ⟨progress, answers⟩ := progress_of_run twoWriters_ready staffed run
  exact ⟨twoWriters_ready, staffed, fits, trace, s, run, at_, refused, none, busy, progress,
    answers fits⟩

end EntityWorld.Batch
