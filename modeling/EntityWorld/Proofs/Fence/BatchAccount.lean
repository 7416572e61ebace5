import EntityWorld.Proofs.Fence.BatchRun
import EntityWorld.Proofs.Lists

/-!
# Keeping account of sub-tasks

An update in flight owes one settled signal per sub-task. What it still owes is found in exactly one
place each: not sent yet, queued, running, or signalled. `Accounted` says so for every update, and
that the counter of updates in flight is right and within the number of workers; every move keeps it,
whatever callbacks do with the lock table.
-/
namespace EntityWorld.Batch

variable {σ : Type} {b : Batch σ} {s t : State σ} {move : Move}

namespace Stage

/-- Admitted, and not every sub-task settled. -/
def isInFlight : Stage → Bool
  | .inFlight _ => true
  | .waiting | .finished => false

/-- Number of signals that have not been settled. -/
def owed : Stage → Nat
  | .inFlight remaining => remaining
  | .waiting | .finished => 0

end Stage

/-- What the update at a place owes. -/
def owedAt (stages : List Stage) (place : Nat) : Nat := (stages[place]?.map Stage.owed).getD 0

/-- Number of jobs of the update at a place that are still to be sent. -/
def Control.unsent (b : Batch σ) (place : Nat) : Control → Nat
  | .sending sender task => if sender = place then b.tasksAt place - task else 0
  | .admitting _ | .receiving | .draining | .closed | .stopped _ => 0

/-- An update whose jobs are being sent is in flight, but not counted yet. -/
def Control.launching : Control → Nat
  | .sending .. => 1
  | .admitting _ | .receiving | .draining | .closed | .stopped _ => 0

/-- Number of updates in flight. -/
def flyingCount (s : State σ) : Nat := s.stages.countP Stage.isInFlight

structure Accounted (b : Batch σ) (s : State σ) : Prop where
  length : s.stages.length = b.updates.length
  balance : ∀ place, (jobsOut s).countP (fun job => job.update = place) + s.signals.count place +
    s.control.unsent b place = owedAt s.stages place
  sending : ∀ place task, s.control = .sending place task →
    s.stages[place]? = some (.inFlight (b.tasksAt place)) ∧ task ≤ b.tasksAt place
  flying : flyingCount s = s.inFlight + s.control.launching
  room : flyingCount s ≤ b.workers
  closed : s.control = .closed → isDone s

theorem accounted_start (b : Batch σ) (shared : Shared σ) : Accounted b (b.start shared) where
  length := by simp [start]
  balance := by
    intro place
    have waiting : owedAt (b.start shared).stages place = 0 := by
      simp only [start, owedAt, List.getElem?_map]
      cases b.updates[place]? <;> rfl
    rw [waiting]
    rfl
  sending := by simp [start]
  flying := by
    simp [start, flyingCount, Control.launching, List.countP_eq_zero, Stage.isInFlight]
  room := by
    simp only [start, flyingCount]
    rw [List.countP_eq_zero.mpr (by simp [Stage.isInFlight])]
    exact Nat.zero_le _
  closed := by simp [start]

theorem owedAt_set {stages : List Stage} {place : Nat} {old : Stage} (new : Stage) (other : Nat)
    (found : stages[place]? = some old) :
    owedAt (stages.set place new) other = if place = other then new.owed else owedAt stages other := by
  obtain ⟨inside, -⟩ := List.getElem?_eq_some_iff.mp found
  simp only [owedAt, List.getElem?_set]
  split
  next => simp
  next => rfl

theorem owedAt_of_some {stages : List Stage} {place : Nat} {stage : Stage}
    (found : stages[place]? = some stage) : owedAt stages place = stage.owed := by
  simp [owedAt, found]

theorem countP_isInFlight_set {stages : List Stage} {place : Nat} {old : Stage} (new : Stage)
    (found : stages[place]? = some old) :
    (stages.set place new).countP Stage.isInFlight + (if old.isInFlight then 1 else 0) =
      stages.countP Stage.isInFlight + if new.isInFlight then 1 else 0 := by
  obtain ⟨inside, same⟩ := List.getElem?_eq_some_iff.mp found
  have bound := List.boole_getElem_le_countP (p := Stage.isInFlight) inside
  rw [List.countP_set inside]
  rw [same] at bound ⊢
  omega

/-- Whatever is queued, running or not settled yet is owed by its update. -/
theorem Accounted.inFlight_of_out (account : Accounted b s) {place : Nat}
    (out : place ∈ (jobsOut s).map Job.update ++ s.signals) :
    ∃ remaining, s.stages[place]? = some (.inFlight (remaining + 1)) := by
  have balance := account.balance place
  have positive : 0 < (jobsOut s).countP (fun job => job.update = place) + s.signals.count place := by
    rcases List.mem_append.mp out with job | signal
    · obtain ⟨job, member, same⟩ := List.mem_map.mp job
      exact Nat.add_pos_left (List.countP_pos_iff.mpr ⟨job, member, by simp [same]⟩) _
    · exact Nat.add_pos_right _ (List.count_pos_iff.mpr signal)
  cases found : s.stages[place]? with
  | none =>
    simp only [owedAt, found, Option.map_none, Option.getD_none] at balance
    omega
  | some stage =>
    rw [owedAt_of_some found] at balance
    match stage with
    | .inFlight (remaining + 1) => exact ⟨remaining, rfl⟩
    | .inFlight 0 | .waiting | .finished => simp only [Stage.owed] at balance; omega

theorem Accounted.inFlight_of_signalled (account : Accounted b s) {place : Nat} {signals : List Nat}
    (signalled : s.signals = place :: signals) :
    ∃ remaining, s.stages[place]? = some (.inFlight (remaining + 1)) :=
  account.inFlight_of_out (List.mem_append_right _ (by simp [signalled]))

theorem Accounted.update_of_stage (account : Accounted b s) {place : Nat} {stage : Stage}
    (found : s.stages[place]? = some stage) : ∃ u, b.updates[place]? = some u := by
  obtain ⟨inside, -⟩ := List.getElem?_eq_some_iff.mp found
  rw [account.length] at inside
  exact ⟨_, List.getElem?_eq_getElem inside⟩

/-! ### Controls under which nothing is sent -/

/-- The frame thread is not in the middle of sending an update's jobs. -/
def Control.Idle (control : Control) : Prop := ∀ place task, control ≠ .sending place task

theorem Control.Idle.unsent {control : Control} (idle : control.Idle) (place : Nat) :
    control.unsent b place = 0 := by
  cases control with
  | sending sender task => exact absurd rfl (idle sender task)
  | _ => rfl

theorem Control.Idle.launching {control : Control} (idle : control.Idle) :
    control.launching = 0 := by
  cases control with
  | sending sender task => exact absurd rfl (idle sender task)
  | _ => rfl

theorem idle_of_admitting {place : Nat} (at_ : s.control = .admitting place) : s.control.Idle := by
  intro sender task sending
  rw [at_] at sending
  cases sending

theorem idle_of_settling (at_ : s.control = .receiving ∨ s.control = .draining) :
    s.control.Idle := by
  intro sender task sending
  rcases at_ with at_ | at_ <;> rw [at_] at sending <;> cases sending

theorem idle_afterSignals (s : State σ) : (afterSignals s).Idle := by
  intro sender task
  simp only [afterSignals]
  split <;> nofun

theorem afterSignals_ne_stopped (s : State σ) (cause : Fault) : afterSignals s ≠ .stopped cause := by
  simp only [afterSignals]
  split <;> nofun

theorem isDone_of_afterSignals (closed : afterSignals s = .closed) : isDone s := by
  simp only [afterSignals] at closed
  split at closed
  next done => exact done
  next => cases closed

/-- Where a scan leads: on to the signals, unless nothing is in flight. -/
theorem idle_of_scanned (s : State σ) :
    (if s.inFlight = 0 then afterSignals s else .receiving).Idle := by
  split
  · exact idle_afterSignals s
  · nofun

/-! ### Moves -/

/-- A move that only turns the frame thread to something else leaves the account as it is. -/
private theorem Accounted.turned (account : Accounted b s) (before : s.control.Idle)
    (after : t.control.Idle) (stages : t.stages = s.stages) (inFlight : t.inFlight = s.inFlight)
    (out : jobsOut t = jobsOut s) (signals : t.signals = s.signals)
    (closed : t.control = .closed → isDone t) : Accounted b t where
  length := by rw [stages]; exact account.length
  balance := by
    intro place
    rw [out, signals, stages, after.unsent, ← before.unsent (b := b) place]
    exact account.balance place
  sending := fun place task sending => absurd sending (after place task)
  flying := by
    rw [flyingCount, stages, inFlight, after.launching, ← before.launching]
    exact account.flying
  room := by
    rw [flyingCount, stages]
    exact account.room
  closed

/-- Settling one signal lowers what its update owes by one. -/
private theorem Accounted.balance_of_settled (account : Accounted b s) {place remaining : Nat}
    {signals : List Nat} {new : Stage} (at_ : s.control = .receiving ∨ s.control = .draining)
    (signalled : s.signals = place :: signals)
    (owed : s.stages[place]? = some (.inFlight (remaining + 1))) (less : new.owed = remaining)
    (other : Nat) :
    (jobsOut s).countP (fun job => job.update = other) + signals.count other =
      owedAt (s.stages.set place new) other := by
  have before := account.balance other
  rw [(idle_of_settling at_).unsent, signalled, List.count_cons] at before
  rw [owedAt_set new other owed, less]
  by_cases same : place = other
  · subst same
    rw [owedAt_of_some owed] at before
    simp only [Stage.owed, beq_self_eq_true, if_true] at before ⊢
    omega
  · simp only [beq_iff_eq, same, if_false] at before ⊢
    omega

/-- One settled signal: its update owes one less, and leaves the air if it owes nothing more. -/
private theorem Accounted.settled (account : Accounted b s) {place remaining : Nat}
    {signals : List Nat} {new : Stage} (at_ : s.control = .receiving ∨ s.control = .draining)
    (signalled : s.signals = place :: signals)
    (owed : s.stages[place]? = some (.inFlight (remaining + 1))) (less : new.owed = remaining)
    (stages : t.stages = s.stages.set place new) (out : jobsOut t = jobsOut s)
    (rest : t.signals = signals)
    (inFlight : t.inFlight = if new.isInFlight then s.inFlight else s.inFlight - 1)
    (after : t.control.Idle) (open_ : t.control ≠ .closed) : Accounted b t := by
  have count := countP_isInFlight_set new owed
  have flying := account.flying
  have room := account.room
  rw [if_pos (show (Stage.inFlight (remaining + 1)).isInFlight = true from rfl)] at count
  rw [(idle_of_settling at_).launching] at flying
  simp only [flyingCount] at flying room
  -- Exactly the last signal of an update lowers both the counter and the number it counts.
  have flown : (s.stages.set place new).countP Stage.isInFlight = t.inFlight := by
    rw [inFlight]
    cases onward : new.isInFlight with
    | true =>
      simp only [onward, if_true] at count ⊢
      omega
    | false =>
      simp only [onward, Bool.false_eq_true, if_false] at count ⊢
      omega
  refine ⟨?_, fun other => ?_, fun sender task sending => absurd sending (after sender task), ?_, ?_,
    fun closed => absurd closed open_⟩
  · simpa only [stages, List.length_set] using account.length
  · rw [out, rest, stages, after.unsent]
    exact account.balance_of_settled at_ signalled owed less other
  · rw [flyingCount, stages, flown, after.launching]
    rfl
  · rw [flyingCount, stages]
    split at count <;> omega

theorem Accounted.step (account : Accounted b s) (step : Step b s move t) : Accounted b t := by
  have balance := account.balance
  have flying := account.flying
  have room := account.room
  cases step with
  | passed at_ _ _ | refused at_ _ _ _ _ | misused at_ _ _ =>
    exact account.turned (idle_of_admitting at_) nofun rfl rfl rfl rfl nofun
  | @admitted place u locks at_ found waiting free taken =>
    -- From now on the update owes all its sub-tasks, and none of them has been sent.
    simp only [at_, Control.unsent, Control.launching] at balance flying
    have count := countP_isInFlight_set (.inFlight (b.tasksAt place)) waiting
    simp only [Stage.isInFlight, Bool.false_eq_true, if_false, if_true] at count
    refine ⟨by simpa using account.length, fun other => ?_, ?_, ?_, ?_, by simp⟩
    · have before := balance other
      rw [owedAt_set _ _ waiting]
      simp only [jobsOut, Control.unsent] at before ⊢
      split
      next same =>
        subst same
        rw [owedAt_of_some waiting] at before
        simp only [Stage.owed] at before ⊢
        omega
      next => exact before
    · intro sender task same
      cases same
      obtain ⟨inside, -⟩ := List.getElem?_eq_some_iff.mp waiting
      exact ⟨by simp [inside], Nat.zero_le _⟩
    · simp only [flyingCount, Control.launching] at flying ⊢
      omega
    · simp only [flyingCount] at flying ⊢
      omega
  | scanned at_ past =>
    refine account.turned (idle_of_admitting at_) (idle_of_scanned s) rfl rfl rfl rfl fun closed => ?_
    simp only at closed
    split at closed
    · exact isDone_of_afterSignals closed
    · cases closed
  | @sent place task at_ more =>
    -- One job fewer to send, and one more in the queue.
    simp only [at_, Control.unsent, Control.launching] at balance flying
    refine ⟨account.length, fun other => ?_, ?_, flying, room, by simp⟩
    · have before := balance other
      simp only [jobsOut, Control.unsent, List.countP_append, List.countP_cons,
        List.countP_nil] at before ⊢
      by_cases same : place = other
      · subst same
        simp only [decide_true, if_true] at before ⊢
        omega
      · simp only [same, decide_false, if_false, Bool.false_eq_true] at before ⊢
        omega
    · intro sender next same
      cases same
      exact ⟨(account.sending place task at_).1, more⟩
  | @launched place task at_ last =>
    -- All jobs were sent, so the update is counted as in flight.
    simp only [at_, Control.unsent, Control.launching] at balance flying
    refine ⟨account.length, fun other => ?_, by simp, ?_, room, by simp⟩
    · rw [← balance other]
      simp only [jobsOut, Control.unsent]
      split
      next same => subst same; omega
      next => rfl
    · simpa only [flyingCount, Control.launching] using flying
  | counted at_ signalled owed more =>
    exact account.settled at_ signalled owed rfl rfl rfl rfl rfl nofun nofun
  | finished at_ signalled found owed given =>
    exact account.settled at_ signalled owed rfl rfl rfl rfl rfl nofun nofun
  | unheld at_ signalled found owed given =>
    exact account.settled at_ signalled owed rfl rfl rfl rfl rfl nofun nofun
  | @unowed place signals at_ signalled nothing =>
    -- A signal is owed by its update, so this move cannot be made.
    obtain ⟨remaining, owed⟩ := account.inFlight_of_signalled signalled
    obtain ⟨u, found⟩ := account.update_of_stage owed
    exact absurd owed (nothing u remaining found)
  | drained at_ empty =>
    exact account.turned (idle_of_settling (.inr at_)) (idle_afterSignals s) rfl rfl rfl rfl
      isDone_of_afterSignals
  -- Workers move jobs from one place to the next, and what an update owes stays what it is.
  | @took job queue queued idle =>
    refine ⟨account.length, fun other => ?_, account.sending, flying, room, account.closed⟩
    rw [← balance other]
    simp only [jobsOut, queued, List.map_append, List.map_cons, List.map_nil, List.countP_append,
      List.countP_cons, List.countP_nil]
    omega
  | @signalled worker job at_ =>
    refine ⟨account.length, fun other => ?_, account.sending, flying, room, account.closed⟩
    have perm := ((perm_cons_eraseIdx at_).map Prod.fst).countP_eq (fun job => job.update = other)
    rw [← balance other]
    simp only [List.map_cons, List.countP_cons, decide_eq_true_eq] at perm
    simp only [jobsOut, List.countP_append, List.count_append, List.count_cons, List.count_nil,
      perm, beq_iff_eq]
    omega
  | @commanded worker job command next at_ =>
    refine ⟨account.length, fun other => ?_, account.sending, flying, room, account.closed⟩
    rw [← balance other]
    simp only [jobsOut, map_fst_set _ at_]

end EntityWorld.Batch
