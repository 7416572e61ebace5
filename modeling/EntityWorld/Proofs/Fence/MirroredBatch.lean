import EntityWorld.Proofs.Corresponding
import EntityWorld.Proofs.Fence.Replay
import EntityWorld.Proofs.Mirror

/-!
# Batches in mirrored runs

Where updates do alike, the frame thread and the workers can make the same moves in both runs, the
updates hear corresponding answers, and what they share stays mirrored. Main statements: `Alike.replay?`
and `Alike.run`.
-/
namespace EntityWorld

open List (Forall₂)

variable {σ : Type} {mirror : Mirror σ}

/-- Updates that differ in what they do only, and do alike. -/
inductive Update.Alike (mirror : Mirror σ) (u : Update σ) : Update σ → Prop
  | intro {body : UpdateContext → Program (Access.interface σ) Unit}
      (does : ∀ context, (u.body context).Alike mirror.access (fun a b => b = a) (body context)) :
      Alike mirror u { u with body }

namespace Batch

/-- Batches of updates that do alike. -/
inductive Alike (mirror : Mirror σ) (b : Batch σ) : Batch σ → Prop
  | intro {updates : List (Update σ)} (updates_ : Forall₂ (Update.Alike mirror) b.updates updates) :
      Alike mirror b { b with updates }

/-- The same job, with programs left that do alike. -/
def SameJob (mirror : Mirror σ) (r r' : Job × Program (Access.interface σ) Unit) : Prop :=
  r'.1 = r.1 ∧ r.2.Alike mirror.access (fun a b => b = a) r'.2

/-- States that differ in what the workers are at and in what is shared only. -/
inductive State.Alike (mirror : Mirror σ) (s : State σ) : State σ → Prop
  | intro {running : List (Job × Program (Access.interface σ) Unit)} {shared : Shared σ}
      (work : Forall₂ (SameJob mirror) s.running running)
      (mirrored : Shared.Mirrored mirror s.shared shared) : Alike mirror s { s with running, shared }

variable {b b' : Batch σ} {s t : State σ}

theorem Alike.length (batch : b.Alike mirror b') : b'.updates.length = b.updates.length := by
  obtain @⟨updates, both⟩ := batch
  exact both.length_eq.symm

theorem Alike.consider (batch : b.Alike mirror b') (alike : s.Alike mirror t) (place : Nat) :
    (b.consider place s).value.Alike mirror (b'.consider place t).value := by
  obtain @⟨updates, both⟩ := batch
  obtain @⟨running, shared, work, mirrored⟩ := alike
  have found := forall₂_getElem? both place
  unfold Batch.consider
  dsimp only
  generalize b.updates[place]? = u? at found
  generalize updates[place]? = v? at found
  cases found with
  | none => exact .intro work mirrored
  | @some u v same =>
    cases same with
    | @intro body does =>
      have taken : (Update.takeLocks { u with body } shared.locks).value =
          (u.takeLocks s.shared.locks).value := by
        rw [mirrored.locks]
        rfl
      rcases s.stages[place]? with _ | stage
      · exact .intro work mirrored
      · cases stage with
        | inFlight | finished => exact .intro work mirrored
        | waiting =>
          dsimp only
          split
          next room =>
            simp only [Logged.value_bind, taken]
            rcases (u.takeLocks s.shared.locks).value with ⟨misuse | granted, locks⟩
            · exact .intro work { mirrored with locks := rfl }
            · cases granted with
              | false | true => exact .intro work { mirrored with locks := rfl }
          next full => exact .intro work mirrored

theorem Alike.settle (batch : b.Alike mirror b') (alike : s.Alike mirror t) (place : Nat) :
    (b.settle place s).value.Alike mirror (b'.settle place t).value := by
  obtain @⟨updates, both⟩ := batch
  obtain @⟨running, shared, work, mirrored⟩ := alike
  have found := forall₂_getElem? both place
  unfold Batch.settle
  dsimp only
  generalize b.updates[place]? = u? at found
  generalize updates[place]? = v? at found
  cases found with
  | none => exact .intro work mirrored
  | @some u v same =>
    cases same with
    | @intro body does =>
      have returned : (Update.returnLocks { u with body } shared.locks).value =
          (u.returnLocks s.shared.locks).value := by
        rw [mirrored.locks]
        rfl
      rcases s.stages[place]? with _ | stage
      · exact .intro work mirrored
      · cases stage with
        | waiting | finished => exact .intro work mirrored
        | inFlight remaining =>
          cases remaining with
          | zero => exact .intro work mirrored
          | succ remaining =>
            dsimp only
            split
            next more => exact .intro work mirrored
            next last =>
              simp only [Logged.value_bind, returned]
              rcases (u.returnLocks s.shared.locks).value with ⟨misuse | ok, locks⟩
              · exact .intro work { mirrored with locks := rfl }
              · exact .intro work { mirrored with locks := rfl }

theorem Alike.tasksAt (batch : b.Alike mirror b') (place : Nat) : b'.tasksAt place = b.tasksAt place := by
  obtain @⟨updates, both⟩ := batch
  have found := forall₂_getElem? both place
  unfold Batch.tasksAt
  dsimp only
  generalize b.updates[place]? = u? at found
  generalize updates[place]? = v? at found
  cases found with
  | none => rfl
  | some same => cases same with | intro does => rfl

theorem Alike.program (batch : b.Alike mirror b') (job : Job) :
    (b.program job).Alike mirror.access (fun a b => b = a) (b'.program job) := by
  obtain @⟨updates, both⟩ := batch
  have found := forall₂_getElem? both job.update
  unfold Batch.program
  dsimp only
  generalize b.updates[job.update]? = u? at found
  generalize updates[job.update]? = v? at found
  cases found with
  | none => exact .done rfl
  | some same => cases same with | intro does => exact does _

/-! ### Moves -/

/-- What can be done in one run can be done in the other. -/
def SameStep (mirror : Mirror σ) : Option (Logged (State σ)) → Option (Logged (State σ)) → Prop :=
  Option.Rel fun s t => s.value.Alike mirror t.value

theorem Alike.frameStep? (batch : b.Alike mirror b') (alike : s.Alike mirror t) :
    SameStep mirror (b.frameStep? s) (b'.frameStep? t) := by
  have same : t.control = s.control ∧ t.signals = s.signals ∧ t.inFlight = s.inFlight ∧
      afterSignals t = afterSignals s := by
    obtain @⟨running, shared, work, mirrored⟩ := alike
    exact ⟨rfl, rfl, rfl, rfl⟩
  obtain ⟨control, signals, inFlight, after⟩ := same
  unfold Batch.frameStep?
  rw [control, signals, inFlight, after, batch.length]
  cases s.control with
  | admitting place =>
    dsimp only
    split
    · exact .some (batch.consider alike place)
    · obtain @⟨running, shared, work, mirrored⟩ := alike
      exact .some (.intro work mirrored)
  | sending place task =>
    refine .some ?_
    simp only [Logged.value_pure, send, batch.tasksAt]
    obtain @⟨running, shared, work, mirrored⟩ := alike
    split
    · exact .intro work mirrored
    · exact .intro work mirrored
  | receiving =>
    cases s.signals with
    | nil => exact .none
    | cons place rest =>
      refine .some (batch.settle ?_ place)
      obtain @⟨running, shared, work, mirrored⟩ := alike
      exact .intro work mirrored
  | draining =>
    cases s.signals with
    | nil =>
      obtain @⟨running, shared, work, mirrored⟩ := alike
      exact .some (.intro work mirrored)
    | cons place rest =>
      refine .some (batch.settle ?_ place)
      obtain @⟨running, shared, work, mirrored⟩ := alike
      exact .intro work mirrored
  | closed | stopped => exact .none

theorem Alike.takeStep? (batch : b.Alike mirror b') (alike : s.Alike mirror t) :
    Option.Rel (State.Alike mirror) (b.takeStep? s) (b'.takeStep? t) := by
  have workers : b'.workers = b.workers := by
    obtain @⟨updates, both⟩ := batch
    rfl
  obtain @⟨running, shared, work, mirrored⟩ := alike
  unfold Batch.takeStep?
  dsimp only
  rw [workers, ← work.length_eq]
  cases s.queue with
  | nil => exact .none
  | cons job queue =>
    dsimp only
    split
    · exact .some (.intro (List.rel_append work (.cons ⟨rfl, batch.program job⟩ .nil)) mirrored)
    · exact .none

theorem workStep?_alike (alike : s.Alike mirror t) (worker : Nat) :
    Option.Rel (State.Alike mirror) (workStep? worker s) (workStep? worker t) ∧
      Forall₂ (Heard.Alike mirror.access) (heardAt s (.work worker)) (heardAt t (.work worker)) := by
  obtain @⟨running, shared, work, mirrored⟩ := alike
  have at_ := forall₂_getElem? work worker
  unfold workStep? heardAt
  dsimp only
  generalize s.running[worker]? = r? at at_
  generalize running[worker]? = r?' at at_
  cases at_ with
  | none => exact ⟨.none, .nil⟩
  | @some r r' same =>
    obtain ⟨job, p⟩ := r
    obtain ⟨job', q⟩ := r'
    obtain ⟨job_eq, alike⟩ := same
    obtain rfl : job' = job := job_eq
    dsimp only at alike
    cases alike with
    | done same => exact ⟨.some (.intro (forall₂_eraseIdx work worker) mirrored), .nil⟩
    | @call c c' next next' command later =>
      obtain ⟨answer, after⟩ := Shared.keptBy_perform mirror c c' s.shared shared command mirrored
      exact ⟨.some (.intro (forall₂_set work worker ⟨rfl, later _ _ answer⟩) after),
        .cons ⟨command, answer⟩ .nil⟩

/-- The same moves can be made, and the same is heard. -/
theorem Alike.step? (batch : b.Alike mirror b') (alike : s.Alike mirror t) (move : Move) :
    SameStep mirror (b.step? s move) (b'.step? t move) ∧
      Forall₂ (Heard.Alike mirror.access) (heardAt s move) (heardAt t move) := by
  cases move with
  | frame => exact ⟨batch.frameStep? alike, .nil⟩
  | take => exact ⟨rel_map_of_rel (batch.takeStep? alike) fun _ _ alike => alike, .nil⟩
  | work worker =>
    obtain ⟨worked, heard⟩ := workStep?_alike alike worker
    exact ⟨rel_map_of_rel worked fun _ _ alike => alike, heard⟩

theorem Alike.replay? (batch : b.Alike mirror b') (alike : s.Alike mirror t) (moves : List Move) :
    Option.Rel (State.Alike mirror) (b.replay? s moves) (b'.replay? t moves) ∧
      Forall₂ (Heard.Alike mirror.access) (b.heard s moves) (b'.heard t moves) := by
  induction moves generalizing s t with
  | nil => exact ⟨.some alike, .nil⟩
  | cons move rest ih =>
    obtain ⟨made, heard⟩ := batch.step? alike move
    simp only [Batch.replay?, Batch.heard]
    generalize b.step? s move = next? at made
    generalize b'.step? t move = next?' at made
    cases made with
    | none => exact ⟨.none, List.rel_append heard .nil⟩
    | some alike =>
      obtain ⟨replayed, later⟩ := ih alike
      exact ⟨replayed, List.rel_append heard later⟩

/-! ### Whole batches -/

theorem Alike.start (batch : b.Alike mirror b') {shared shared' : Shared σ}
    (mirrored : Shared.Mirrored mirror shared shared') :
    (b.start shared).Alike mirror (b'.start shared') := by
  obtain @⟨updates, both⟩ := batch
  have stages : updates.map (fun _ => Stage.waiting) = b.updates.map fun _ => Stage.waiting :=
    map_eq_of_forall₂ both fun _ _ _ => rfl
  unfold Batch.start
  dsimp only
  rw [stages]
  exact .intro .nil mirrored

theorem Alike.finishJob (batch : b.Alike mirror b') (alike : s.Alike mirror t) (job : Job) :
    (b.finishJob job s).Alike mirror (b'.finishJob job t) := by
  obtain @⟨running, shared, work, mirrored⟩ := alike
  obtain ⟨-, after, -⟩ := (batch.program job).run (Shared.keptBy_perform mirror) mirrored
  exact .intro work after

theorem State.Alike.control (alike : s.Alike mirror t) : t.control = s.control := by
  cases alike
  rfl

theorem State.Alike.shared (alike : s.Alike mirror t) : Shared.Mirrored mirror s.shared t.shared := by
  cases alike with
  | intro _ mirrored => exact mirrored

theorem State.Alike.queue (alike : s.Alike mirror t) : t.queue = s.queue := by
  cases alike
  rfl

theorem Alike.sendAll (batch : b.Alike mirror b') (alike : s.Alike mirror t) :
    (b.sendAll s).Alike mirror (b'.sendAll t) := by
  unfold Batch.sendAll
  rw [alike.control]
  cases s.control with
  | sending place task =>
    obtain @⟨running, shared, work, mirrored⟩ := alike
    simp only [batch.tasksAt]
    exact .intro work mirrored
  | admitting | receiving | draining | closed | stopped => exact alike

theorem Alike.admitFrom (batch : b.Alike mirror b') (alike : s.Alike mirror t) (places : List Nat) :
    (b.admitFrom places s).value.Alike mirror (b'.admitFrom places t).value := by
  induction places generalizing s t with
  | nil => exact alike
  | cons place rest ih =>
    have considered := batch.consider alike place
    simp only [Batch.admitFrom, Logged.value_bind, considered.control]
    generalize (b.consider place s).value = s' at considered
    generalize (b'.consider place t).value = t' at considered
    cases s'.control with
    | stopped cause => exact considered
    | admitting | sending | receiving | draining | closed => exact ih (batch.sendAll considered)

theorem Alike.runOut (batch : b.Alike mirror b') (alike : s.Alike mirror t) :
    (b.runOut s).Alike mirror (b'.runOut t) := by
  unfold Batch.runOut
  rw [alike.queue]
  generalize s.queue = jobs
  have ran : (jobs.foldl (fun s job => b.finishJob job s) s).Alike mirror
      (jobs.foldl (fun t job => b'.finishJob job t) t) := by
    induction jobs generalizing s t with
    | nil => exact alike
    | cons job rest ih => exact ih (batch.finishJob alike job)
  generalize jobs.foldl (fun s job => b.finishJob job s) s = s' at ran
  generalize jobs.foldl (fun t job => b'.finishJob job t) t = t' at ran
  cases ran with
  | intro work mirrored => exact .intro work mirrored

private theorem State.Alike.put_control (alike : s.Alike mirror t) (control : Control) :
    State.Alike mirror { s with control } { t with control } := by
  cases alike with
  | intro work mirrored => exact .intro work mirrored

private theorem State.Alike.put_queue (alike : s.Alike mirror t) (queue : List Job) :
    State.Alike mirror { s with queue } { t with control := s.control, queue } := by
  cases alike with
  | intro work mirrored => exact .intro work mirrored

theorem Alike.rounds (batch : b.Alike mirror b') (alike : s.Alike mirror t) (fuel : Nat) :
    (b.rounds fuel s).value.Alike mirror (b'.rounds fuel t).value := by
  induction fuel generalizing s t with
  | zero => exact alike
  | succ fuel ih =>
    have admitted := batch.admitFrom alike (List.range b.updates.length)
    simp only [Batch.rounds, Logged.value_bind, batch.length]
    generalize (b.admitFrom (List.range b.updates.length) s).value = s at admitted
    generalize (b'.admitFrom (List.range b.updates.length) t).value = t at admitted
    rw [admitted.control, admitted.queue]
    split
    next cause stopped => exact batch.runOut admitted
    next empty goes => exact (admitted.put_queue _).put_control _
    next job rest queued goes =>
      -- A job is run and settled; then the frame thread goes on, if it was not stopped.
      have finished := batch.finishJob (admitted.put_queue rest) job
      have settled := batch.settle (finished.put_control .draining) job.update
      simp only [Logged.value_bind]
      generalize (b.settle job.update _).value = s at settled ⊢
      generalize (b'.settle job.update _).value = t at settled ⊢
      have after : afterSignals t = afterSignals s := by
        cases settled
        rfl
      rw [settled.control, after]
      split
      next cause stopped => exact batch.runOut settled
      next =>
        split
        next => exact settled.put_control _
        next => exact ih (settled.put_control _)

theorem Alike.run (batch : b.Alike mirror b') {shared shared' : Shared σ}
    (mirrored : Shared.Mirrored mirror shared shared') :
    (b'.run shared').value.1 = (b.run shared).value.1 ∧
      Shared.Mirrored mirror (b.run shared).value.2 (b'.run shared').value.2 := by
  have empty : b'.updates.isEmpty = b.updates.isEmpty := by
    rw [Bool.eq_iff_iff, List.isEmpty_iff_length_eq_zero, List.isEmpty_iff_length_eq_zero, batch.length]
  have jobs : b'.totalJobs = b.totalJobs := by
    obtain @⟨updates, both⟩ := batch
    refine congrArg total (map_eq_of_forall₂ both fun u v same => ?_)
    cases same
    rfl
  unfold Batch.run
  rw [empty, jobs]
  split
  · exact ⟨rfl, mirrored⟩
  · cases word b.totalJobs with
    | error fault => exact ⟨rfl, mirrored⟩
    | ok fuel =>
      have ran := batch.rounds (batch.start mirrored) fuel
      simp only [Logged.value_bind, ran.control]
      generalize (b.rounds fuel (b.start shared)).value = s at ran ⊢
      generalize (b'.rounds fuel (b'.start shared')).value = t at ran ⊢
      have retries : t.retries = s.retries := by
        cases ran
        rfl
      rw [retries]
      split
      · simp only [Logged.value_pure]
        exact ⟨trivial, ran.shared⟩
      · simp only [Logged.value_pure]
        exact ⟨trivial, ran.shared⟩

end Batch

end EntityWorld
