import EntityWorld.Fence.Batch

/-!
# Runs of a batch

Every interleaving of the frame thread and the workers is a list of moves. `Step` lists once what a
single move can do, and `step_of_step?` is the only place that opens the machine; everything said
about runs goes by cases on it.
-/
namespace EntityWorld.Batch

variable {σ : Type} {b : Batch σ} {s t : State σ} {move : Move}

/-- The jobs that are queued or running. -/
def jobsOut (s : State σ) : List Job := s.queue ++ s.running.map Prod.fst

/-- What one move can do. -/
inductive Step (b : Batch σ) (s : State σ) : Move → State σ → Prop where
  -- An update that does not wait, or that no worker is left for, is passed over.
  | passed {place : Nat} {u : Update σ} (at_ : s.control = .admitting place)
      (found : b.updates[place]? = some u)
      (reason : s.stages[place]? = some .waiting → b.workers ≤ s.inFlight) :
      Step b s .frame { s with control := .admitting (place + 1) }
  | refused {place : Nat} {u : Update σ} {locks : LockTable} (at_ : s.control = .admitting place)
      (found : b.updates[place]? = some u) (waiting : s.stages[place]? = some .waiting)
      (room : s.inFlight < b.workers)
      (taken : (u.takeLocks s.shared.locks).value = (.ok false, locks)) :
      Step b s .frame
        { s with
          control := .admitting (place + 1)
          retries := s.retries + 1
          shared := { s.shared with locks } }
  | admitted {place : Nat} {u : Update σ} {locks : LockTable} (at_ : s.control = .admitting place)
      (found : b.updates[place]? = some u) (waiting : s.stages[place]? = some .waiting)
      (room : s.inFlight < b.workers)
      (taken : (u.takeLocks s.shared.locks).value = (.ok true, locks)) :
      Step b s .frame
        { s with
          control := .sending place 0
          stages := s.stages.set place (.inFlight (b.tasksAt place))
          shared := { s.shared with locks } }
  | misused {place : Nat} {u : Update σ} {cause : Misuse} {locks : LockTable}
      (at_ : s.control = .admitting place) (found : b.updates[place]? = some u)
      (taken : (u.takeLocks s.shared.locks).value = (.error cause, locks)) :
      Step b s .frame
        { s with control := .stopped (.misuse cause), shared := { s.shared with locks } }
  | scanned {place : Nat} (at_ : s.control = .admitting place) (past : b.updates.length ≤ place) :
      Step b s .frame { s with control := if s.inFlight = 0 then afterSignals s else .receiving }
  | sent {place task : Nat} (at_ : s.control = .sending place task)
      (more : task < b.tasksAt place) :
      Step b s .frame
        { s with control := .sending place (task + 1), queue := s.queue ++ [⟨place, task⟩] }
  | launched {place task : Nat} (at_ : s.control = .sending place task)
      (last : b.tasksAt place ≤ task) :
      Step b s .frame { s with control := .admitting (place + 1), inFlight := s.inFlight + 1 }
  | counted {place remaining : Nat} {signals : List Nat}
      (at_ : s.control = .receiving ∨ s.control = .draining) (signalled : s.signals = place :: signals)
      (owed : s.stages[place]? = some (.inFlight (remaining + 1))) (more : 0 < remaining) :
      Step b s .frame
        { s with
          control := .draining
          signals
          stages := s.stages.set place (.inFlight remaining) }
  | finished {place : Nat} {u : Update σ} {signals : List Nat} {locks : LockTable}
      (at_ : s.control = .receiving ∨ s.control = .draining) (signalled : s.signals = place :: signals)
      (found : b.updates[place]? = some u) (owed : s.stages[place]? = some (.inFlight 1))
      (given : (u.returnLocks s.shared.locks).value = (.ok (), locks)) :
      Step b s .frame
        { s with
          control := .draining
          signals
          stages := s.stages.set place .finished
          inFlight := s.inFlight - 1
          shared := { s.shared with locks } }
  | unheld {place : Nat} {u : Update σ} {signals : List Nat} {cause : Misuse} {locks : LockTable}
      (at_ : s.control = .receiving ∨ s.control = .draining) (signalled : s.signals = place :: signals)
      (found : b.updates[place]? = some u) (owed : s.stages[place]? = some (.inFlight 1))
      (given : (u.returnLocks s.shared.locks).value = (.error cause, locks)) :
      Step b s .frame
        { s with
          control := .stopped (.misuse cause)
          signals
          stages := s.stages.set place (.inFlight 0)
          shared := { s.shared with locks } }
  -- A signal that no job owes.
  | unowed {place : Nat} {signals : List Nat}
      (at_ : s.control = .receiving ∨ s.control = .draining) (signalled : s.signals = place :: signals)
      (nothing : ∀ u remaining, b.updates[place]? = some u →
        s.stages[place]? ≠ some (.inFlight (remaining + 1))) :
      Step b s .frame { s with control := .stopped .overflow, signals }
  | drained (at_ : s.control = .draining) (empty : s.signals = []) :
      Step b s .frame { s with control := afterSignals s }
  | took {job : Job} {queue : List Job} (queued : s.queue = job :: queue)
      (idle : s.running.length < b.workers) :
      Step b s .take { s with queue, running := s.running ++ [(job, b.program job)] }
  | signalled {worker : Nat} {job : Job} (at_ : s.running[worker]? = some (job, .done ())) :
      Step b s (.work worker)
        { s with running := s.running.eraseIdx worker, signals := s.signals ++ [job.update] }
  | commanded {worker : Nat} {job : Job} {command : Access.Request σ}
      {next : Access.Answer command → Program (Access.interface σ) Unit}
      (at_ : s.running[worker]? = some (job, .call command next)) :
      Step b s (.work worker)
        { s with
          running := s.running.set worker (job, next (Access.perform command s.shared).value.1)
          shared := (Access.perform command s.shared).value.2 }

private theorem step_of_consider {place : Nat} (at_ : s.control = .admitting place)
    (inside : place < b.updates.length) : Step b s .frame (b.consider place s).value := by
  have present : b.updates[place]? = some b.updates[place] := List.getElem?_eq_getElem inside
  unfold consider
  split
  next u found waiting =>
    split
    next room =>
      simp only [Logged.value_bind]
      cases taken : (u.takeLocks s.shared.locks).value with
      | mk result locks =>
        match result with
        | .error cause => exact .misused at_ found taken
        | .ok false => exact .refused at_ found waiting room taken
        | .ok true =>
          have tasks : b.taskCount u = b.tasksAt place := by simp [tasksAt, found]
          simp only [tasks]
          exact .admitted at_ found waiting room taken
    next full => exact .passed at_ found fun _ => Nat.le_of_not_lt full
  next nothing => exact .passed at_ present fun waiting => absurd waiting (nothing _ present)

private theorem step_of_settle {place : Nat} {signals : List Nat}
    (at_ : s.control = .receiving ∨ s.control = .draining) (signalled : s.signals = place :: signals) :
    Step b s .frame (b.settle place { s with control := .draining, signals }).value := by
  unfold settle
  split
  next u remaining found owed =>
    simp only
    split
    next more => exact .counted at_ signalled owed more
    next last =>
      -- The last signal: the locks are given back before the update counts as finished.
      obtain rfl : remaining = 0 := by omega
      simp only [Logged.value_bind]
      cases given : (u.returnLocks s.shared.locks).value with
      | mk result locks =>
        match result with
        | .error cause => exact .unheld at_ signalled found owed given
        | .ok () =>
          simp only [Logged.value_bind, Logged.value_pure, List.set_set]
          exact .finished at_ signalled found owed given
  next nothing =>
    exact .unowed at_ signalled fun u remaining found owed => nothing u remaining found owed

theorem step_of_step? {next : Logged (State σ)} (made : b.step? s move = some next) :
    Step b s move next.value := by
  cases move with
  | frame =>
    simp only [step?, frameStep?] at made
    split at made
    next place at_ =>
      split at made
      next inside =>
        cases made
        exact step_of_consider at_ inside
      next past =>
        cases made
        exact .scanned at_ (Nat.le_of_not_lt past)
    next place task at_ =>
      cases made
      simp only [Logged.value_pure, send]
      split
      next more => exact .sent at_ more
      next last => exact .launched at_ (Nat.le_of_not_lt last)
    next at_ =>
      split at made
      · cases made
      next place signals signalled =>
        cases made
        exact step_of_settle (.inl at_) signalled
    next at_ =>
      split at made
      next empty =>
        cases made
        exact .drained at_ empty
      next place signals signalled =>
        cases made
        -- While draining, the control is what settling sets it to.
        have same : { s with signals } = { s with control := .draining, signals } := by rw [← at_]
        rw [same]
        exact step_of_settle (.inr at_) signalled
    · cases made
    · cases made
  | take =>
    simp only [step?, takeStep?] at made
    split at made
    · cases made
    next job queue queued =>
      split at made
      next idle =>
        cases made
        exact .took queued idle
      · cases made
  | work worker =>
    simp only [step?, workStep?] at made
    split at made
    · cases made
    next job at_ =>
      cases made
      exact .signalled at_
    next job command next at_ =>
      cases made
      exact .commanded at_

/-- A run: the moves that lead from one state to another, each with the state it was made in. -/
inductive Run (b : Batch σ) (s : State σ) : List (State σ × Move) → State σ → Prop where
  | refl : Run b s [] s
  | step {moves : List (State σ × Move)} {t : State σ} {move : Move} {next : Logged (State σ)}
      (run : Run b s moves t) (made : b.step? t move = some next) :
      Run b s (moves ++ [(t, move)]) next.value

theorem Run.trans {u : State σ} {first second : List (State σ × Move)} (run : Run b s first t)
    (rest : Run b t second u) : Run b s (first ++ second) u := by
  -- By induction on the second run, which grows at its end.
  induction rest with
  | refl => simpa using run
  | step _ made ih =>
    rw [← List.append_assoc]
    exact .step ih made

/-- What every move preserves holds after every run. -/
theorem Run.preserves {P : State σ → Prop} (kept : ∀ s move t, Step b s move t → P s → P t)
    {moves : List (State σ × Move)} (run : Run b s moves t) (initial : P s) : P t := by
  induction run with
  | refl => exact initial
  | step _ made ih => exact kept _ _ _ (step_of_step? made) ih

/-- Makes moves one after another, if all of them can be made. -/
def replay? (b : Batch σ) (s : State σ) : List Move → Option (State σ)
  | [] => some s
  | move :: rest => (b.step? s move).bind fun next => b.replay? next.value rest

theorem run_of_replay? {moves : List Move} (made : b.replay? s moves = some t) :
    ∃ trace, trace.map Prod.snd = moves ∧ Run b s trace t := by
  induction moves generalizing s with
  | nil =>
    cases made
    exact ⟨[], rfl, .refl⟩
  | cons move rest ih =>
    obtain ⟨next, first, tail⟩ := Option.bind_eq_some_iff.mp made
    obtain ⟨trace, same, run⟩ := ih tail
    exact ⟨_, by simp [same], (Run.refl.step first).trans run⟩

/-- The job that a worker begins with a move: it calls the callback for it. -/
def began : State σ × Move → List Job
  | (s, .take) => s.queue.take 1
  | (_, .frame) | (_, .work _) => []

/-- The job that ends with a move: its callback has returned. -/
def ended : State σ × Move → List Job
  | (s, .work worker) =>
    match s.running[worker]? with
    | some (job, .done ()) => [job]
    | _ => []
  | (_, .frame) | (_, .take) => []

end EntityWorld.Batch
