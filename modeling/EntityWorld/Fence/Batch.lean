import EntityWorld.Fence.Admission
import EntityWorld.Total

/-!
# Batches of concurrent updates

The frame thread and the workers run the concurrent updates of one fence together. The frame thread
goes through the waiting updates in order and admits what the lock table and the number of workers
allow; an admitted update is sent to the workers as one job per sub-task. Workers take jobs in order
and signal each one they finish. After a signal the frame thread settles it, and whatever other
signals are there already, and goes through the waiting updates again.

`step?` is one indivisible move of the frame thread or of a worker, so every interleaving is a list
of moves. `run` is the execution in which a job, once taken, runs to its end before anything else
happens.
-/
namespace EntityWorld

/-- The concurrent updates of one fence, in the order they were declared. -/
structure Batch (σ : Type) where
  fence : FenceId
  frame : Nat
  -- Updates that may be in flight at once.
  workers : Nat
  -- Sub-tasks of a distributed update.
  tasks : Nat
  updates : List (Update σ)

namespace Batch

/-- One sub-task of the update at a place of the batch. -/
structure Job where
  update : Nat
  task : Nat
  deriving DecidableEq, Repr

/-- How far an update has come. -/
inductive Stage where
  | waiting
  | inFlight (remaining : Nat)
  | finished
  deriving DecidableEq, Repr

/-- What the frame thread does next. -/
inductive Control where
  -- Goes through the waiting updates, from this place on.
  | admitting (place : Nat)
  -- Sends the jobs of the update it has just admitted, from this sub-task on.
  | sending (place task : Nat)
  -- Waits for a signal.
  | receiving
  -- Settles signals that are there already.
  | draining
  -- Has seen every update finish.
  | closed
  -- Was stopped; what is in the queue still runs.
  | stopped (cause : Fault)
  deriving DecidableEq, Repr

structure State (σ : Type) where
  control : Control
  stages : List Stage
  inFlight : Nat
  -- Jobs no worker has taken, oldest first.
  queue : List Job
  -- Jobs the workers are at, with what is left of each.
  running : List (Job × Program (Access.interface σ) Unit)
  -- Signals not settled yet, oldest first: the place of each finished job's update.
  signals : List Nat
  retries : Nat
  shared : Shared σ

variable {σ : Type}

def jobsOf (place count : Nat) : List Job := (List.range count).map (Job.mk place)

def taskCount (b : Batch σ) (u : Update σ) : Nat := u.mode.taskCount b.tasks

def totalJobs (b : Batch σ) : Nat := total (b.updates.map b.taskCount)

def program (b : Batch σ) (job : Job) : Program (Access.interface σ) Unit :=
  match b.updates[job.update]? with
  | none => .done ()
  | some u => u.program b.fence b.frame job.task (b.taskCount u)

def start (b : Batch σ) (shared : Shared σ) : State σ :=
  { control := .admitting 0
    stages := b.updates.map fun _ => .waiting
    inFlight := 0
    queue := []
    running := []
    signals := []
    retries := 0
    shared }

/-- Tries to admit the update at a place, if it waits and a worker is left for it. -/
def consider (b : Batch σ) (place : Nat) (s : State σ) : Logged (State σ) :=
  let passed := { s with control := .admitting (place + 1) }
  match b.updates[place]?, s.stages[place]? with
  | some u, some .waiting =>
    if s.inFlight < b.workers then do
      let (result, locks) ← u.takeLocks s.shared.locks
      let shared := { s.shared with locks }
      match result with
      | .error misuse => return { s with control := .stopped (.misuse misuse), shared }
      | .ok false => return { passed with retries := s.retries + 1, shared }
      | .ok true =>
        return { s with
          control := .sending place 0
          stages := s.stages.set place (.inFlight (b.taskCount u))
          shared }
    else return passed
  | _, _ => return passed

def tasksAt (b : Batch σ) (place : Nat) : Nat := (b.updates[place]?.map b.taskCount).getD 0

/-- Sends the next job of an admitted update. After the last one the update counts as in flight. -/
def send (b : Batch σ) (place task : Nat) (s : State σ) : State σ :=
  if task < b.tasksAt place then
    { s with control := .sending place (task + 1), queue := s.queue ++ [⟨place, task⟩] }
  else { s with control := .admitting (place + 1), inFlight := s.inFlight + 1 }

private def note (u : Update σ) : Logged Unit :=
  Logged.emit {
    level := .trace
    target := "cadence_core::sync::fence"
    message := "concurrent update finished"
    fields := [("update", .string u.name)] }

/-- Counts one finished job of the update at a place. The last one gives the locks back. A signal
that no job owes takes the count below zero. -/
def settle (b : Batch σ) (place : Nat) (s : State σ) : Logged (State σ) :=
  match b.updates[place]?, s.stages[place]? with
  | some u, some (.inFlight (remaining + 1)) =>
    let s := { s with stages := s.stages.set place (.inFlight remaining) }
    if remaining > 0 then return s
    else do
      let (result, locks) ← u.returnLocks s.shared.locks
      let shared := { s.shared with locks }
      match result with
      | .error misuse => return { s with control := .stopped (.misuse misuse), shared }
      | .ok () =>
        note u
        return { s with
          stages := s.stages.set place .finished
          inFlight := s.inFlight - 1
          shared }
  | _, _ => return { s with control := .stopped .overflow }

def isDone (s : State σ) : Bool := s.inFlight == 0 && !s.stages.contains .waiting

/-- Where the frame thread goes when no signal is left to settle. -/
def afterSignals (s : State σ) : Control := if isDone s then .closed else .admitting 0

inductive Move where
  | frame
  -- An idle worker takes the first job of the queue.
  | take
  -- The worker at this place of `running` gives one command, or signals that its job is done.
  | work (worker : Nat)
  deriving DecidableEq, Repr

/-- The frame thread's move. It has none while it waits for a signal and when it has ended. -/
def frameStep? (b : Batch σ) (s : State σ) : Option (Logged (State σ)) :=
  match s.control with
  | .admitting place =>
    if place < b.updates.length then some (b.consider place s)
    else some (return { s with control := if s.inFlight = 0 then afterSignals s else .receiving })
  | .sending place task => some (return b.send place task s)
  | .receiving =>
    match s.signals with
    | [] => none
    | place :: signals => some (b.settle place { s with control := .draining, signals })
  | .draining =>
    match s.signals with
    | [] => some (return { s with control := afterSignals s })
    | place :: signals => some (b.settle place { s with signals })
  | .closed | .stopped _ => none

def takeStep? (b : Batch σ) (s : State σ) : Option (State σ) :=
  match s.queue with
  | [] => none
  | job :: queue =>
    if s.running.length < b.workers then
      some { s with queue, running := s.running ++ [(job, b.program job)] }
    else none

def workStep? (worker : Nat) (s : State σ) : Option (State σ) :=
  match s.running[worker]? with
  | none => none
  | some (job, .done ()) =>
    some { s with running := s.running.eraseIdx worker, signals := s.signals ++ [job.update] }
  | some (job, .call command next) =>
    let (answer, shared) := (Access.perform command s.shared).value
    some { s with running := s.running.set worker (job, next answer), shared }

/-- Makes a move, if it can be made. The log belongs to the frame thread: what workers log is not
part of it. -/
def step? (b : Batch σ) (s : State σ) : Move → Option (Logged (State σ))
  | .frame => b.frameStep? s
  | .take => (b.takeStep? s).map pure
  | .work worker => (workStep? worker s).map pure

def finishJob (b : Batch σ) (job : Job) (s : State σ) : State σ :=
  { s with shared := ((b.program job).run Access.perform s.shared).value.2 }

/-- Sends every job of the update it has just admitted, if it has. -/
def sendAll (b : Batch σ) (s : State σ) : State σ :=
  match s.control with
  | .sending place _ =>
    { s with
      control := .admitting (place + 1)
      inFlight := s.inFlight + 1
      queue := s.queue ++ jobsOf place (b.tasksAt place) }
  | _ => s

def admitFrom (b : Batch σ) : List Nat → State σ → Logged (State σ)
  | [], s => return s
  | place :: rest, s => do
    let s ← b.consider place s
    match s.control with
    | .stopped _ => return s
    | _ => b.admitFrom rest (b.sendAll s)

/-- Runs what is in the queue; nobody settles it. -/
def runOut (b : Batch σ) (s : State σ) : State σ :=
  { s.queue.foldl (fun s job => b.finishJob job s) s with queue := [] }

/-- Admits, runs one job and settles it, again and again. Every round runs a job, so as many rounds
as jobs are enough. -/
def rounds (b : Batch σ) : Nat → State σ → Logged (State σ)
  | 0, s => return s
  | fuel + 1, s => do
    let s ← b.admitFrom (List.range b.updates.length) s
    match s.control, s.queue with
    | .stopped _, _ => return b.runOut s
    | _, [] => return { s with control := .stopped .stalled }
    | _, job :: queue =>
      let s ← b.settle job.update { b.finishJob job { s with queue } with control := .draining }
      match s.control with
      | .stopped _ => return b.runOut s
      | _ =>
        let s := { s with control := afterSignals s }
        match s.control with
        | .closed => return s
        | _ => b.rounds fuel s

/-- Runs the batch and answers how many admissions failed. -/
def run (b : Batch σ) (shared : Shared σ) : Logged (Except Fault Nat × Shared σ) :=
  if b.updates.isEmpty then return (.ok 0, shared)
  else
    match word b.totalJobs with
    | .error fault => return (.error fault, shared)
    | .ok jobs => do
      let s ← b.rounds jobs (b.start shared)
      match s.control with
      | .stopped fault => return (.error fault, s.shared)
      | _ => return (.ok s.retries, s.shared)

end Batch

end EntityWorld
