import EntityWorld.Fence.Batch
import EntityWorld.Fence.Order
import EntityWorld.Fence.Report
import EntityWorld.World.Config

/-!
# Fence scheduler

Fences are executed in one fixed order in every pass. The order is frozen when registration ends;
updates are declared between passes:

```text
Uninitialized -> AcceptingFences -> AcceptingUpdates -> Running -> Steady
                                          ^                          |
                                          +---- open declarations ---+
```

One execution of a fence runs its serial updates on the frame thread, in the order they were
declared, and then its concurrent updates as a batch.
-/
namespace EntityWorld

/-- A declared update. The sequence number is its place among all declarations. -/
structure ScheduledUpdate (σ : Type) where
  update : Update σ
  sequence : Nat

structure Fence (σ : Type) where
  id : FenceId
  -- Updates for the next execution only.
  oneShots : List (ScheduledUpdate σ)
  -- Updates for every execution until they are stopped.
  constants : List (ScheduledUpdate σ)

namespace Fence

variable {σ : Type}

def empty (id : FenceId) : Fence σ := ⟨id, [], []⟩

def runsConstant (f : Fence σ) (name : String) : Bool :=
  f.constants.any fun u => u.update.name == name

/-- What the next execution runs, in the order of declaration. -/
def due (f : Fence σ) : List (Update σ) :=
  ((f.oneShots ++ f.constants).mergeSort fun a b => a.sequence ≤ b.sequence).map
    ScheduledUpdate.update

end Fence

structure Scheduler (σ : Type) where
  phase : Phase
  -- In execution order.
  fences : List (Fence σ)
  -- In the order they were made.
  requests : List FenceRequest
  -- Number of registered component kinds, which declared access is checked against.
  kindCount : Nat
  workers : Nat
  tasks : Nat
  nextSequence : Nat
  -- Number of passes begun.
  frame : Nat

namespace Scheduler

variable {σ : Type}

def span : Span := ⟨"fence_scheduler", .debug, "cadence_core::sync::fence"⟩

private def note (level : Level) (message : String) (fields : List (String × FieldValue)) :
    Logged Unit :=
  Logged.emit { level, target := "cadence_core::sync::fence", message, fields }

def builtinFences : List (Fence σ) := FenceId.builtins.map Fence.empty

def new (config : WorldConfig) (kindCount : Nat) : Scheduler σ :=
  { phase := .uninitialized
    fences := builtinFences
    requests := []
    kindCount
    workers := max config.workerThreads 1
    tasks := max config.distributedTasks 1
    nextSequence := 0
    frame := 0 }

def order (s : Scheduler σ) : List FenceId := s.fences.map Fence.id

def fenceCount (s : Scheduler σ) : Nat := s.fences.length

def fence? (s : Scheduler σ) (id : FenceId) : Option (Fence σ) := s.fences.find? fun f => f.id = id

/-- Changes the first fence with this name. -/
def modifyFence (s : Scheduler σ) (id : FenceId) (change : Fence σ → Fence σ) : Scheduler σ :=
  match s.fences.findIdx? fun f => f.id = id with
  | none => s
  | some place => { s with fences := s.fences.modify place change }

/-- Refuses an operation outside the phases it belongs to. -/
def expectPhase (s : Scheduler σ) (allowed : List Phase) (operation : String) :
    Except FenceError Unit :=
  if s.phase ∈ allowed then .ok () else .error (.wrongPhase operation s.phase)

/-! ### Registration -/

def beginRegistration (s : Scheduler σ) : Except FenceError Unit × Scheduler σ :=
  match s.expectPhase [.uninitialized] "begin_fence_registration" with
  | .error cause => (.error cause, s)
  | .ok () => (.ok (), { s with phase := .acceptingFences })

def refusal? (s : Scheduler σ) (r : FenceRequest) : Option FenceError :=
  if r.fence = r.target then some (.selfTarget r.fence)
  else if r.fence.isBuiltin || s.requests.any fun other => other.fence = r.fence then
    some (.duplicateFence r.fence)
  else if r.anchor = .before ∧ r.target = .register then some (.beforeRegister r.fence)
  else if r.anchor = .after ∧ r.target = .unregister then some (.afterUnregister r.fence)
  else none

def request (s : Scheduler σ) (r : FenceRequest) : Except FenceError Unit × Scheduler σ :=
  match s.expectPhase [.acceptingFences] r.anchor.operation with
  | .error cause => (.error cause, s)
  | .ok () =>
    match s.refusal? r with
    | some cause => (.error cause, s)
    | none => (.ok (), { s with requests := s.requests ++ [r] })

/-- Places the requested fences and freezes the order. On failure only the built-in fences are left,
and every request is dropped. -/
def finalize (s : Scheduler σ) : Logged (Except FenceError Unit × Scheduler σ) :=
  match s.expectPhase [.acceptingFences] "finalize" with
  | .error cause => return (.error cause, s)
  | .ok () => Logged.within span do
    match fenceOrder s.requests with
    | .error cause =>
      if let .unresolvedFences fences := cause then
        note .warn "fence requests could not be placed"
          [("unresolved", .printed (Text.inspectList (fences.map FenceId.name)))]
      return (.error cause, { s with requests := [], fences := builtinFences })
    | .ok order =>
      note .info "fence order finalized"
        [("order", .printed (Text.inspectList (order.map FenceId.name)))]
      return (.ok (),
        { s with requests := [], fences := order.map Fence.empty, phase := .acceptingUpdates })

/-! ### Declarations -/

def openDeclarations (s : Scheduler σ) : Except FenceError Unit × Scheduler σ :=
  match s.expectPhase [.acceptingUpdates, .steady] "open_declarations" with
  | .error cause => (.error cause, s)
  | .ok () => (.ok (), { s with phase := .acceptingUpdates })

def hasConstant (s : Scheduler σ) (name : String) : Bool := s.fences.any fun f => f.runsConstant name

/-- Checks what every declaration has to pass. -/
def admissible (s : Scheduler σ) (operation : String) (u : Update σ) (taken : Bool) :
    Except FenceError Unit := do
  s.expectPhase [.acceptingUpdates] operation
  if (s.fence? u.fence).isNone then throw (.fenceNotFound u.fence)
  if taken then throw (.duplicateUpdate u.name)
  u.validate s.kindCount

/-- Declares an update for the next execution of its fence only. -/
def schedule (s : Scheduler σ) (u : Update σ) : Logged (Except FenceError Unit × Scheduler σ) :=
  match s.admissible "schedule_update" u false with
  | .error cause => return (.error cause, s)
  | .ok () => do
    Logged.within span <| note .trace "one-shot update scheduled"
      [("update", .string u.name), ("fence", .printed u.fence.name)]
    let s := s.modifyFence u.fence fun f =>
      { f with oneShots := f.oneShots ++ [⟨u, s.nextSequence⟩] }
    return (.ok (), { s with nextSequence := s.nextSequence + 1 })

/-- Declares an update for every pass until it is stopped by name. -/
def startConstant (s : Scheduler σ) (u : Update σ) :
    Logged (Except FenceError Unit × Scheduler σ) :=
  match s.admissible "start_constant_update" u (s.hasConstant u.name) with
  | .error cause => return (.error cause, s)
  | .ok () => do
    Logged.within span <| note .debug "constant update started"
      [("update", .string u.name), ("fence", .printed u.fence.name), ("mode", .printed u.mode.text)]
    let s := s.modifyFence u.fence fun f =>
      { f with constants := f.constants ++ [⟨u, s.nextSequence⟩] }
    return (.ok (), { s with nextSequence := s.nextSequence + 1 })

def stopConstant (s : Scheduler σ) (name : String) :
    Logged (Except FenceError Unit × Scheduler σ) :=
  match s.expectPhase [.acceptingUpdates] "stop_constant_update" with
  | .error cause => return (.error cause, s)
  | .ok () =>
    match s.fences.findIdx? fun f => f.runsConstant name with
    | none => return (.error (.updateNotFound name), s)
    | some place => do
      Logged.within span <| note .debug "constant update stopped" [("update", .string name)]
      return (.ok (), { s with
        fences := s.fences.modify place fun f =>
          { f with constants := f.constants.eraseP fun u => u.update.name == name } })

/-- Drops everything that is declared; answers how many constant updates that stopped. -/
def clearUpdates (s : Scheduler σ) : Nat × Scheduler σ :=
  (total (s.fences.map fun f => f.constants.length),
    { s with fences := s.fences.map fun f => Fence.empty f.id })

/-- Drops one-shot updates without running them; answers how many. -/
def discardOneShots (s : Scheduler σ) : Nat × Scheduler σ :=
  (total (s.fences.map fun f => f.oneShots.length),
    { s with fences := s.fences.map fun f => { f with oneShots := [] } })

/-! ### Execution -/

/-- Starts a pass and answers its number. -/
def beginPass (s : Scheduler σ) : Except FenceError Nat × Scheduler σ :=
  match s.expectPhase [.acceptingUpdates, .steady] "begin_pass" with
  | .error cause => (.error cause, s)
  | .ok () => (.ok (s.frame + 1), { s with phase := .running, frame := s.frame + 1 })

def endPass (s : Scheduler σ) : Scheduler σ :=
  if s.phase = .running then { s with phase := .steady } else s

/-- Runs every sub-task of an update, one after another. -/
def runTasks (fence : FenceId) (frame tasks : Nat) (u : Update σ) :
    List Nat → Shared σ → Logged (Shared σ)
  | [], shared => return shared
  | task :: rest, shared => do
    let ((), shared) ← (u.program fence frame task tasks).run Access.perform shared
    runTasks fence frame tasks u rest shared

def runSerial (s : Scheduler σ) (fence : FenceId) : List (Update σ) → Shared σ → Logged (Shared σ)
  | [], shared => return shared
  | u :: rest, shared => do
    let tasks := u.mode.taskCount s.tasks
    let shared ← runTasks fence s.frame tasks u (List.range tasks) shared
    note .trace "serial update finished" [("update", .string u.name)]
    s.runSerial fence rest shared

def batch (s : Scheduler σ) (fence : FenceId) (updates : List (Update σ)) : Batch σ :=
  { fence, frame := s.frame, workers := s.workers, tasks := s.tasks, updates }

/-- Drops the one-shots of a fence that was executed. -/
def spend (s : Scheduler σ) (fence : FenceId) : Scheduler σ :=
  s.modifyFence fence fun f => { f with oneShots := [] }

/-- Failed admissions in one fence that are worth a warning. -/
def retryWarning : Nat := 1024

/-- Executes the updates of a fence and drops its one-shots. A fault in the batch ends the call: the
one-shots are gone all the same, and locks that were admitted stay held. -/
def runFence (s : Scheduler σ) (fence : FenceId) (elapsed : Duration) (shared : Shared σ) :
    Logged (Except (Failure FenceError) FenceReport × Scheduler σ × Shared σ) :=
  match s.expectPhase [.running] "run_fence", s.fence? fence with
  | .error cause, _ => return (.error (.error cause), s, shared)
  | .ok (), none => return (.error (.error (.fenceNotFound fence)), s, shared)
  | .ok (), some slot => Logged.within span do
    let (serial, concurrent) := slot.due.partition fun u => u.mode.isSerial
    let shared ← s.runSerial fence serial shared
    match ← (s.batch fence concurrent).run shared with
    | (.error fault, shared) => return (.error (.fault fault), s.spend fence, shared)
    | (.ok retries, shared) =>
      if retries > retryWarning then
        note .warn "lock admission retried repeatedly"
          [("fence", .printed fence.name), ("retries", .printed (toString retries))]
      note .debug "fence complete"
        [("fence", .printed fence.name), ("serial", .printed (toString serial.length)),
         ("concurrent", .printed (toString concurrent.length)),
         ("retries", .printed (toString retries))]
      let report : FenceReport :=
        { fence, serial := serial.length, concurrent := concurrent.length, retries, elapsed }
      return (.ok report, s.spend fence, shared)

/-- Executes fences in turn, up to the first that fails. -/
def runFences (timing : Timing) : List FenceId → List FenceReport → Scheduler σ → Shared σ →
    Logged (Except (Failure FenceError) (List FenceReport) × Scheduler σ × Shared σ)
  | [], reports, s, shared => return (.ok reports, s, shared)
  | fence :: rest, reports, s, shared => do
    match ← s.runFence fence (timing.fence fence) shared with
    | (.error failure, s, shared) => return (.error failure, s, shared)
    | (.ok report, s, shared) => runFences timing rest (reports ++ [report]) s shared

/-- Runs one whole pass. A fault leaves the pass running. -/
def runPass (s : Scheduler σ) (timing : Timing) (shared : Shared σ) :
    Logged (Except (Failure FenceError) PassReport × Scheduler σ × Shared σ) :=
  match s.beginPass with
  | (.error cause, s) => return (.error (.error cause), s, shared)
  | (.ok frame, s) => do
    match ← runFences timing s.order [] s shared with
    | (.ok fences, s, shared) => return (.ok ⟨frame, fences⟩, s.endPass, shared)
    | (.error (.error cause), s, shared) => return (.error (.error cause), s.endPass, shared)
    | (.error (.fault fault), s, shared) => return (.error (.fault fault), s, shared)

def inspect (s : Scheduler σ) : String :=
  Text.inspectOpenRecord "FenceScheduler"
    [("phase", s.phase.text), ("order", Text.inspectList (s.order.map FenceId.name)),
     ("frame", toString s.frame)]

end Scheduler

end EntityWorld
