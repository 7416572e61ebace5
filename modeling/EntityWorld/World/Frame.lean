import EntityWorld.World.Lifecycle

/-!
# Frames

One frame goes through the world in five steps:

```text
commit      waiting entities get their collections, pending rows move over, destroyed rows are
            swept and their raw ids recycled
rebind      the index is rebuilt if it is stale, and systems are told
declare     systems declare their updates
execute     fences, in order
lifecycle   after every fence
```

If a system fails to declare, the frame is abandoned: what was scheduled for it alone is dropped,
and the life-state changes it owed are left to the next one.
-/
namespace EntityWorld

structure FrameReport where
  -- Number of the frame, counted from 1.
  frame : Nat
  migrated : Nat
  removed : Nat
  indexRebuilt : Bool
  pass : PassReport
  lifecycle : LifecycleReport
  elapsed : Duration
  deriving DecidableEq, Repr

namespace World

variable {σ : Type}

def materialize : List Deferred → World σ → Logged (Except WorldError Unit × World σ)
  | [], w => return (.ok (), w)
  | entry :: rest, w => do
    match ← w.shared.store.getOrCreate w.shared.registry entry.sequence with
    | (.error cause, store) => return (.error (.collection cause), { w with shared.store := store })
    | (.ok a, store) =>
      match store.create a entry.id with
      | (.error cause, store) => return (.error cause, { w with shared.store := store })
      | (.ok (), store) => materialize rest { w with shared.store := store }

def recycle : List EntityId → World σ → Logged (Except Fault Unit × World σ)
  | [], w => return (.ok (), w)
  | id :: rest, w => do
    match ← w.shared.allocator.release .strict id with
    | (.error misuse, allocator) =>
      return (.error (.misuse misuse), { w with shared.allocator := allocator })
    | (.ok (), allocator) => recycle rest { w with shared.allocator := allocator }

/-- Notes the life-state changes this frame owes, beside those an abandoned frame left. -/
def oweChanges (w : World σ) (commit : CommitReport) : World σ :=
  let fresh := commit.migrated.toList.filter fun id => id.life = .register
  { w with
    registering := w.registering ++ fresh.map EntityId.raw
    unregistering := w.unregistering ++ w.nextUnregistering
    nextUnregistering := [] }

/-- The first step of a frame. -/
def commit (w : World σ) : Logged (Except (Failure WorldError) CommitReport × World σ) := do
  match ← materialize w.shared.deferred { w with shared.deferred := [] } with
  | (.error cause, w) => return (.error (.error cause), w)
  | (.ok (), w) =>
    match ← w.shared.store.commit with
    | (.error (.error cause), store) =>
      return (.error (.error (.collection cause)), { w with shared.store := store })
    | (.error (.fault fault), store) =>
      return (.error (.fault fault), { w with shared.store := store })
    | (.ok report, store) =>
      match ← recycle report.removed.toList { w with shared.store := store } with
      | (.error fault, w) => return (.error (.fault fault), w)
      | (.ok (), w) => return (.ok report, w.oweChanges report)

/-- The second step: says whether the index was rebuilt. -/
def refresh (w : World σ) : Logged (Bool × World σ) := do
  let (rebuilt, store) ← w.shared.store.refreshIndex w.shared.registry.kindCount
  let w := { w with shared.store := store }
  if rebuilt then return (true, ← rebind w.systems w)
  else return (false, w)

/-- The third step: lets systems declare in order. The first failure is answered with the name of
its system. -/
def declare : List (System σ) → World σ → Logged (Except (String × WorldError) Unit × World σ)
  | [], w => return (.ok (), w)
  | system :: rest, w => do
    match ← system.declare.run performDeclaration w with
    | (.error cause, w) => return (.error (system.name, cause), w)
    | (.ok (), w) => declare rest w

/-- Drops what was scheduled for the frame alone. -/
def abandon (w : World σ) (frame : Nat) (culprit : String) (cause : WorldError) :
    Logged (World σ) := do
  let (dropped, scheduler) := w.scheduler.discardOneShots
  note .warn "frame abandoned"
    [("frame", .printed (toString frame)), ("culprit", .string culprit),
     ("dropped", .printed (toString dropped)),
     ("registering", .printed (toString w.registering.length)),
     ("unregistering", .printed (toString w.unregistering.length)),
     ("err", .printed cause.message)]
  return { w with scheduler }

/-- Executes fences in turn, each with its boundary. -/
def executeFences (timing : Timing) : List FenceId → List FenceReport → LifecycleReport → World σ →
    Logged (Except (Failure FenceError) (List FenceReport × LifecycleReport) × World σ)
  | [], reports, life, w => return (.ok (reports, life), w)
  | fence :: rest, reports, life, w => do
    match ← w.scheduler.runFence fence (timing.fence fence) w.shared with
    | (.error failure, scheduler, shared) =>
      return (.error failure, { w with scheduler, shared })
    | (.ok report, scheduler, shared) =>
      match ← World.applyBoundary { w with scheduler, shared } fence life with
      | (.error fault, w) => return (.error (.fault fault), w)
      | (.ok life, w) => executeFences timing rest (reports ++ [report]) life w

/-- The fourth and fifth step. A fault leaves the pass running. -/
def execute (w : World σ) (timing : Timing) :
    Logged (Except (Failure FenceError) (PassReport × LifecycleReport) × World σ) :=
  match w.scheduler.beginPass with
  | (.error cause, scheduler) =>
    return (.error (.error cause), { w with scheduler := scheduler.endPass })
  | (.ok frame, scheduler) => do
    match ← executeFences timing scheduler.order [] .none { w with scheduler } with
    | (.error (.fault fault), w) => return (.error (.fault fault), w)
    | (.error (.error cause), w) =>
      return (.error (.error cause), { w with scheduler := w.scheduler.endPass })
    | (.ok (fences, life), w) =>
      return (.ok (⟨frame, fences⟩, life), { w with scheduler := w.scheduler.endPass })

private def logFrame (config : WorldConfig) (report : FrameReport) : Logged Unit :=
  if config.logFrameTimings then
    note .info "frame timings"
      [("frame", .printed (toString report.frame)),
       ("elapsed_us", .printed (toString report.elapsed.micros)),
       ("updates", .printed (toString report.pass.updates)),
       ("retries", .printed (toString report.pass.retries))]
  else
    note .debug "frame complete"
      [("frame", .printed (toString report.frame)),
       ("migrated", .printed (toString report.migrated)),
       ("removed", .printed (toString report.removed))]

/-- A frame from the declarations on. -/
def playFrame (w : World σ) (timing : Timing) (commit : CommitReport) (indexRebuilt : Bool) :
    Logged (Except (Failure WorldError) FrameReport × World σ) := do
  let frame := w.frame + 1
  match ← declare w.systems w with
  | (.error (culprit, cause), w) =>
    return (.error (.error cause), ← w.abandon frame culprit cause)
  | (.ok (), w) =>
    match ← w.execute timing with
    | (.error (.fault fault), w) => return (.error (.fault fault), w)
    | (.error (.error cause), w) =>
      return (.error (.error (.fence cause)), ← w.abandon frame "scheduler" (.fence cause))
    | (.ok (pass, lifecycle), w) =>
      let report : FrameReport :=
        { frame := pass.frame
          migrated := commit.migrated.size
          removed := commit.removed.size
          indexRebuilt
          pass
          lifecycle
          elapsed := timing.frame }
      logFrame w.config report
      return (.ok report, w)

/-- Runs one frame. An error abandons it; a fault ends it where it stands. -/
def runFrame (w : World σ) (timing : Timing) :
    Logged (Except (Failure WorldError) FrameReport × World σ) := Logged.within span do
  match ← w.commit with
  | (.error failure, w) => return (.error failure, w)
  | (.ok commit, w) =>
    let (rebuilt, w) ← w.refresh
    match w.scheduler.openDeclarations with
    | (.error cause, scheduler) =>
      return (.error (.error (.fence cause)), { w with scheduler })
    | (.ok (), scheduler) => playFrame { w with scheduler } timing commit rebuilt

/-- Stops every update and shuts systems down, the last one first. Answers how many constant updates
were stopped, and the memory. -/
def shutDown (w : World σ) : Logged (Nat × σ) := Logged.within span do
  let stopped := w.scheduler.clearUpdates.1
  let memory ← w.systems.reverse.foldlM (fun memory system => system.shutDown memory) w.shared.memory
  note .info "world shut down"
    [("frames", .printed (toString w.frame)), ("stopped", .printed (toString stopped))]
  return (stopped, memory)

end World

end EntityWorld
