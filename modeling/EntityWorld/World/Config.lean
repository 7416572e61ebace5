import EntityWorld.Error

/-!
# World configuration

Runtime parameters, fixed when a world is built.
-/
namespace EntityWorld

structure WorldConfig where
  -- Upper bound on concurrent updates in flight.
  workerThreads : Nat
  -- Sub-tasks of a distributed update.
  distributedTasks : Nat
  -- Pending rows reserved per collection.
  pendingCapacity : Nat
  -- Log a timing summary after every frame.
  logFrameTimings : Bool
  deriving DecidableEq, Repr

namespace WorldConfig

/-- What a file that sets nothing gets on a machine with this many processors. -/
def forCores (cores : Nat) : WorldConfig := ⟨cores, cores, 64, false⟩

/-- One worker and no distribution: one order of execution. -/
def singleThreaded : WorldConfig := ⟨1, 1, 16, false⟩

instance : Inhabited WorldConfig := ⟨singleThreaded⟩

def validate (c : WorldConfig) : Except WorldError Unit :=
  if c.workerThreads = 0 then .error (.invalidConfig "worker_threads must be at least 1")
  else if c.distributedTasks = 0 then .error (.invalidConfig "distributed_tasks must be at least 1")
  else .ok ()

def inspect (c : WorldConfig) : String :=
  Text.inspectRecord "WorldConfig"
    [("worker_threads", toString c.workerThreads),
     ("distributed_tasks", toString c.distributedTasks),
     ("pending_capacity", toString c.pendingCapacity),
     ("log_frame_timings", toString c.logFrameTimings)]

end WorldConfig

end EntityWorld
