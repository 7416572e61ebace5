/-!
# Fences, phases and update modes, by name

A fence is a named checkpoint of the frame. Three of them always exist: new entities become alive
after the first, updates run on the second unless they say otherwise, and entities on their way out
are destroyed after the last.
-/
namespace EntityWorld

structure FenceId where
  name : String
  deriving DecidableEq, Repr

namespace FenceId

def register : FenceId := ⟨"Register"⟩

def update : FenceId := ⟨"Update"⟩

def unregister : FenceId := ⟨"Unregister"⟩

/-- The fences that always exist, in order. -/
def builtins : List FenceId := [register, update, unregister]

def isBuiltin (f : FenceId) : Bool := builtins.contains f

end FenceId

inductive Phase where
  | uninitialized
  | acceptingFences
  | acceptingUpdates
  -- A pass is executing.
  | running
  | steady
  deriving DecidableEq, Repr

namespace Phase

def text : Phase → String
  | .uninitialized => "Uninitialized"
  | .acceptingFences => "AcceptingFences"
  | .acceptingUpdates => "AcceptingUpdates"
  | .running => "Running"
  | .steady => "Steady"

def ofText? (s : String) : Option Phase :=
  [uninitialized, acceptingFences, acceptingUpdates, running, steady].find? fun p => p.text == s

end Phase

/-- How an update is executed within its fence. -/
inductive UpdateMode where
  -- Once, on the frame thread, before any concurrent update.
  | serial
  -- Once per sub-task, one after another on the frame thread.
  | serialDistributed
  -- Once, on a worker, after lock admission.
  | concurrent
  -- Once per sub-task on workers, under one lock admission.
  | concurrentDistributed
  deriving DecidableEq, Repr

namespace UpdateMode

def isSerial : UpdateMode → Bool
  | .serial | .serialDistributed => true
  | .concurrent | .concurrentDistributed => false

def isDistributed : UpdateMode → Bool
  | .serialDistributed | .concurrentDistributed => true
  | .serial | .concurrent => false

def text : UpdateMode → String
  | .serial => "Serial"
  | .serialDistributed => "SerialDistributed"
  | .concurrent => "Concurrent"
  | .concurrentDistributed => "ConcurrentDistributed"

def ofText? (s : String) : Option UpdateMode :=
  [serial, serialDistributed, concurrent, concurrentDistributed].find? fun mode => mode.text == s

/-- Number of sub-tasks an update is run as. -/
def taskCount (mode : UpdateMode) (distributedTasks : Nat) : Nat :=
  if mode.isDistributed then max distributedTasks 1 else 1

end UpdateMode

end EntityWorld
