import EntityWorld.Duration
import EntityWorld.Fence.Id

/-!
# Fence and pass reports

What was executed, and how long it took. Times are measured outside: they are handed in, and only
reports show them.
-/
namespace EntityWorld

structure FenceReport where
  fence : FenceId
  serial : Nat
  concurrent : Nat
  retries : Nat
  elapsed : Duration
  deriving DecidableEq, Repr

structure PassReport where
  frame : Nat
  fences : List FenceReport
  deriving DecidableEq, Repr

namespace PassReport

/-- Updates executed in all fences. -/
def updates (p : PassReport) : Nat :=
  total (p.fences.map fun f => f.serial + f.concurrent)

def retries (p : PassReport) : Nat := total (p.fences.map FenceReport.retries)

/-- Summed time of the fences. -/
def elapsed (p : PassReport) : Except Fault Duration :=
  Duration.sum (p.fences.map FenceReport.elapsed)

end PassReport

/-- Measured times of a frame and of its fences. -/
structure Timing where
  frame : Duration
  fence : FenceId → Duration

namespace Timing

def zero : Timing := ⟨.zero, fun _ => .zero⟩

instance : Inhabited Timing := ⟨zero⟩

end Timing

end EntityWorld
