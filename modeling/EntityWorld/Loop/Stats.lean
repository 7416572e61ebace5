import EntityWorld.Text.Decimal
import EntityWorld.World.Frame

/-!
# Frame statistics

Times of frames in whole microseconds, summed up over a run. Sums live in machine words; a sum that
leaves its word is a fault, and what was counted before it stays counted.
-/
namespace EntityWorld

structure FrameStats where
  frame : Nat
  totalMicros : Nat
  updates : Nat
  retries : Nat
  migrated : Nat
  removed : Nat
  deriving DecidableEq, Repr

def FrameStats.ofReport (r : FrameReport) : Except Fault FrameStats := do
  return {
    frame := r.frame
    totalMicros := r.elapsed.microsWord
    updates := ← word r.pass.updates
    retries := ← word r.pass.retries
    migrated := r.migrated
    removed := r.removed }

structure StatsSum where
  frames : Nat
  totalMicros : Nat
  minMicros : Nat
  maxMicros : Nat
  -- Frames that took longer than the budget.
  overBudget : Nat
  retries : Nat
  budgetMicros : Nat
  deriving DecidableEq, Repr

namespace StatsSum

/-- Nothing recorded yet. The smallest time starts at the largest word. -/
def ofBudget (budget : Duration) : StatsSum :=
  { frames := 0
    totalMicros := 0
    minMicros := wordBound - 1
    maxMicros := 0
    overBudget := 0
    retries := 0
    budgetMicros := budget.microsWord }

/-- Counts one frame; says whether it was over budget. -/
def record (a : StatsSum) (s : FrameStats) : Except Fault Bool × StatsSum :=
  let counted := { a with frames := a.frames + 1 }
  match word (a.totalMicros + s.totalMicros) with
  | .error fault => (.error fault, counted)
  | .ok totalMicros =>
    let timed := { counted with totalMicros }
    match word (a.retries + s.retries) with
    | .error fault => (.error fault, timed)
    | .ok retries =>
      let late := s.totalMicros > a.budgetMicros
      (.ok late,
        { timed with
          retries
          minMicros := min a.minMicros s.totalMicros
          maxMicros := max a.maxMicros s.totalMicros
          overBudget := if late then a.overBudget + 1 else a.overBudget })

private def quotient (a b : Nat) : Float := a.toUInt64.toFloat / b.toUInt64.toFloat

def averageMillis (a : StatsSum) : Float :=
  if a.frames = 0 then 0.0 else quotient a.totalMicros a.frames / 1000.0

def overBudgetRatio (a : StatsSum) : Float :=
  if a.frames = 0 then 0.0 else quotient a.overBudget a.frames

/-- Tells the log what was recorded. -/
def logSummary (a : StatsSum) : Logged Unit :=
  Logged.emit {
    level := .info
    target := "cadence"
    message := "frame statistics"
    fields := [
      ("frames", .printed (toString a.frames)),
      ("avg_ms", .printed (Text.fixed 3 a.averageMillis)),
      ("min_us", .printed (toString (if a.frames = 0 then 0 else a.minMicros))),
      ("max_us", .printed (toString a.maxMicros)),
      ("over_budget", .printed (toString a.overBudget)),
      ("retries", .printed (toString a.retries))] }

end StatsSum

end EntityWorld
