import EntityWorld.Proofs.Fence.BatchRun
import EntityWorld.World.Frame

/-!
# The life of a world, step by step

A world rests between public calls. A frame takes it through a commit, the declarations and then
fence after fence; after the updates of a fence, and before its boundary, workers may have made any
moves in any order. `Step` lists the steps, and `Reaches` the worlds that steps lead to, together with
the steps that were made.
-/
namespace EntityWorld

variable {σ : Type}

/-- The updates of a fence run: the serial ones, then the concurrent ones in any interleaving. -/
inductive FenceRun (s : Scheduler σ) (fence : FenceId) (shared : Shared σ) : Shared σ → Prop where
  | intro {slot : Fence σ} {serial concurrent : List (Update σ)} {b : Batch σ} {t : Batch.State σ}
      {moves : List (Batch.State σ × Batch.Move)} (running : s.phase = .running)
      (found : s.fence? fence = some slot)
      (due : slot.due.partition (fun u => u.mode.isSerial) = (serial, concurrent))
      (batch : b = s.batch fence concurrent)
      (run : Batch.Run b (b.start (s.runSerial fence serial shared).value) moves t)
      (closed : t.control = .closed) : FenceRun s fence shared t.shared

/-- Where a world stands. -/
inductive Moment (σ : Type) where
  -- Between public calls.
  | resting (w : World σ)
  -- After the commit of a frame.
  | declaring (w : World σ)
  -- Before the first of the fences that are left.
  | passing (w : World σ) (left : List FenceId)
  -- After the updates of a fence and before its boundary.
  | leaving (w : World σ) (fence : FenceId) (left : List FenceId)

def Moment.world : Moment σ → World σ
  | .resting w | .declaring w | .passing w _ | .leaving w _ _ => w

/-- What kind of step was made. -/
inductive Happening where
  -- A public call outside of a frame, other than the next one.
  | called
  -- A destroy request that is applied at once.
  | destroyed (raw : Nat)
  -- The commit that begins an attempt at a frame.
  | attempted (report : CommitReport)
  -- A system failed to declare.
  | abandoned
  | declared
  -- The updates of a fence have run.
  | executed (fence : FenceId)
  -- The boundary of a fence.
  | bounded (fence : FenceId)
  | finished
  deriving DecidableEq, Repr

def Happening.isAttempt : Happening → Bool
  | .attempted _ => true
  | _ => false

namespace World

inductive Step : Moment σ → Happening → Moment σ → Prop where
  | created (w : World σ) (d : DefinitionId) : Step (.resting w) .called (.resting (w.create d).2)
  | createdWith (w : World σ) (types : List TypeId) :
      Step (.resting w) .called (.resting (w.createWith types).2)
  | destroyed (w : World σ) (id : EntityId) :
      Step (.resting w) (.destroyed id.raw) (.resting (w.destroy id).value.2)
  | prioritised (w : World σ) (id : EntityId) (p : Priority) :
      Step (.resting w) .called (.resting (w.setPriority id p).2)
  | loaded (w : World σ) (d : DefinitionId) (state : LoadState) :
      Step (.resting w) .called (.resting (w.setDefinitionState d state).2)
  -- The frame thread uses the access that an update has.
  | accessed {α : Type} (w : World σ) (program : Program (Access.interface σ) α) :
      Step (.resting w) .called (.resting (w.access program).value.2)
  | attempted {w w' : World σ} {report : CommitReport} {scheduler : Scheduler σ}
      (committed : w.commit.value = (.ok report, w'))
      (opened : w'.refresh.value.2.scheduler.openDeclarations = (.ok (), scheduler)) :
      Step (.resting w) (.attempted report) (.declaring { w'.refresh.value.2 with scheduler })
  | abandoned {w w' : World σ} {culprit : String} {cause : WorldError} (frame : Nat)
      (failed : (declare w.systems w).value = (.error (culprit, cause), w')) :
      Step (.declaring w) .abandoned (.resting (w'.abandon frame culprit cause).value)
  | declared {w w' : World σ} {frame : Nat} {scheduler : Scheduler σ}
      (declared : (declare w.systems w).value = (.ok (), w'))
      (begun : w'.scheduler.beginPass = (.ok frame, scheduler)) :
      Step (.declaring w) .declared (.passing { w' with scheduler } scheduler.order)
  | executed {w : World σ} {fence : FenceId} {left : List FenceId} {shared : Shared σ}
      (ran : FenceRun w.scheduler fence w.shared shared) :
      Step (.passing w (fence :: left)) (.executed fence)
        (.leaving { w with scheduler := w.scheduler.spend fence, shared } fence left)
  | bounded {w w' : World σ} {fence : FenceId} {left : List FenceId} {life life' : LifecycleReport}
      (applied : (w.applyBoundary fence life).value = (.ok life', w')) :
      Step (.leaving w fence left) (.bounded fence) (.passing w' left)
  | finished (w : World σ) :
      Step (.passing w []) .finished (.resting { w with scheduler := w.scheduler.endPass })

/-- A step that was made, with what was before and after it. -/
structure Passage (σ : Type) where
  before : Moment σ
  what : Happening
  after : Moment σ

/-- The moments that steps lead to from a new world, with the steps that were made, oldest first. -/
inductive Reaches (w₀ : World σ) : List (Passage σ) → Moment σ → Prop where
  | start : Reaches w₀ [] (.resting w₀)
  | step {past : List (Passage σ)} {m m' : Moment σ} {what : Happening} (reached : Reaches w₀ past m)
      (step : Step m what m') : Reaches w₀ (past ++ [⟨m, what, m'⟩]) m'

/-- What every step preserves holds wherever steps lead. -/
theorem Reaches.preserves {P : Moment σ → Prop} (kept : ∀ m what m', Step m what m' → P m → P m')
    {w₀ : World σ} {past : List (Passage σ)} {m : Moment σ} (reached : Reaches w₀ past m)
    (initial : P (.resting w₀)) : P m := by
  induction reached with
  | start => exact initial
  | step _ step ih => exact kept _ _ _ step ih

end World

end EntityWorld
