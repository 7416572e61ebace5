import EntityWorld.Loop.Stats

/-!
# Frame loop

Runs frames one after another until somebody asks it to stop, a frame fails, or there have been
enough:

```text
stop requested?  ──►  frame  ──►  record  ──►  enough?  ──►  wait for the next slot  ──►  …
```

A request to stop is a flag in the world's memory: an update can raise it, and so can somebody
outside. The loop looks at it before every frame and while it waits, and lowers it when it obeys. The
clock only decides whether the loop waits.
-/
namespace EntityWorld

structure LoopConfig where
  -- Target frames per second; 0 runs frames back to back.
  targetFps : Nat := 60
  -- Frames slower than this are over budget.
  budget : Duration := .ofMillis 33
  -- Stop after this many frames; 0 runs until stopped.
  maxFrames : Nat := 0
  deriving DecidableEq, Repr

namespace LoopConfig

/-- Time slot of one frame, if the rate is capped. -/
def frameTime? (c : LoopConfig) : Option Duration :=
  if c.targetFps > 0 then some ⟨Duration.nanosPerSecond / c.targetFps⟩ else none

/-- The slot after this one, and whether there is time to wait for it. A loop that is behind schedule
does not try to catch up. -/
def nextSlot (c : LoopConfig) (slot clock : Duration) : Duration × Bool :=
  match c.frameTime? with
  | none => (slot, false)
  | some frameTime =>
    let next : Duration := ⟨slot.nanos + frameTime.nanos⟩
    if next.nanos ≤ clock.nanos then (clock, false) else (next, true)

end LoopConfig

/-- Where in the memory the request to stop is kept. -/
structure StopFlag (σ : Type) where
  isRaised : σ → Bool
  raise : σ → σ
  lower : σ → σ

namespace StopFlag

variable {σ : Type}

def isPending (flag : StopFlag σ) (w : World σ) : Bool := flag.isRaised w.shared.memory

/-- Somebody outside asks to stop, or nobody does. -/
def hear (flag : StopFlag σ) (asked : Bool) (w : World σ) : World σ :=
  if asked then { w with shared.memory := flag.raise w.shared.memory } else w

def obey (flag : StopFlag σ) (w : World σ) : World σ :=
  { w with shared.memory := flag.lower w.shared.memory }

end StopFlag

/-- What happens outside around one frame. -/
structure Tick where
  -- Somebody asks to stop before the loop looks whether to run the frame.
  askedBefore : Bool := false
  timing : Timing := .zero
  -- What the clock shows after the frame.
  clock : Duration := .zero
  -- Somebody asks to stop after the frame, while the loop waits at the latest.
  askedAfter : Bool := false

structure FrameLoop where
  config : LoopConfig
  stats : StatsSum
  deriving DecidableEq, Repr

inductive LoopEnd where
  | stopped (frames : Nat)
  | failed (cause : Failure WorldError)
  -- There was no further tick.
  | outOfTicks (frames : Nat)
  deriving DecidableEq, Repr

namespace FrameLoop

variable {σ : Type}

def new (config : LoopConfig) : FrameLoop := ⟨config, .ofBudget config.budget⟩

private def note (level : Level) (message : String) (fields : List (String × FieldValue)) :
    Logged Unit :=
  Logged.emit { level, target := "cadence", message, fields }

def finish (l : FrameLoop) (frames : Nat) (w : World σ) :
    Logged (LoopEnd × FrameLoop × World σ) := do
  note .debug "frame loop stopped" [("frames", .printed (toString frames))]
  return (.stopped frames, l, w)

def record (l : FrameLoop) (report : FrameReport) : Logged (Except Fault Unit × FrameLoop) :=
  match FrameStats.ofReport report with
  | .error fault => return (.error fault, l)
  | .ok stats => do
    match l.stats.record stats with
    | (.error fault, sum) => return (.error fault, { l with stats := sum })
    | (.ok late, sum) =>
      if late then
        note .warn "frame exceeded budget"
          [("frame", .printed (toString stats.frame)),
           ("elapsed_us", .printed (toString stats.totalMicros)),
           ("budget_us", .printed (toString l.config.budget.micros))]
      return (.ok (), { l with stats := sum })

/-- Goes on after some frames, the last of which had this slot. -/
def runFrom (flag : StopFlag σ) (frames : Nat) (slot : Duration) : List Tick → FrameLoop → World σ →
    Logged (LoopEnd × FrameLoop × World σ)
  | [], l, w =>
    if flag.isPending w then finish l frames (flag.obey w) else return (.outOfTicks frames, l, w)
  | tick :: rest, l, w =>
    let w := flag.hear tick.askedBefore w
    if flag.isPending w then finish l frames (flag.obey w)
    else do
      match ← w.runFrame tick.timing with
      | (.error failure, w) => return (.failed failure, l, w)
      | (.ok report, w) =>
        match ← l.record report with
        | (.error fault, l) => return (.failed (.fault fault), l, w)
        | (.ok (), l) =>
          let w := flag.hear tick.askedAfter w
          if l.config.maxFrames ≠ 0 ∧ frames + 1 ≥ l.config.maxFrames then
            finish l (frames + 1) w
          else
            let (slot, waits) := l.config.nextSlot slot tick.clock
            if waits && flag.isPending w then finish l (frames + 1) (flag.obey w)
            else runFrom flag (frames + 1) slot rest l w

/-- Runs frames; there is one tick for each that may be run. The clock shows `begun` at first. -/
def run (l : FrameLoop) (flag : StopFlag σ) (ticks : List Tick) (w : World σ)
    (begun : Duration := .zero) : Logged (LoopEnd × FrameLoop × World σ) :=
  runFrom flag 0 begun ticks l w

end FrameLoop

end EntityWorld
