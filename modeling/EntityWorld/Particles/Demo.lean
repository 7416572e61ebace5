import EntityWorld.Loop.FrameLoop
import EntityWorld.Particles.Systems
import EntityWorld.Trace.Filter
import EntityWorld.World.ConfigFile

/-!
# Particle demo

A world of particles run for a fixed number of frames. What it tells the log is its output; an error
is told on its own.
-/
namespace EntityWorld.Particles

def demoLoop : LoopConfig := { targetFps := 60, budget := .ofMillis 16, maxFrames := 120 }

private def note (message : String) (fields : List (String × String)) : Logged Unit :=
  Logged.emit {
    level := .info, target := logTarget, message
    fields := fields.map fun (name, text) => (name, .printed text) }

/-- Runs the demo with a configuration. -/
def run (config : WorldConfig) : Logged (Except (Failure WorldError) Unit) := do
  note "starting fence demo" [("config", config.inspect)]
  let types := components.map ComponentType.concrete
  match ← World.new config types systems ({} : Memory) with
  | .error (cause, _) => return .error (.error cause)
  | .ok w =>
    note "fence order" [("fences", Text.inspectList (w.fenceOrder.map (·.name)))]
    let flag : StopFlag Memory := ⟨fun _ => false, id, id⟩
    let ticks := List.replicate demoLoop.maxFrames ({} : Tick)
    match ← (FrameLoop.new demoLoop).run flag ticks w with
    | (.failed failure, _) => return .error failure
    | (.stopped frames, l, w) | (.outOfTicks frames, l, w) =>
      l.stats.logSummary
      note "demo finished"
        [("frames", toString frames), ("spawned", toString w.shared.memory.spawned),
         ("live", toString w.liveEntities)]
      let _ ← w.shutDown
      return .ok ()

/-- What the demo ends with and shows. -/
structure Outcome where
  exitCode : Nat
  -- Shown events, in order.
  events : List Event
  -- Why it failed; empty if it did not.
  complaint : String
  deriving DecidableEq, Repr

namespace Outcome

private def complain (e : WorldError) : String := "Error: " ++ e.inspect

def ofRun (filter : Filter) (x : Logged (Except (Failure WorldError) Unit)) : Outcome :=
  let events := x.events.filterMap filter.shown?
  match x.value with
  | .ok () => ⟨0, events, ""⟩
  | .error (.error e) => ⟨1, events, complain e⟩
  | .error (.fault _) => ⟨101, events, ""⟩

/-- The demo with a configuration, if it could be read. -/
def ofConfig (filter : Filter) : Except WorldError WorldConfig → Outcome
  | .ok config => ofRun filter (run config)
  | .error e => ⟨1, [], complain e⟩

end Outcome

end EntityWorld.Particles
