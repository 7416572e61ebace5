import EntityWorld.Particles.Demo
import EntityWorld.Trace.Line

/-!
# Command line

Runs the particle demo with the configuration file that the first argument names, if there is one.
A variable of the environment says which events are shown. Times are not measured.
-/
namespace EntityWorld

/-- Number of processors, if the machine tells. -/
def coreCount : IO Nat := do
  try
    let lines := (← IO.FS.readFile "/proc/cpuinfo").splitOn "\n"
    return max 1 (lines.countP (·.startsWith "processor"))
  catch _ => return 4

def readFailure : IO.Error → ReadFailure
  | .noFileOrDirectory .. => .notFound
  | .permissionDenied .. => .system "Permission denied" 13
  | .inappropriateType .. => .isFolder
  | .invalidArgument .. => .nulInName
  | e => .system (toString e) 0

def readConfig (defaults : WorldConfig) (path : String) : IO (Except WorldError WorldConfig) := do
  try
    let bytes ← IO.FS.readBinFile path
    match String.fromUTF8? bytes with
    | some source => return WorldConfig.ofText defaults source
    | none => return .error (WorldConfig.unread path .notText)
  catch e => return .error (WorldConfig.unread path (readFailure e))

end EntityWorld

def main (args : List String) : IO UInt32 := do
  let defaults := EntityWorld.WorldConfig.forCores (← EntityWorld.coreCount)
  let config ← match args with
    | path :: _ => EntityWorld.readConfig defaults path
    | [] => pure (.ok defaults)
  let outcome := EntityWorld.Particles.Outcome.ofConfig (.ofSetting (← IO.getEnv "RUST_LOG")) config
  for event in outcome.events do IO.println event.line
  if outcome.complaint ≠ "" then IO.eprintln outcome.complaint
  return .ofNat outcome.exitCode
