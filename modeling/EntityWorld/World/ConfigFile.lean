import EntityWorld.Toml.Grammar
import EntityWorld.World.Config

/-!
# Configuration files

A configuration is written as a document whose top-level keys are named after the parameters. A key
that is not there leaves the default, and keys of other names are passed over.
-/
namespace EntityWorld

inductive ReadFailure where
  -- The reason and the number that the operating system gives.
  | system (reason : String) (number : Nat)
  | nulInName
  -- The content is not text.
  | notText
  deriving DecidableEq, Repr

namespace ReadFailure

def message : ReadFailure → String
  | .system reason number => reason ++ " (os error " ++ toString number ++ ")"
  | .nulInName => "file name contained an unexpected NUL byte"
  | .notText => "stream did not contain valid UTF-8"

def notFound : ReadFailure := .system "No such file or directory" 2

def isFolder : ReadFailure := .system "Is a directory" 21

def nameTooLong : ReadFailure := .system "File name too long" 36

/-- Why a path leads to no file where there are no names at all: the first name on it is missing, and
without a name it stays in a folder. -/
def ofMissing (path : String) : ReadFailure :=
  if path.contains '\x00' then nulInName
  else if path.utf8ByteSize ≥ 4096 then nameTooLong
  else
    match (path.splitOn "/").find? fun name => name ∉ ["", ".", ".."] with
    | some name => if name.utf8ByteSize > 255 then nameTooLong else notFound
    | none => if path.isEmpty then notFound else isFolder

end ReadFailure

namespace WorldConfig

open Toml (Document)

/-- A whole number that is not negative. -/
def count? (d : Document) (name : String) (default : Nat) : Option Nat :=
  match d.top? name with
  | none => some default
  | some (.value (.integer (.ofNat n))) => some n
  | some _ => none

def flag? (d : Document) (name : String) (default : Bool) : Option Bool :=
  match d.top? name with
  | none => some default
  | some (.value (.boolean b)) => some b
  | some _ => none

def ofDocument? (defaults : WorldConfig) (d : Document) : Option WorldConfig := do
  return {
    workerThreads := ← count? d "worker_threads" defaults.workerThreads
    distributedTasks := ← count? d "distributed_tasks" defaults.distributedTasks
    pendingCapacity := ← count? d "pending_capacity" defaults.pendingCapacity
    logFrameTimings := ← flag? d "log_frame_timings" defaults.logFrameTimings }

/-- Why a text is no configuration, where it is not for a value out of range. -/
def unreadable : String := "failed to parse config"

/-- Reads and validates a configuration. -/
def ofText (defaults : WorldConfig) (source : String) : Except WorldError WorldConfig := do
  match (Document.ofText? source).bind (ofDocument? defaults) with
  | none => throw (.invalidConfig unreadable)
  | some c =>
    c.validate
    return c

def unread (path : String) (cause : ReadFailure) : WorldError :=
  .invalidConfig ("failed to read " ++ path ++ ": " ++ cause.message)

end WorldConfig

end EntityWorld
