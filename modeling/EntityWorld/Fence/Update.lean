import EntityWorld.Access
import EntityWorld.Fence.Id

/-!
# Updates

An update is a program bound to one fence, together with the component kinds it reads and writes.
Declared access is what the lock table admits concurrent updates on; access that is not declared is
not checked.
-/
namespace EntityWorld

/-- The rows from `start` up to but not including `stop`. -/
structure RowRange where
  start : Nat
  stop : Nat
  deriving DecidableEq, Repr

namespace RowRange

def size (r : RowRange) : Nat := r.stop - r.start

def contains (r : RowRange) (row : Nat) : Bool := r.start ≤ row && row < r.stop

/-- The part of `total` rows that task `index` of `count` owns: contiguous parts, and the earlier
tasks take one row of the remainder each. -/
def split (total index count : Nat) : RowRange :=
  let count := max count 1
  let base := total / count
  let extra := total % count
  let start := index * base + min index extra
  let size := base + if index < extra then 1 else 0
  ⟨min start total, min (start + size) total⟩

end RowRange

structure UpdateContext where
  fence : FenceId
  update : String
  -- Number of the running frame, counted from 1.
  frame : Nat
  task : Nat
  -- Number of sub-tasks; 1 unless the update is distributed.
  tasks : Nat
  deriving DecidableEq, Repr

/-- The rows this sub-task owns out of `total`. This divides the work, not the locks: an edit still
covers a whole column. -/
def UpdateContext.taskRange (context : UpdateContext) (total : Nat) : RowRange :=
  .split total context.task context.tasks

structure Update (σ : Type) where
  name : String
  fence : FenceId := .update
  mode : UpdateMode := .serial
  reads : List Kind := []
  writes : List Kind := []
  body : UpdateContext → Program (Access.interface σ) Unit

namespace Update

variable {σ : Type}

/-- The first element that was there before, in the list or among those seen. -/
def firstRepeated (seen : List Kind) : List Kind → Option Kind
  | [] => none
  | kind :: rest => if kind ∈ seen then some kind else firstRepeated (kind :: seen) rest

/-- Checks declared access against the number of registered kinds. An unknown kind is reported
first, then a kind listed twice, then one both read and written. -/
def validate (u : Update σ) (kindCount : Nat) : Except FenceError Unit :=
  match (u.reads ++ u.writes).find? fun kind => kind.isInvalid || kind.index > kindCount with
  | some kind => .error (.unknownComponent u.name kind)
  | none =>
    match (firstRepeated [] u.reads).or (firstRepeated [] u.writes) with
    | some kind => .error (.duplicateAccess u.name kind)
    | none =>
      match u.reads.find? fun kind => u.writes.contains kind with
      | some kind => .error (.accessOverlap u.name kind)
      | none => .ok ()

def program (u : Update σ) (fence : FenceId) (frame task tasks : Nat) :
    Program (Access.interface σ) Unit :=
  u.body { fence, update := u.name, frame, task, tasks }

def inspect (u : Update σ) : String :=
  Text.inspectOpenRecord "Update"
    [("name", Text.quoted u.name), ("fence", u.fence.name), ("mode", u.mode.text),
     ("reads", Text.inspectList (u.reads.map Kind.inspect)),
     ("writes", Text.inspectList (u.writes.map Kind.inspect))]

end Update

end EntityWorld
