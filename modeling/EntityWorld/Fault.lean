import EntityWorld.Error
import EntityWorld.Trace.Event

/-!
# Faults

An error is an answer that callers plan for. A fault is a broken promise of the caller or of
arithmetic: a strict build ends the operation where it is found, and what was done before stays
done. A lenient build reports misuse and goes on.
-/
namespace EntityWorld

inductive LockSide where
  | read
  | write
  deriving DecidableEq, Repr

def LockSide.text : LockSide → String
  | .read => "read"
  | .write => "write"

/-- A broken promise of the caller. -/
inductive Misuse where
  | releasedNull
  | unknownLockRequested (side : LockSide) (kind : Kind)
  | unknownLockReleased (side : LockSide) (kind : Kind)
  | lockNotHeld (side : LockSide) (kind : Kind)
  -- A life-state change that the entity's state does not allow.
  | lifeChange (entity : EntityId) (cause : IllegalTransition)
  -- A life-state change of an entity that is not where it was looked up.
  | lifeUpdate (entity : EntityId) (cause : CollectionError)
  deriving DecidableEq, Repr

namespace Misuse

def message : Misuse → String
  | .releasedNull => "released the null entity id"
  | .unknownLockRequested side kind =>
    side.text ++ " lock requested on unknown component kind " ++ kind.text
  | .unknownLockReleased side kind =>
    side.text ++ " lock released on unknown component kind " ++ kind.text
  | .lockNotHeld side kind =>
    side.text ++ " lock released on component kind " ++ kind.text ++ " that is not held"
  | .lifeChange entity cause => cause.message ++ " requested for entity " ++ entity.text
  | .lifeUpdate entity cause =>
    "lifecycle update of entity " ++ entity.text ++ " failed: " ++ cause.message

private def target : Misuse → String
  | .releasedNull => "cadence_core::ecs::entity"
  | .unknownLockRequested .. | .unknownLockReleased .. | .lockNotHeld .. =>
    "cadence_core::sync::lock_table"
  | .lifeChange .. | .lifeUpdate .. => "cadence_core::ecs::world"

/-- Misuse is always reported at the highest level. -/
def event (m : Misuse) : Event :=
  { level := .error, target := m.target, message := m.message, fields := [] }

end Misuse

inductive Fault where
  | misuse (cause : Misuse)
  -- A count left its machine word.
  | overflow
  -- A duration left its range, or an index its array.
  | outOfRange
  -- Updates wait for locks that nobody in the fence holds: the fence would wait forever.
  | stalled
  deriving DecidableEq, Repr

/-- Whether reported misuse ends the operation. -/
inductive Strictness where
  | strict
  | lenient
  deriving DecidableEq, Repr

/-- Why an operation did not answer. -/
inductive Failure (ε : Type) where
  | error (cause : ε)
  | fault (cause : Fault)
  deriving DecidableEq, Repr

/-- Counts live in words of this many values. -/
abbrev wordBound : Nat := 0x10000000000000000

/-- The count, if a machine word can hold it. -/
def word (n : Nat) : Except Fault Nat :=
  if n < wordBound then .ok n else .error .overflow

theorem eq_of_word {n count : Nat} (fits : word n = .ok count) : count = n := by
  unfold word at fits
  split at fits
  · exact (Except.ok.inj fits).symm
  · cases fits

end EntityWorld
