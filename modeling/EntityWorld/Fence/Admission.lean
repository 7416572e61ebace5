import EntityWorld.Fence.Update

/-!
# Admission

A concurrent update starts only with every lock it declared, and gives them back when its last
sub-task has finished. An attempt that fails leaves the table as it was.
-/
namespace EntityWorld.Update

variable {σ : Type}

/-- Tries to take the declared locks, the writes first. -/
def takeLocks (u : Update σ) (locks : LockTable) : Logged (Except Misuse Bool × LockTable) := do
  match ← locks.acquire .strict .write u.writes with
  | (.ok true, locks) =>
    match ← locks.acquire .strict .read u.reads with
    | (.ok false, locks) =>
      let (result, locks) ← locks.release .strict .write u.writes
      return (result.map fun _ => false, locks)
    | other => return other
  | other => return other

/-- Gives the declared locks back, the reads first. -/
def returnLocks (u : Update σ) (locks : LockTable) : Logged (Except Misuse Unit × LockTable) := do
  match ← locks.release .strict .read u.reads with
  | (.ok (), locks) => locks.release .strict .write u.writes
  | other => return other

end EntityWorld.Update
