import EntityWorld.Fault

/-!
# Component lock table

One reader and one writer counter per component kind. Both sides publish first and check second:

```text
acquire read             acquire write
  readers += 1             writers: 0 -> 1, or back off
  writers > 0 ?            readers > 0 ?
    back off                 back off
```

so a reader and a writer of one kind are never both let in. An acquisition takes its whole list or
none of it and never waits.
-/
namespace EntityWorld

structure LockSlot where
  readers : Nat
  writers : Nat
  deriving DecidableEq, Repr

namespace LockSlot

def free : LockSlot := ⟨0, 0⟩

def isIdle (s : LockSlot) : Bool := s.readers == 0 && s.writers == 0

def count (s : LockSlot) : LockSide → Nat
  | .read => s.readers
  | .write => s.writers

def raise (s : LockSlot) : LockSide → LockSlot
  | .read => { s with readers := s.readers + 1 }
  | .write => { s with writers := s.writers + 1 }

def lower (s : LockSlot) : LockSide → LockSlot
  | .read => { s with readers := s.readers - 1 }
  | .write => { s with writers := s.writers - 1 }

end LockSlot

structure LockTable where
  -- The slot of a kind is at its number; nothing uses the first.
  slots : Array LockSlot
  deriving DecidableEq, Repr

namespace LockTable

def ofSize (slots : Nat) : LockTable := ⟨Array.replicate slots .free⟩

def size (t : LockTable) : Nat := t.slots.size

def slot? (t : LockTable) (k : Kind) : Option LockSlot := t.slots[k.index]?

def readers (t : LockTable) (k : Kind) : Nat := ((t.slot? k).map LockSlot.readers).getD 0

def writers (t : LockTable) (k : Kind) : Nat := ((t.slot? k).map LockSlot.writers).getD 0

/-- No lock of either side is held. -/
def isIdle (t : LockTable) : Bool := t.slots.all LockSlot.isIdle

def raise (t : LockTable) (side : LockSide) (k : Kind) : LockTable :=
  ⟨t.slots.modify k.index fun s => s.raise side⟩

def lower (t : LockTable) (side : LockSide) (k : Kind) : LockTable :=
  ⟨t.slots.modify k.index fun s => s.lower side⟩

/-- Takes back what was taken, in the order it was taken. -/
def undo (t : LockTable) (side : LockSide) (taken : List Kind) : LockTable :=
  taken.foldl (fun t k => t.lower side k) t

/-- Asks for a kind the table does not have. A strict build stops with what it has taken so far. -/
private def refuseUnknown (strictness : Strictness) (side : LockSide) (t : LockTable)
    (taken : List Kind) (k : Kind) : Logged (Except Misuse Bool × LockTable) := do
  let misuse := Misuse.unknownLockRequested side k
  Logged.emit misuse.event
  match strictness with
  | .strict => return (.error misuse, t)
  | .lenient => return (.ok false, t.undo side taken)

/-- One side's attempt on one slot: the counters after publishing, and whether the other side (and,
for a writer, the own side) left room. A writer publishes nothing over another writer. -/
def attempt (side : LockSide) (s : LockSlot) : LockSlot × Bool :=
  match side with
  | .read =>
    let published := s.raise .read
    if s.writers > 0 then (published.lower .read, false) else (published, true)
  | .write =>
    if s.writers ≠ 0 then (s, false)
    else
      let published := s.raise .write
      if s.readers > 0 then (published.lower .write, false) else (published, true)

def acquireFrom (strictness : Strictness) (side : LockSide) (taken : List Kind) (t : LockTable) :
    List Kind → Logged (Except Misuse Bool × LockTable)
  | [] => return (.ok true, t)
  | k :: rest =>
    match t.slot? k with
    | none => refuseUnknown strictness side t taken k
    | some s =>
      let (after, granted) := attempt side s
      let t := ⟨t.slots.modify k.index fun _ => after⟩
      if granted then acquireFrom strictness side (taken ++ [k]) t rest
      else return (.ok false, t.undo side taken)

def acquire (strictness : Strictness) (side : LockSide) (t : LockTable) (kinds : List Kind) :
    Logged (Except Misuse Bool × LockTable) :=
  acquireFrom strictness side [] t kinds

/-- Gives back one lock on every listed kind, in order. A strict build stops at the first that
cannot be given back; a lenient one skips it. -/
def release (strictness : Strictness) (side : LockSide) (t : LockTable) :
    List Kind → Logged (Except Misuse Unit × LockTable)
  | [] => return (.ok (), t)
  | k :: rest => do
    let misuse? : Option Misuse :=
      match t.slot? k with
      | none => some (.unknownLockReleased side k)
      | some s => if s.count side = 0 then some (.lockNotHeld side k) else none
    match misuse? with
    | none => release strictness side (t.lower side k) rest
    | some misuse =>
      Logged.emit misuse.event
      match strictness with
      | .strict => return (.error misuse, t)
      | .lenient => release strictness side t rest

inductive Call where
  | acquire (side : LockSide) (kinds : List Kind)
  | release (side : LockSide) (kinds : List Kind)
  deriving DecidableEq, Repr

/-- Carries out a call and says whether the locks were granted; a release always is. -/
def perform (strictness : Strictness) (t : LockTable) :
    Call → Logged (Except Misuse Bool × LockTable)
  | .acquire side kinds => t.acquire strictness side kinds
  | .release side kinds => do
    let (result, t) ← t.release strictness side kinds
    return (result.map fun _ => true, t)

def inspect (t : LockTable) : String :=
  Text.inspectRecord "ComponentLockTable" [("slots", toString t.size), ("idle", toString t.isIdle)]

end LockTable

end EntityWorld
