import EntityWorld.Fence.LockTable

/-!
# Lock table, one counter operation at a time

`LockTable.perform` is a call that nobody comes between. Here any number of callers use the table at
once. A counter is a machine word, and the operations on the counters (add one, take one away, look,
exchange 0 for 1) are made one after another in a single order, so between two operations of one
caller others may act.

```text
taking ──publish──▶ checking ──room──▶ taking …
   │                    │
   │ taken by a writer  └──no room──▶ retracting ──▶ undoing … ──▶ refused
   └──────────────────────────────────────────────▶ undoing … ──▶ refused
```
-/
namespace EntityWorld

def LockSide.other : LockSide → LockSide
  | .read => .write
  | .write => .read

/-- A lock on one side of a kind; what one counter counts. -/
structure Lock where
  side : LockSide
  kind : Kind
  deriving DecidableEq, Repr

namespace Lock

/-- The lock that keeps this one out. -/
def rival (l : Lock) : Lock := { l with side := l.side.other }

end Lock

namespace LockTable

/-- The counters, one machine word for each lock. -/
abbrev Words := Lock → Int32

def Words.put (w : Words) (l : Lock) (value : Int32) : Words := fun m => if m = l then value else w m

def Words.add (w : Words) (l : Lock) : Words := w.put l (w l + 1)

def Words.sub (w : Words) (l : Lock) : Words := w.put l (w l - 1)

/-- What a caller does next. -/
inductive Stage where
  -- Nothing: its last call has answered. Misuse has ended the caller.
  | answered (result : Except Misuse Bool)
  -- Publishes the next kind that is left, or answers that all are taken.
  | taking (side : LockSide) (taken left : List Kind)
  -- Looks at the other side of the kind it has just published.
  | checking (side : LockSide) (taken : List Kind) (kind : Kind) (left : List Kind)
  -- Takes back what it has just published.
  | retracting (side : LockSide) (taken : List Kind) (kind : Kind)
  -- Takes back what it took before, and then answers that nothing is taken.
  | undoing (side : LockSide) (left : List Kind)
  -- Gives back the next lock that is left.
  | returning (side : LockSide) (left : List Kind)
  -- Puts back what it gave back without holding it.
  | restoring (side : LockSide) (kind : Kind) (left : List Kind)

structure Caller where
  stage : Stage
  -- The locks that it was granted and has not given back, each as often as it has it.
  held : List Lock

/-- Where a call begins. -/
def Call.opening : Call → Stage
  | .acquire side kinds => .taking side [] kinds
  | .release side kinds => .returning side kinds

/-- Publishes a lock. A writer publishes by exchanging 0 for 1, so nothing over another writer. -/
def publish? (w : Words) : Lock → Option Words
  | l@⟨.read, _⟩ => some (w.add l)
  | l@⟨.write, _⟩ => if w l = 0 then some (w.put l 1) else none

/-- The next operation of a caller whose call is under way. -/
def advance? (strictness : Strictness) (slots : Nat) (w : Words) (c : Caller) :
    Option (Words × Caller) :=
  match c.stage with
  | .answered _ => none
  | .taking side taken [] =>
    some (w, ⟨.answered (.ok true), c.held ++ taken.map (Lock.mk side)⟩)
  | .taking side taken (k :: left) =>
    if k.index < slots then
      match publish? w ⟨side, k⟩ with
      | some w => some (w, { c with stage := .checking side taken k left })
      | none => some (w, { c with stage := .undoing side taken })
    else
      match strictness with
      | .strict => some (w, { c with stage := .answered (.error (.unknownLockRequested side k)) })
      | .lenient => some (w, { c with stage := .undoing side taken })
  | .checking side taken k left =>
    if 0 < w (Lock.rival ⟨side, k⟩) then some (w, { c with stage := .retracting side taken k })
    else some (w, { c with stage := .taking side (taken ++ [k]) left })
  | .retracting side taken k => some (w.sub ⟨side, k⟩, { c with stage := .undoing side taken })
  | .undoing _ [] => some (w, { c with stage := .answered (.ok false) })
  | .undoing side (k :: left) => some (w.sub ⟨side, k⟩, { c with stage := .undoing side left })
  | .returning _ [] => some (w, { c with stage := .answered (.ok true) })
  | .returning side (k :: left) =>
    if k.index < slots then
      if w ⟨side, k⟩ ≤ 0 then
        some (w.sub ⟨side, k⟩, { c with stage := .restoring side k left })
      else some (w.sub ⟨side, k⟩, ⟨.returning side left, c.held.erase ⟨side, k⟩⟩)
    else
      match strictness with
      | .strict => some (w, { c with stage := .answered (.error (.unknownLockReleased side k)) })
      | .lenient => some (w, { c with stage := .returning side left })
  | .restoring side k left =>
    match strictness with
    | .strict =>
      some (w.add ⟨side, k⟩, { c with stage := .answered (.error (.lockNotHeld side k)) })
    | .lenient => some (w.add ⟨side, k⟩, { c with stage := .returning side left })

/-- Callers that use one table at the same time. -/
structure Race where
  -- Kinds below this number have counters.
  slots : Nat
  words : Words
  callers : List Caller

namespace Race

/-- A fresh table, and callers that hold nothing. -/
def start (slots callers : Nat) : Race :=
  { slots, words := fun _ => 0, callers := List.replicate callers ⟨.answered (.ok true), []⟩ }

inductive Move where
  -- A caller between two calls begins one.
  | call (caller : Nat) (call : Call)
  -- A caller makes the next operation of its call.
  | step (caller : Nat)
  deriving DecidableEq, Repr

/-- Makes a move, if it can be made. -/
def step? (strictness : Strictness) (r : Race) : Move → Option Race
  | .call caller call =>
    match r.callers[caller]? with
    | some ⟨.answered (.ok _), held⟩ =>
      some { r with callers := r.callers.set caller ⟨call.opening, held⟩ }
    | _ => none
  | .step caller =>
    (r.callers[caller]?).bind fun c =>
      (advance? strictness r.slots r.words c).map fun (words, c) =>
        { r with words, callers := r.callers.set caller c }

end Race

end LockTable

end EntityWorld
