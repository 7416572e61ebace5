import EntityWorld.Fault

/-!
# Raw id allocation

Raw ids are handed out in ascending order and recycled last in, first out. An id comes back only
after its entity has been swept, so an id in use is never handed out again.
-/
namespace EntityWorld

structure IdAllocator where
  -- Largest raw id that is ever handed out.
  limit : Nat
  -- The next raw id that was never used.
  next : Nat
  -- Raw ids that came back, the latest first.
  free : List Nat
  live : Nat
  deriving DecidableEq, Repr

namespace IdAllocator

def withLimit (limit : Nat) : IdAllocator :=
  { limit := min limit (rawBound - 1), next := 1, free := [], live := 0 }

def full : IdAllocator := withLimit (rawBound - 1)

def allocate (a : IdAllocator) : Except CapacityError EntityId × IdAllocator :=
  match a.free with
  | raw :: rest => (.ok (.ofRaw raw), { a with free := rest, live := a.live + 1 })
  | [] =>
    if a.next ≤ a.limit then
      (.ok (.ofRaw a.next), { a with next := a.next + 1, live := a.live + 1 })
    else (.error ⟨a.limit⟩, a)

/-- Takes a swept entity's raw id back. The null id is nobody's to give back, so it changes
nothing; only a strict build makes a fault of it. -/
def release (strictness : Strictness) (a : IdAllocator) (id : EntityId) :
    Logged (Except Misuse Unit × IdAllocator) :=
  if id.isNull then do
    Logged.emit Misuse.releasedNull.event
    match strictness with
    | .strict => return (.error .releasedNull, a)
    | .lenient => return (.ok (), a)
  else return (.ok (), { a with live := a.live - 1, free := id.raw :: a.free })

end IdAllocator

end EntityWorld
