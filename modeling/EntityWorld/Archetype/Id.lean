/-!
# Archetype handles

A collection is found by its position in discovery order. Collections are never removed, so a
handle stays good for the life of the world.
-/
namespace EntityWorld

structure ArchetypeId where
  index : Nat
  deriving DecidableEq, Repr

/-- A handle is stored in 32 bits. With more collections than this the last handle would be given to
each new one, so a store is taken to have no more. -/
def ArchetypeId.bound : Nat := 0x100000000

def ArchetypeId.text (a : ArchetypeId) : String := "archetype:" ++ toString a.index

end EntityWorld
