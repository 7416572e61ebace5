import EntityWorld.Component.Type

/-!
# Particle components

What a particle has: a position, a velocity and an age. Numbers are stored low byte first.
-/
namespace EntityWorld.Particles

def ofWord (n : Nat) : Row :=
  [.ofNat n, .ofNat (n / 256), .ofNat (n / 65536), .ofNat (n / 16777216)]

/-- The number in the first four bytes. -/
def word : Row → Nat
  | a :: b :: c :: d :: _ => a.toNat + 256 * b.toNat + 65536 * c.toNat + 16777216 * d.toNat
  | _ => 0

theorem word_ofWord {n : Nat} (rest : Row) (fits : n < 4294967296) : word (ofWord n ++ rest) = n := by
  simp only [word, ofWord, List.cons_append, UInt8.toNat_ofNat']
  omega

structure Vector3 where
  x : Float32
  y : Float32
  z : Float32

namespace Vector3

def zero : Vector3 := ⟨0, 0, 0⟩

def add (a b : Vector3) : Vector3 := ⟨a.x + b.x, a.y + b.y, a.z + b.z⟩

def isZero (a : Vector3) : Bool := a.x == 0 && a.y == 0 && a.z == 0

def ofRow (row : Row) : Vector3 :=
  let part (place : Nat) : Float32 := .ofBits (.ofNat (word (row.drop place)))
  ⟨part 0, part 4, part 8⟩

def toRow (a : Vector3) : Row :=
  ofWord a.x.toBits.toNat ++ ofWord a.y.toBits.toNat ++ ofWord a.z.toBits.toNat

end Vector3

def position : StoredType := ⟨⟨0⟩, "Position", Vector3.zero.toRow⟩

def velocity : StoredType := ⟨⟨1⟩, "Velocity", Vector3.zero.toRow⟩

/-- Frames since the particle became alive. -/
def age : StoredType := ⟨⟨2⟩, "Age", ofWord 0⟩

def components : List StoredType := [position, velocity, age]

def particle : EntityDefinition :=
  { id := ⟨1⟩, name := "particle", components := components.map (·.id), state := .loaded }

end EntityWorld.Particles
