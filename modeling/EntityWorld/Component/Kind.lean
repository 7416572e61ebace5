import EntityWorld.Text.Inspect

/-!
# Component kinds

Every concrete component type gets a dense number, counted from 1; 0 names no kind. The numbers
last as long as the process and are never stored.
-/
namespace EntityWorld

structure Kind where
  index : Nat
  deriving DecidableEq, Repr

namespace Kind

/-- The reserved number that names no kind. -/
def invalid : Kind := ⟨0⟩

def isInvalid (k : Kind) : Bool := k.index == 0

def text (k : Kind) : String := toString k.index

def inspect (k : Kind) : String := Text.inspectTagged "ComponentId" k.text

instance : Inhabited Kind := ⟨invalid⟩

instance : ToString Kind := ⟨text⟩

instance : LT Kind := ⟨fun a b => a.index < b.index⟩

instance : LE Kind := ⟨fun a b => a.index ≤ b.index⟩

instance (a b : Kind) : Decidable (a < b) := inferInstanceAs (Decidable (a.index < b.index))

instance (a b : Kind) : Decidable (a ≤ b) := inferInstanceAs (Decidable (a.index ≤ b.index))

instance : Ord Kind := ⟨compareOn Kind.index⟩

theorem lt_iff {a b : Kind} : a < b ↔ a.index < b.index := Iff.rfl

theorem le_iff {a b : Kind} : a ≤ b ↔ a.index ≤ b.index := Iff.rfl

theorem ext_index {a b : Kind} (same : a.index = b.index) : a = b := by
  cases a; cases b; simp_all

instance : Std.TransOrd Kind := inferInstanceAs (Std.TransCmp (compareOn Kind.index))

instance : Std.LawfulEqOrd Kind where
  eq_of_compare same := ext_index (Std.LawfulEqOrd.eq_of_compare same)

end Kind

end EntityWorld
