import EntityWorld.Component.Kind

/-!
# Component sequences

A strictly ascending list of kinds. Only the normalising constructor builds one from an arbitrary
list, so two sequences are equal exactly when they hold the same kinds: one sequence keys one
archetype.
-/
namespace EntityWorld

structure Sequence where
  kinds : List Kind
  ascending : kinds.Pairwise (· < ·)
  deriving DecidableEq, Repr

namespace Sequence

/-- Puts a kind into its place in an ascending list, once. -/
def insertKind (k : Kind) : List Kind → List Kind
  | [] => [k]
  | head :: rest =>
    if k < head then k :: head :: rest
    else if k = head then head :: rest
    else head :: insertKind k rest

def normalize (ids : List Kind) : List Kind := ids.foldr insertKind []

theorem mem_insertKind {x k : Kind} {l : List Kind} : x ∈ insertKind k l ↔ x = k ∨ x ∈ l := by
  induction l with
  | nil => simp [insertKind]
  | cons head rest ih =>
    simp only [insertKind]
    split
    · simp
    · split
      next same => subst same; simp
      next => simp only [List.mem_cons, ih]; exact or_left_comm

theorem insertKind_ascending {k : Kind} {l : List Kind} (ordered : l.Pairwise (· < ·)) :
    (insertKind k l).Pairwise (· < ·) := by
  induction l with
  | nil => simp [insertKind]
  | cons head rest ih =>
    rw [List.pairwise_cons] at ordered
    simp only [insertKind]
    split
    next below =>
      refine List.pairwise_cons.2 ⟨fun x member => ?_, List.pairwise_cons.2 ordered⟩
      rcases List.mem_cons.1 member with rfl | member
      · exact below
      · have above := ordered.1 x member
        simp only [Kind.lt_iff] at *; omega
    next notBelow =>
      split
      · exact List.pairwise_cons.2 ordered
      next different =>
        refine List.pairwise_cons.2 ⟨fun x member => ?_, ih ordered.2⟩
        rcases mem_insertKind.1 member with rfl | member
        · have apart : x.index ≠ head.index := fun same => different (Kind.ext_index same)
          simp only [Kind.lt_iff] at *; omega
        · exact ordered.1 x member

theorem normalize_ascending (ids : List Kind) : (normalize ids).Pairwise (· < ·) := by
  induction ids with
  | nil => exact .nil
  | cons k rest ih => exact insertKind_ascending ih

theorem mem_normalize {x : Kind} {ids : List Kind} : x ∈ normalize ids ↔ x ∈ ids := by
  induction ids with
  | nil => simp [normalize]
  | cons k rest ih =>
    rw [show normalize (k :: rest) = insertKind k (normalize rest) from rfl, mem_insertKind, ih,
      List.mem_cons]

/-- Sorts and deduplicates. -/
def ofList (ids : List Kind) : Sequence := ⟨normalize ids, normalize_ascending ids⟩

def empty : Sequence := ⟨[], .nil⟩

instance : Inhabited Sequence := ⟨empty⟩

instance : Ord Sequence := ⟨compareOn Sequence.kinds⟩

instance : Std.TransOrd Sequence := inferInstanceAs (Std.TransCmp (compareOn Sequence.kinds))

instance : Std.LawfulEqOrd Sequence where
  eq_of_compare {a b} same := by
    have kinds : a.kinds = b.kinds := Std.LawfulEqOrd.eq_of_compare same
    cases a
    cases b
    simpa using kinds

def size (s : Sequence) : Nat := s.kinds.length

def isEmpty (s : Sequence) : Bool := s.kinds.isEmpty

/-- Column position of a kind. -/
def position? (s : Sequence) (k : Kind) : Option Nat := s.kinds.findIdx? (· = k)

def contains (s : Sequence) (k : Kind) : Bool := (s.position? k).isSome

def min? (s : Sequence) : Option Kind := s.kinds.head?

def max? (s : Sequence) : Option Kind := s.kinds.getLast?

def inspect (s : Sequence) : String :=
  Text.inspectTagged "ComponentSequence" (Text.inspectList (s.kinds.map Kind.inspect))

end Sequence

end EntityWorld
