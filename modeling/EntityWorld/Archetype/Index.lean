import EntityWorld.Archetype.Id
import EntityWorld.Component.Sequence

/-!
# Archetype index

For every kind, the archetypes that contain it, in discovery order. A query touches only the rows of
the kinds it names. Each entry also carries the size and the bounds of its archetype's sequence,
which turns most archetypes away before they are counted.
-/
namespace EntityWorld

/-- One archetype listed under one kind. -/
structure IndexEntry where
  archetype : ArchetypeId
  kindCount : Nat
  minKind : Kind
  maxKind : Kind
  deriving DecidableEq, Repr

structure ArchetypeIndex where
  -- The entries of a kind are at its number.
  byKind : Array (List IndexEntry)
  archetypeCount : Nat
  deriving DecidableEq, Repr

namespace ArchetypeIndex

def empty : ArchetypeIndex := ⟨#[], 0⟩

instance : Inhabited ArchetypeIndex := ⟨empty⟩

def entryOf? (archetype : ArchetypeId) (sequence : Sequence) : Option IndexEntry :=
  match sequence.min?, sequence.max? with
  | some minKind, some maxKind => some ⟨archetype, sequence.size, minKind, maxKind⟩
  | _, _ => none

/-- Lists an archetype under each of its kinds. Kinds past the end of the table are not listed. -/
def add (index : ArchetypeIndex) (archetype : ArchetypeId) (sequence : Sequence) :
    ArchetypeIndex :=
  let archetypeCount := max index.archetypeCount (archetype.index + 1)
  match entryOf? archetype sequence with
  | none => { index with archetypeCount }
  | some entry =>
    { byKind := sequence.kinds.foldl
        (fun table kind => table.modify kind.index (· ++ [entry])) index.byKind
      archetypeCount }

/-- Indexes archetypes given in discovery order. -/
def build (kindCount : Nat) (sequences : List (ArchetypeId × Sequence)) : ArchetypeIndex :=
  sequences.foldl (fun index each => index.add each.1 each.2)
    ⟨Array.replicate (kindCount + 1) [], 0⟩

def entries? (index : ArchetypeIndex) (kind : Kind) : Option (List IndexEntry) :=
  if kind.isInvalid then none else index.byKind[kind.index]?

private def entriesOf (index : ArchetypeIndex) (kind : Kind) : List IndexEntry :=
  (index.entries? kind).getD []

/-- How often each archetype is listed, under the kinds of `wanted`, by an entry that could hold
all of them. -/
def countHits (index : ArchetypeIndex) (wanted : Sequence) (lowest highest : Kind) : Array Nat :=
  wanted.kinds.foldl (fun hits kind =>
    (index.entriesOf kind).foldl (fun hits entry =>
      if wanted.size ≤ entry.kindCount ∧ entry.minKind ≤ lowest ∧ highest ≤ entry.maxKind then
        hits.modify entry.archetype.index (· + 1)
      else hits) hits)
    (Array.replicate index.archetypeCount 0)

/-- Which archetypes are listed under an unwanted kind. -/
def markExcluded (index : ArchetypeIndex) (unwanted : List Kind) : Array Bool :=
  unwanted.foldl (fun marks kind =>
    (index.entriesOf kind).foldl (fun marks entry =>
      marks.modify entry.archetype.index fun _ => true) marks)
    (Array.replicate index.archetypeCount false)

/-- Archetypes that contain every wanted kind and no unwanted kind, in discovery order. Naming
nothing, or a kind that nobody registered, finds nothing. -/
def find (index : ArchetypeIndex) (wanted unwanted : List Kind) : List ArchetypeId :=
  let wanted := Sequence.ofList wanted
  match wanted.min?, wanted.max? with
  | some lowest, some highest =>
    if wanted.kinds.any fun kind => (index.entries? kind).isNone then []
    else
      let hits := index.countHits wanted lowest highest
      let excluded := index.markExcluded unwanted
      ((index.entriesOf lowest).map IndexEntry.archetype).filter fun archetype =>
        hits[archetype.index]? = some wanted.size && excluded[archetype.index]? = some false
  | _, _ => []

end ArchetypeIndex

end EntityWorld
