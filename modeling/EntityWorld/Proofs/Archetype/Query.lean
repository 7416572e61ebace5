import EntityWorld.Proofs.Archetype.Index

/-!
# Queries stay inside their tables

A query counts and marks in tables with a place for every archetype, and reads both of them. Here is
the same query, stopped by the first place that is not there. Nothing stops it, and what it finds is
what a look at every archetype finds, once and in discovery order. Main statement: `exact_build`.
-/
namespace EntityWorld

namespace ArchetypeIndex

/-! ### Stopping outside a table -/

/-- Changes a place of a table that has it. -/
def modify? {α : Type} (table : Array α) (i : Nat) (change : α → α) : Option (Array α) :=
  if i < table.size then some (table.modify i change) else none

/-- Keeps what passes a test that may stop. -/
def filter? {α : Type} (keeps : α → Option Bool) : List α → Option (List α)
  | [] => some []
  | a :: rest => do
    let kept ← keeps a
    let later ← filter? keeps rest
    return if kept then a :: later else later

variable (index : ArchetypeIndex)

def countHits? (wanted : Sequence) (lowest highest : Kind) : Option (Array Nat) :=
  wanted.kinds.foldlM (fun hits kind =>
    ((index.entries? kind).getD []).foldlM (fun hits entry =>
      if passes wanted lowest highest entry then modify? hits entry.archetype.index (· + 1)
      else some hits) hits)
    (Array.replicate index.archetypeCount 0)

def markExcluded? (unwanted : List Kind) : Option (Array Bool) :=
  unwanted.foldlM (fun marks kind =>
    ((index.entries? kind).getD []).foldlM (fun marks entry =>
      modify? marks entry.archetype.index fun _ => true) marks)
    (Array.replicate index.archetypeCount false)

/-- The marks are read only where the hits are right. -/
def keeps? (hits : Array Nat) (excluded : Array Bool) (size : Nat) (archetype : ArchetypeId) :
    Option Bool := do
  let count ← hits[archetype.index]?
  if count = size then return !(← excluded[archetype.index]?) else return false

/-- The query, stopped by the first place that a table does not have. -/
def find? (wanted unwanted : List Kind) : Option (List ArchetypeId) :=
  let wanted := Sequence.ofList wanted
  match wanted.min?, wanted.max? with
  | some lowest, some highest =>
    if wanted.kinds.any fun kind => (index.entries? kind).isNone then some []
    else do
      let hits ← index.countHits? wanted lowest highest
      let excluded ← index.markExcluded? unwanted
      filter? (keeps? hits excluded wanted.size)
        (((index.entries? lowest).getD []).map IndexEntry.archetype)
  | _, _ => some []

/-- Whoever is listed under a kind has a place in the tables. -/
def Placed : Prop :=
  ∀ kind, ∀ entry ∈ (index.entries? kind).getD [], entry.archetype.index < index.archetypeCount

variable {index} {α β : Type}

theorem filter?_eq {keeps : α → Option Bool} {kept : α → Bool} {l : List α}
    (answers : ∀ a ∈ l, keeps a = some (kept a)) : filter? keeps l = some (l.filter kept) := by
  induction l with
  | nil => rfl
  | cons a rest ih =>
    rw [filter?, answers a List.mem_cons_self, ih fun b member => answers b (List.mem_cons_of_mem a member),
      List.filter_cons]
    rfl

/-- Steps that each go well on tables of one size, and keep the size, go well one after another. -/
theorem foldlM_eq_of_size {change? : Array α → β → Option (Array α)} {change : Array α → β → Array α}
    {size : Nat} {l : List β}
    (each : ∀ b ∈ l, ∀ table : Array α, table.size = size →
      change? table b = some (change table b) ∧ (change table b).size = size)
    (table : Array α) (sized : table.size = size) :
    l.foldlM change? table = some (l.foldl change table) ∧ (l.foldl change table).size = size := by
  induction l generalizing table with
  | nil => exact ⟨rfl, sized⟩
  | cons b rest ih =>
    obtain ⟨goes, kept⟩ := each b List.mem_cons_self table sized
    obtain ⟨later, last⟩ :=
      ih (fun b member => each b (List.mem_cons_of_mem _ member)) (change table b) kept
    exact ⟨by rw [List.foldlM_cons, goes]; exact later, last⟩

theorem modify?_eq {table : Array α} {i : Nat} (change : α → α) (inside : i < table.size) :
    modify? table i change = some (table.modify i change) := if_pos inside

theorem countHits?_eq (placed : index.Placed) (wanted : Sequence) (lowest highest : Kind) :
    index.countHits? wanted lowest highest = some (index.countHits wanted lowest highest) ∧
      (index.countHits wanted lowest highest).size = index.archetypeCount := by
  refine foldlM_eq_of_size (fun kind _ hits sized => ?_) _ Array.size_replicate
  refine foldlM_eq_of_size (fun entry listed hits sized => ?_) hits sized
  have inside : entry.archetype.index < hits.size := sized ▸ placed kind entry listed
  by_cases passed : passes wanted lowest highest entry = true
  · have counted := passed
    simp only [passes, decide_eq_true_iff] at counted
    simp only [if_pos passed, if_pos counted, modify?_eq _ inside, Array.size_modify]
    exact ⟨trivial, sized⟩
  · have turned := passed
    simp only [passes, decide_eq_true_iff] at turned
    simp only [if_neg passed, if_neg turned]
    exact ⟨trivial, sized⟩

theorem markExcluded?_eq (placed : index.Placed) (unwanted : List Kind) :
    index.markExcluded? unwanted = some (index.markExcluded unwanted) ∧
      (index.markExcluded unwanted).size = index.archetypeCount := by
  refine foldlM_eq_of_size (fun kind _ marks sized => ?_) _ Array.size_replicate
  refine foldlM_eq_of_size (fun entry listed marks sized => ?_) marks sized
  have inside : entry.archetype.index < marks.size := sized ▸ placed kind entry listed
  exact ⟨modify?_eq _ inside, by rw [Array.size_modify, sized]⟩

theorem keeps?_eq {hits : Array Nat} {excluded : Array Bool} {archetype : ArchetypeId} (size : Nat)
    (counted : archetype.index < hits.size) (marked : archetype.index < excluded.size) :
    keeps? hits excluded size archetype =
      some (hits[archetype.index]? = some size && excluded[archetype.index]? = some false) := by
  simp only [keeps?, Array.getElem?_eq_getElem counted, Array.getElem?_eq_getElem marked]
  by_cases right : hits[archetype.index] = size <;> simp [right]

/-- Tables with a place for everybody stop no query. -/
theorem find?_eq (placed : index.Placed) (wanted unwanted : List Kind) :
    index.find? wanted unwanted = some (index.find wanted unwanted) := by
  cases first : (Sequence.ofList wanted).min? with
  | none => simp only [find?, find, first]
  | some lowest =>
    cases last : (Sequence.ofList wanted).max? with
    | none => simp only [find?, find, first, last]
    | some highest =>
      obtain ⟨counts, counted⟩ := countHits?_eq placed (Sequence.ofList wanted) lowest highest
      obtain ⟨marks, marked⟩ := markExcluded?_eq placed unwanted
      simp only [find?, find, first, last]
      split
      · rfl
      · simp only [counts, marks, Option.bind_eq_bind, Option.bind_some]
        refine filter?_eq fun archetype listed => ?_
        obtain ⟨entry, there, rfl⟩ := List.mem_map.mp listed
        have inside := placed lowest entry there
        exact keeps?_eq _ (counted ▸ inside) (marked ▸ inside)

/-! ### What a query finds -/

variable {sequences : List Sequence} {kindCount : Nat} {wanted unwanted : List Kind}

theorem placed_build (within : ∀ s ∈ sequences, ∀ k ∈ s.kinds, Within kindCount k) :
    (build kindCount (numbered sequences)).Placed := by
  intro kind entry listed
  rw [entriesOf_build within] at listed
  obtain ⟨i, s, here, -, made⟩ := mem_listing.mp listed
  rw [archetype_of_entryOf? made, archetypeCount_build]
  exact (List.getElem?_eq_some_iff.mp here).1

theorem mem_scan {a : ArchetypeId} : a ∈ scan sequences wanted unwanted ↔ wanted ≠ [] ∧
    ∃ s, sequences[a.index]? = some s ∧ (∀ k ∈ wanted, k ∈ s.kinds) ∧ ∀ k ∈ unwanted, k ∉ s.kinds := by
  unfold scan
  split
  next empty => simp_all
  next named =>
    have named : wanted ≠ [] := by simpa using named
    simp only [mem_archetypes_filter, matching_iff, named, ne_eq, not_false_eq_true, true_and]

theorem pairwise_scan (sequences : List Sequence) (wanted unwanted : List Kind) :
    (scan sequences wanted unwanted).Pairwise fun a b => a.index < b.index := by
  unfold scan
  split
  · exact .nil
  · exact pairwise_archetypes_filter _ sequences

/-- What a query answers: the archetypes that a look at every sequence finds, each once and in
discovery order, and no table is left on the way. -/
structure Exact (index : ArchetypeIndex) (sequences : List Sequence) (wanted unwanted : List Kind) :
    Prop where
  found : index.find wanted unwanted = scan sequences wanted unwanted
  mem (a : ArchetypeId) : a ∈ index.find wanted unwanted ↔ wanted ≠ [] ∧
    ∃ s, sequences[a.index]? = some s ∧ (∀ k ∈ wanted, k ∈ s.kinds) ∧ ∀ k ∈ unwanted, k ∉ s.kinds
  ascending : (index.find wanted unwanted).Pairwise fun a b => a.index < b.index
  inside : index.find? wanted unwanted = some (index.find wanted unwanted)

/-- An index answers every query exactly, whatever kinds are wanted and unwanted. -/
theorem exact_build (within : ∀ s ∈ sequences, ∀ k ∈ s.kinds, Within kindCount k)
    (wanted unwanted : List Kind) :
    Exact (build kindCount (numbered sequences)) sequences wanted unwanted := by
  have found := find_build within wanted unwanted
  refine ⟨found, fun a => ?_, ?_, find?_eq (placed_build within) wanted unwanted⟩
  · rw [found, mem_scan]
  · rw [found]
    exact pairwise_scan sequences wanted unwanted

/-- Four archetypes over three kinds: the wanted kinds come in any order and more than once, and an
unwanted kind may be one that nobody registered or no kind at all. -/
theorem exact_build_of_four :
    let sequences := [[1, 2], [1], [1, 2, 3], [2, 3]].map fun numbers =>
      Sequence.ofList (numbers.map Kind.mk)
    (∀ s ∈ sequences, ∀ k ∈ s.kinds, Within 3 k) ∧
      Exact (build 3 (numbered sequences)) sequences [⟨2⟩, ⟨1⟩, ⟨2⟩] [⟨0⟩, ⟨9⟩] ∧
      (build 3 (numbered sequences)).find [⟨2⟩, ⟨1⟩, ⟨2⟩] [⟨0⟩, ⟨9⟩] = [⟨0⟩, ⟨2⟩] := by
  intro sequences
  have within : ∀ s ∈ sequences, ∀ k ∈ s.kinds, Within 3 k := by
    unfold Within
    decide
  exact ⟨within, exact_build within _ _, by decide⟩

end ArchetypeIndex

end EntityWorld
