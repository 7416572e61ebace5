import EntityWorld.Archetype.Collection
import EntityWorld.Proofs.Archetype.Column

/-!
# Generations

The row map of a generation finds exactly the rows there are, so no raw id is in two rows, and every
column has one value per row. Then an entity is found by its raw id, and overwriting one changes no
other.
-/
namespace EntityWorld

section Maps

variable {β : Type} (m : Std.TreeMap Nat β)

theorem getElem?_insert_nat (k a : Nat) (v : β) :
    (m.insert k v)[a]? = if k = a then some v else m[a]? := by
  rw [Std.TreeMap.getElem?_insert]
  simp

theorem getElem?_erase_nat (k a : Nat) : (m.erase k)[a]? = if k = a then none else m[a]? := by
  rw [Std.TreeMap.getElem?_erase]
  simp

end Maps

namespace Generation

variable {g : Generation} {id next x y : EntityId} {raw row : Nat}

structure WellFormed (g : Generation) : Prop where
  rows : ∀ raw row : Nat, g.rows[raw]? = some row ↔
    ∃ id : EntityId, g.ids[row]? = some id ∧ id.raw = raw
  columns : ∀ column ∈ g.columns, column.size = g.ids.size

/-- Some row has this raw id. -/
def HasRaw (g : Generation) (raw : Nat) : Prop := ∃ id ∈ g.ids, id.raw = raw

/-- What the columns store, in order. -/
def types (g : Generation) : List TypeId := g.columns.map fun column => column.type.id

theorem wellFormed_of_columns {columns : List Column} (empty : ∀ column ∈ columns, column.size = 0) :
    WellFormed ⟨#[], columns, ∅⟩ where
  rows := by simp
  columns := empty

namespace WellFormed

variable (wf : g.WellFormed)
include wf

theorem row_unique {i j : Nat} (first : g.ids[i]? = some x) (second : g.ids[j]? = some y)
    (same : x.raw = y.raw) : i = j := by
  have left := (wf.rows y.raw i).mpr ⟨x, first, same⟩
  have right := (wf.rows y.raw j).mpr ⟨y, second, rfl⟩
  exact Option.some.inj (left.symm.trans right)

/-- No raw id is in two rows. -/
theorem nodup : (g.ids.toList.map EntityId.raw).Nodup := by
  refine List.pairwise_iff_getElem.mpr fun i j hi hj below same => ?_
  simp only [List.length_map, Array.length_toList, List.getElem_map, Array.getElem_toList] at hi hj same
  have := wf.row_unique (Array.getElem?_eq_getElem hi) (Array.getElem?_eq_getElem hj) same
  omega

theorem entity?_eq_some_iff : g.entity? raw = some id ↔ id ∈ g.ids ∧ id.raw = raw := by
  simp only [entity?, Option.bind_eq_some_iff, wf.rows]
  constructor
  · rintro ⟨row, ⟨other, found, same⟩, here⟩
    obtain rfl : other = id := Option.some.inj (found.symm.trans here)
    exact ⟨Array.mem_of_getElem? here, same⟩
  · rintro ⟨member, same⟩
    obtain ⟨row, here⟩ := Array.mem_iff_getElem?.mp member
    exact ⟨row, ⟨id, here, same⟩, here⟩

theorem contains_iff : g.rows.contains raw = true ↔ g.HasRaw raw := by
  rw [Std.TreeMap.contains_eq_isSome_getElem?, Option.isSome_iff_exists]
  simp only [wf.rows, HasRaw]
  constructor
  · rintro ⟨row, id, here, same⟩
    exact ⟨id, Array.mem_of_getElem? here, same⟩
  · rintro ⟨id, member, same⟩
    obtain ⟨row, here⟩ := Array.mem_iff_getElem?.mp member
    exact ⟨row, id, here, same⟩

end WellFormed

/-! ### Appending -/

@[simp] theorem ids_append : (g.append id).ids = g.ids.push id := rfl

@[simp] theorem types_append : (g.append id).types = g.types := by
  simp [types, append, Column.pushDefault, Column.push]

/-! ### Overwriting -/

theorem rowOf?_eq_some_iff (wf : g.WellFormed) : g.rowOf? id = some row ↔ g.ids[row]? = some id := by
  simp only [rowOf?, Option.filter_eq_some_iff, decide_eq_true_eq, wf.rows]
  constructor
  · exact fun found => found.2
  · exact fun found => ⟨⟨id, found, rfl⟩, found⟩

theorem replace?_of_mem (wf : g.WellFormed) (next : EntityId) (member : id ∈ g.ids) :
    ∃ row, g.ids[row]? = some id ∧
      g.replace? id next = some { g with ids := g.ids.setIfInBounds row next } := by
  obtain ⟨row, here⟩ := Array.mem_iff_getElem?.mp member
  exact ⟨row, here, by rw [replace?, (rowOf?_eq_some_iff wf).mpr here]; rfl⟩

theorem replace?_of_not_mem (wf : g.WellFormed) (absent : id ∉ g.ids) : g.replace? id next = none := by
  rw [replace?, Option.map_eq_none_iff, Option.eq_none_iff_forall_ne_some]
  intro row found
  exact absent (Array.mem_of_getElem? ((rowOf?_eq_some_iff wf).mp found))

theorem wellFormed_overwrite (wf : g.WellFormed) (here : g.ids[row]? = some id)
    (same : next.raw = id.raw) :
    WellFormed { g with ids := g.ids.setIfInBounds row next } where
  rows := by
    obtain ⟨inside, -⟩ := Array.getElem?_eq_some_iff.mp here
    intro raw place
    rw [wf.rows, Array.getElem?_setIfInBounds]
    -- The row holds another id under the same raw id, so the row map need not change.
    by_cases at_ : row = place
    · subst at_
      rw [if_pos rfl, if_pos inside, here]
      simp [same]
    · rw [if_neg at_]
  columns := by
    intro column member
    simpa using wf.columns column member

theorem mem_overwrite (wf : g.WellFormed) (here : g.ids[row]? = some id) :
    x ∈ g.ids.setIfInBounds row next ↔ x = next ∨ (x ∈ g.ids ∧ x ≠ id) := by
  obtain ⟨inside, -⟩ := Array.getElem?_eq_some_iff.mp here
  simp only [Array.mem_iff_getElem?, Array.getElem?_setIfInBounds]
  constructor
  · rintro ⟨place, found⟩
    split at found
    next at_ =>
      exact .inl (Option.some.inj found).symm
    next apart =>
      refine .inr ⟨⟨place, found⟩, ?_⟩
      rintro rfl
      exact apart (wf.row_unique here found rfl)
  · rintro (rfl | ⟨⟨place, found⟩, different⟩)
    · exact ⟨row, by rw [if_pos rfl, if_pos inside]⟩
    · refine ⟨place, ?_⟩
      rw [if_neg, found]
      rintro rfl
      exact different (Option.some.inj (found.symm.trans here))

end Generation

end EntityWorld
