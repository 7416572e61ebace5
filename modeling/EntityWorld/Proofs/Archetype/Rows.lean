import EntityWorld.Proofs.Archetype.Generation

/-!
# Rows

A generation row by row: an entity, and one value in each column. Raw ids need not be distinct here.
Where a raw id is in several rows, the row map leads to one of them or nowhere, but never to another
entity. Where it is in one row only, the generation is well-formed: `wellFormed_of_listed`.
-/
namespace EntityWorld

/-- An entity and its components, in the order of the columns. -/
abbrev EntityRow := EntityId × List Row

namespace Generation

variable {g source : Generation} {id next x : EntityId} {raw row place : Nat} {e : EntityRow}

/-- Every column has one row for each entity. -/
def Even (g : Generation) : Prop := ∀ column ∈ g.columns, column.size = g.ids.size

/-- The row map leads only to rows there are, and there to the raw id it was asked for. -/
def Pointed (g : Generation) : Prop :=
  ∀ raw row : Nat, g.rows[raw]? = some row → ∃ id : EntityId, g.ids[row]? = some id ∧ id.raw = raw

/-- The row map knows every raw id that is stored. -/
def Listed (g : Generation) : Prop := ∀ id ∈ g.ids, (g.rows[id.raw]?).isSome

/-- No raw id is stored twice. -/
def Distinct (g : Generation) : Prop := (g.ids.toList.map EntityId.raw).Nodup

theorem WellFormed.pointed (wf : g.WellFormed) : g.Pointed := fun raw row => (wf.rows raw row).mp

theorem WellFormed.listed (wf : g.WellFormed) : g.Listed := by
  intro id member
  obtain ⟨row, here⟩ := Array.mem_iff_getElem?.mp member
  rw [(wf.rows id.raw row).mpr ⟨id, here, rfl⟩]
  rfl

/-- Where no raw id is stored twice, leading nowhere wrong and knowing every raw id is enough. -/
theorem wellFormed_of_listed (even : g.Even) (pointed : g.Pointed) (listed : g.Listed)
    (distinct : g.Distinct) : g.WellFormed := by
  refine ⟨fun raw row => ⟨pointed raw row, ?_⟩, even⟩
  rintro ⟨id, here, rfl⟩
  obtain ⟨other, known⟩ := Option.isSome_iff_exists.mp (listed id (Array.mem_of_getElem? here))
  obtain ⟨x, there, same⟩ := pointed id.raw other known
  have first : (g.ids.toList.map EntityId.raw)[row]? = some id.raw := by simp [here]
  have second : (g.ids.toList.map EntityId.raw)[other]? = some id.raw := by simp [there, same]
  obtain ⟨inside, -⟩ := List.getElem?_eq_some_iff.mp first
  obtain rfl := (List.getElem?_inj inside distinct).mp (first.trans second.symm)
  exact known

def storedTypes (g : Generation) : List StoredType := g.columns.map Column.type

/-- The components of one row. In an even generation every column has it. -/
def valuesAt (g : Generation) (row : Nat) : List Row :=
  g.columns.map fun column => column.rows[row]?.getD []

def entries (g : Generation) : Array EntityRow := g.ids.mapIdx fun row id => (id, g.valuesAt row)

theorem types_eq (g : Generation) : g.types = g.storedTypes.map StoredType.id := by
  simp [types, storedTypes]

theorem getElem?_entries (g : Generation) (row : Nat) :
    g.entries[row]? = g.ids[row]?.map fun id => (id, g.valuesAt row) := by
  simp [entries]

theorem size_entries (g : Generation) : g.entries.size = g.ids.size := by
  simp [entries]

theorem map_fst_entries (g : Generation) : g.entries.toList.map Prod.fst = g.ids.toList := by
  refine List.ext_getElem? fun row => ?_
  rw [List.getElem?_map, Array.getElem?_toList, Array.getElem?_toList, getElem?_entries,
    Option.map_map]
  simp [Function.comp_def]

/-! ### A row at the end -/

def extend (g : Generation) (e : EntityRow) : Generation :=
  { ids := g.ids.push e.1
    columns := g.columns.zipWith Column.push e.2
    rows := g.rows.insert e.1.raw g.ids.size }

theorem append_eq_extend (g : Generation) (id : EntityId) :
    g.append id = g.extend (id, g.storedTypes.map StoredType.defaultRow) := by
  have columns : g.columns.map Column.pushDefault =
      g.columns.zipWith Column.push (g.storedTypes.map StoredType.defaultRow) := by
    simp [storedTypes, List.zipWith_map_right, List.zipWith_self, Column.pushDefault]
  rw [append, extend, columns]

theorem copyRow_eq (row : Nat) {columns sources : List Column}
    (same : columns.map (fun column => column.type.id) = sources.map fun column => column.type.id)
    (inside : ∀ column ∈ sources, row < column.size) :
    copyRow row columns sources =
      (.ok (), columns.zipWith (fun column source =>
        column.push (source.rows[row]?.getD [])) sources) := by
  -- The same types mean as many columns on both sides, so the other two shapes do not occur.
  induction columns generalizing sources with
  | nil =>
    cases sources with
    | nil => rfl
    | cons source sources => simp at same
  | cons column rest ih =>
    cases sources with
    | nil => simp at same
    | cons source sources =>
      simp only [List.map_cons, List.cons.injEq] at same
      have bound : row < source.rows.size := inside source List.mem_cons_self
      simp only [copyRow, Column.pushFrom, same.1, if_true, Column.get?,
        Array.getElem?_eq_getElem bound,
        ih same.2 fun other member => inside other (List.mem_cons_of_mem source member),
        List.zipWith_cons_cons, Option.getD_some]

/-- A row of a generation with the same columns is copied value by value. -/
theorem appendFrom_eq_extend (same : g.types = source.types)
    (inside : ∀ column ∈ source.columns, row < column.size) (id : EntityId) :
    g.appendFrom source row id = (.ok (), g.extend (id, source.valuesAt row)) := by
  simp only [appendFrom, copyRow_eq row same inside, extend, valuesAt, List.zipWith_map_right]

section
variable (full : e.2.length = g.columns.length)
include full

theorem storedTypes_extend : (g.extend e).storedTypes = g.storedTypes := by
  refine List.ext_getElem? fun i => ?_
  simp only [storedTypes, extend, List.getElem?_map, List.getElem?_zipWith]
  cases column : g.columns[i]? with
  | none => rfl
  | some old =>
    obtain ⟨bound, -⟩ := List.getElem?_eq_some_iff.mp column
    rw [List.getElem?_eq_getElem (by omega : i < e.2.length)]
    rfl

theorem even_extend (even : g.Even) : (g.extend e).Even := by
  intro column member
  obtain ⟨i, bound, rfl⟩ := List.mem_iff_getElem.mp member
  simp only [extend, List.length_zipWith] at bound
  have size := even g.columns[i] (List.getElem_mem (by omega))
  simp only [Column.size] at size
  simp [extend, Column.push, Column.size, size]

/-- Every column has got its new value in the new row, and no other value has changed. -/
theorem valuesAt_extend (even : g.Even) (row : Nat) :
    (g.extend e).valuesAt row = if row = g.ids.size then e.2 else g.valuesAt row := by
  have each : ∀ i : Nat, ((g.extend e).valuesAt row)[i]? =
      if row = g.ids.size then e.2[i]? else (g.valuesAt row)[i]? := by
    intro i
    by_cases bound : i < g.columns.length
    · have size := even g.columns[i] (List.getElem_mem bound)
      simp only [Column.size] at size
      simp only [valuesAt, extend, List.getElem?_map, List.getElem?_zipWith,
        List.getElem?_eq_getElem bound, List.getElem?_eq_getElem (by omega : i < e.2.length),
        Column.push, Array.getElem?_push, size, Option.map_some]
      split <;> rfl
    · have past : g.columns.length ≤ i := by omega
      simp [valuesAt, extend, past, full]
  split
  next last => exact List.ext_getElem? fun i => by rw [each, if_pos last]
  next other => exact List.ext_getElem? fun i => by rw [each, if_neg other]

theorem entries_extend (even : g.Even) : (g.extend e).entries = g.entries.push e := by
  refine Array.ext_getElem? fun row => ?_
  rw [getElem?_entries, valuesAt_extend full even, Array.getElem?_push, size_entries, getElem?_entries]
  simp only [extend, Array.getElem?_push]
  split <;> rfl

end

theorem pointed_extend (pointed : g.Pointed) (e : EntityRow) : (g.extend e).Pointed := by
  intro raw row found
  simp only [extend, getElem?_insert_nat] at found ⊢
  rw [Array.getElem?_push]
  split at found
  next same =>
    obtain rfl := Option.some.inj found
    exact ⟨e.1, if_pos rfl, same⟩
  next =>
    obtain ⟨id, here, same⟩ := pointed raw row found
    obtain ⟨inside, -⟩ := Array.getElem?_eq_some_iff.mp here
    exact ⟨id, by rwa [if_neg (Nat.ne_of_lt inside)], same⟩

theorem listed_extend (listed : g.Listed) (e : EntityRow) : (g.extend e).Listed := by
  intro id member
  simp only [extend, getElem?_insert_nat] at member ⊢
  split
  · rfl
  next other =>
    rcases Array.mem_push.mp member with old | rfl
    · exact listed id old
    · exact absurd rfl other

/-- A row for a raw id that has none yet. -/
theorem wellFormed_append (wf : g.WellFormed) (fresh : ¬ g.HasRaw id.raw) :
    (g.append id).WellFormed := by
  have full : (g.storedTypes.map StoredType.defaultRow).length = g.columns.length := by
    simp [storedTypes]
  rw [append_eq_extend]
  refine wellFormed_of_listed (even_extend full wf.columns) (pointed_extend wf.pointed _)
    (listed_extend wf.listed _) ?_
  rw [Distinct, extend, Array.toList_push, List.map_append, List.nodup_append]
  refine ⟨wf.nodup, by simp, fun raw old other new => ?_⟩
  obtain ⟨x, member, rfl⟩ := List.mem_map.mp old
  obtain rfl : other = id.raw := by simpa using new
  exact fun same => fresh ⟨x, Array.mem_toList_iff.mp member, same⟩

/-! ### Several rows at the end -/

def grow (g : Generation) (rows : List EntityRow) : Generation := rows.foldl extend g

/-- The entries have a value for each column. -/
def Fits (g : Generation) (rows : List EntityRow) : Prop := ∀ e ∈ rows, e.2.length = g.columns.length

theorem fits_extend {rows : List EntityRow} (fits : g.Fits (e :: rows)) : (g.extend e).Fits rows := by
  intro other member
  have first := fits e List.mem_cons_self
  rw [fits other (List.mem_cons_of_mem e member), extend, List.length_zipWith]
  omega

theorem grow_append (g : Generation) (rows more : List EntityRow) :
    g.grow (rows ++ more) = (g.grow rows).grow more := List.foldl_append

theorem storedTypes_grow {rows : List EntityRow} (fits : g.Fits rows) :
    (g.grow rows).storedTypes = g.storedTypes := by
  induction rows generalizing g with
  | nil => rfl
  | cons e rest ih =>
    exact (ih (fits_extend fits)).trans (storedTypes_extend (fits e List.mem_cons_self))

theorem types_grow {rows : List EntityRow} (fits : g.Fits rows) : (g.grow rows).types = g.types := by
  rw [types_eq, storedTypes_grow fits, ← types_eq]

/-- Rows of a generation with the same columns fit. -/
theorem fits_of_types {rows : List EntityRow} (same : g.types = source.types)
    (stored : ∀ e ∈ rows, e ∈ source.entries.toList) : g.Fits rows := by
  intro e member
  obtain ⟨row, here⟩ := List.mem_iff_getElem?.mp (stored e member)
  rw [Array.getElem?_toList, getElem?_entries] at here
  obtain ⟨id, -, rfl⟩ := Option.map_eq_some_iff.mp here
  have lengths := congrArg List.length same
  simpa [types, valuesAt] using lengths.symm

theorem grow_spec {rows : List EntityRow} (even : g.Even) (fits : g.Fits rows) :
    (g.grow rows).Even ∧ (g.grow rows).storedTypes = g.storedTypes ∧
      (g.grow rows).entries = g.entries ++ rows.toArray := by
  induction rows generalizing g with
  | nil => exact ⟨even, rfl, by simp [grow]⟩
  | cons e rest ih =>
    have full := fits e List.mem_cons_self
    obtain ⟨even', -, entries⟩ := ih (even_extend full even) (fits_extend fits)
    exact ⟨even', storedTypes_grow fits, by
      rw [grow, List.foldl_cons, ← grow, entries, entries_extend full even]
      simp⟩

theorem ids_grow (g : Generation) (rows : List EntityRow) :
    (g.grow rows).ids.toList = g.ids.toList ++ rows.map Prod.fst := by
  induction rows generalizing g with
  | nil => simp [grow]
  | cons e rest ih =>
    rw [grow, List.foldl_cons, ← grow, ih]
    simp [extend]

theorem pointed_grow {rows : List EntityRow} (pointed : g.Pointed) : (g.grow rows).Pointed := by
  induction rows generalizing g with
  | nil => exact pointed
  | cons e rest ih => exact ih (pointed_extend pointed e)

theorem listed_grow {rows : List EntityRow} (listed : g.Listed) : (g.grow rows).Listed := by
  induction rows generalizing g with
  | nil => exact listed
  | cons e rest ih => exact ih (listed_extend listed e)

/-! ### One row less -/

theorem removeFromColumns_eq (row : Nat) (columns : List Column)
    (inside : ∀ column ∈ columns, row < column.size) :
    removeFromColumns row columns =
      (.ok (), columns.map fun column =>
        { column with rows := EntityWorld.swapRemove column.rows row }) := by
  induction columns with
  | nil => rfl
  | cons column rest ih =>
    simp only [removeFromColumns, Column.swapRemove, if_pos (inside column List.mem_cons_self),
      ih fun other member => inside other (List.mem_cons_of_mem column member), List.map_cons]

theorem eq_of_removeFromColumns {row : Nat} {columns shorter : List Column}
    (done : removeFromColumns row columns = (.ok (), shorter)) :
    shorter = columns.map fun column =>
      { column with rows := EntityWorld.swapRemove column.rows row } := by
  induction columns generalizing shorter with
  | nil =>
    cases done
    rfl
  | cons column rest ih =>
    simp only [removeFromColumns, Column.swapRemove] at done
    split at done
    · cases done
    next first removed =>
      cases tail : removeFromColumns row rest with
      | mk result others =>
        rw [tail] at done
        obtain ⟨rfl, rfl⟩ := Prod.mk.inj done
        split at removed
        · cases removed
          rw [ih tail, List.map_cons]
        · cases removed

/-- The generation without a row, into whose place the last one has moved. -/
def without (g : Generation) (row : Nat) (id : EntityId) : Generation :=
  { ids := swapRemove g.ids row
    columns := g.columns.map fun column =>
      { column with rows := EntityWorld.swapRemove column.rows row }
    rows := match (swapRemove g.ids row)[row]? with
      | some moved => (g.rows.erase id.raw).insert moved.raw row
      | none => g.rows.erase id.raw }

theorem removeRow_eq (even : g.Even) (inside : row < g.ids.size) (id : EntityId) :
    g.removeRow row id = (.ok (), g.without row id) := by
  have columns := removeFromColumns_eq row g.columns fun column member => by
    rw [even column member]
    exact inside
  simp only [removeRow, columns, without]
  cases (swapRemove g.ids row)[row]? <;> rfl

/-- A removal that goes through takes the row from every column. -/
theorem eq_without_of_removeRow {g' : Generation} (done : g.removeRow row id = (.ok (), g')) :
    g' = g.without row id := by
  unfold removeRow at done
  cases tail : removeFromColumns row g.columns with
  | mk result columns =>
    simp only [tail] at done
    cases result with
    | error fault => cases done
    | ok =>
      obtain rfl := eq_of_removeFromColumns tail
      simp only [without]
      cases moved : (EntityWorld.swapRemove g.ids row)[row]? with
      | none =>
        simp only [moved] at done
        exact (Prod.mk.inj done).2.symm
      | some id =>
        simp only [moved] at done
        exact (Prod.mk.inj done).2.symm

@[simp] theorem storedTypes_without : (g.without row id).storedTypes = g.storedTypes := by
  simp [storedTypes, without]

theorem even_without (even : g.Even) (inside : row < g.ids.size) : (g.without row id).Even := by
  intro column member
  obtain ⟨old, found, rfl⟩ := List.mem_map.mp member
  have size := even old found
  simp only [without, Column.size] at size ⊢
  rw [size_swapRemove (by omega), size_swapRemove inside, size]

theorem valuesAt_without (even : g.Even) (inside : row < g.ids.size) (below : place + 1 < g.ids.size) :
    (g.without row id).valuesAt place =
      if place = row then g.valuesAt (g.ids.size - 1) else g.valuesAt place := by
  have each : ∀ column ∈ g.columns, (swapRemove column.rows row)[place]? =
      if place = row then column.rows[g.ids.size - 1]? else column.rows[place]? := by
    intro column member
    have size := even column member
    simp only [Column.size] at size
    rw [getElem?_swapRemove (by omega), size, if_pos below]
  simp only [valuesAt, without, List.map_map, Function.comp_def]
  split
  next here =>
    exact List.map_congr_left fun column member => by rw [each column member, if_pos here]
  next apart =>
    exact List.map_congr_left fun column member => by rw [each column member, if_neg apart]

/-- The rows are removed from all columns alike, so what is left is the same row of each. -/
theorem entries_without (even : g.Even) (inside : row < g.ids.size) :
    (g.without row id).entries = swapRemove g.entries row := by
  have inside' : row < g.entries.size := by rwa [size_entries]
  refine Array.ext_getElem? fun place => ?_
  rw [getElem?_entries, getElem?_swapRemove inside', size_entries, getElem?_entries, getElem?_entries]
  change ((swapRemove g.ids row)[place]?.map _) = _
  rw [getElem?_swapRemove inside]
  by_cases below : place + 1 < g.ids.size
  · rw [if_pos below, if_pos below, valuesAt_without even inside below]
    split <;> rfl
  · rw [if_neg below, if_neg below]
    rfl

theorem mem_without (member : x ∈ (g.without row id).ids) (inside : row < g.ids.size) : x ∈ g.ids := by
  obtain ⟨place, found⟩ := Array.mem_iff_getElem?.mp member
  change (swapRemove g.ids row)[place]? = some x at found
  rw [getElem?_swapRemove inside] at found
  split at found
  · split at found
    · exact Array.mem_of_getElem? found
    · exact Array.mem_of_getElem? found
  · cases found

/-- The entry of the removed row goes, and that of the moved row follows it. -/
theorem getElem?_rows_without (g : Generation) (row : Nat) (id : EntityId) (raw : Nat) :
    (g.without row id).rows[raw]? =
      if ∃ moved, (swapRemove g.ids row)[row]? = some moved ∧ moved.raw = raw then some row
      else if id.raw = raw then none else g.rows[raw]? := by
  simp only [without]
  cases (swapRemove g.ids row)[row]? with
  | none => simp [getElem?_erase_nat]
  | some moved => simp [getElem?_insert_nat, getElem?_erase_nat]

theorem pointed_without (pointed : g.Pointed) (here : g.ids[row]? = some id) :
    (g.without row id).Pointed := by
  obtain ⟨inside, -⟩ := Array.getElem?_eq_some_iff.mp here
  intro raw place found
  rw [getElem?_rows_without] at found
  change ∃ x, (swapRemove g.ids row)[place]? = some x ∧ x.raw = raw
  split at found
  next moved =>
    obtain rfl := Option.some.inj found
    exact moved
  next unmoved =>
    split at found
    · cases found
    next other =>
      obtain ⟨x, old, same⟩ := pointed raw place found
      obtain ⟨bound, -⟩ := Array.getElem?_eq_some_iff.mp old
      -- The row is neither the one that goes nor the one that moves.
      have apart : place ≠ row := by
        rintro rfl
        obtain rfl := Option.some.inj (old.symm.trans here)
        exact other same
      have notLast : place + 1 < g.ids.size := by
        by_contra last
        refine unmoved ⟨x, ?_, same⟩
        rw [getElem?_swapRemove inside, if_pos (by omega), if_pos rfl, ← old]
        congr 1
        omega
      exact ⟨x, by rw [getElem?_swapRemove inside, if_pos notLast, if_neg apart, old], same⟩

/-- Only the raw id of the removed row can get lost. -/
theorem isSome_rows_without (known : (g.rows[raw]?).isSome) (other : id.raw ≠ raw) :
    ((g.without row id).rows[raw]?).isSome := by
  rw [getElem?_rows_without, if_neg other]
  split
  · rfl
  · exact known

/-! ### No row and the same rows -/

theorem storedTypes_clear (g : Generation) : g.clear.storedTypes = g.storedTypes := by
  simp [storedTypes, clear, Column.clear]

theorem types_clear (g : Generation) : g.clear.types = g.types := by
  rw [types_eq, types_eq, storedTypes_clear]

theorem even_clear (g : Generation) : g.clear.Even := by
  intro column member
  obtain ⟨old, -, rfl⟩ := List.mem_map.mp member
  rfl

theorem pointed_clear (g : Generation) : g.clear.Pointed := by
  simp [Pointed, clear]

theorem listed_clear (g : Generation) : g.clear.Listed := by
  simp [Listed, clear]

section
variable (change : Nat → Row → Row) (position : Nat)

/-- The generation with the rows of one column changed in place. -/
def revise (g : Generation) (position : Nat) (change : Nat → Row → Row) : Generation :=
  { g with columns := g.columns.modify position fun column =>
      { column with rows := column.rows.mapIdx change } }

theorem storedTypes_revise : (g.revise position change).storedTypes = g.storedTypes := by
  refine map_modify_of_eq (g := Column.type) (fun column => ?_) g.columns position
  rfl

theorem even_revise (even : g.Even) : (g.revise position change).Even := by
  intro column member
  rcases mem_modify member with old | ⟨old, inside, rfl⟩
  · exact even column old
  · simpa [Column.size, revise] using even old inside

end

/-- An id is overwritten where it stands. -/
theorem overwritten_of_replace? {g' : Generation} (replaced : g.replace? id next = some g') :
    ∃ row, g.ids[row]? = some id ∧ g' = { g with ids := g.ids.setIfInBounds row next } := by
  obtain ⟨row, found, rfl⟩ := Option.map_eq_some_iff.mp replaced
  exact ⟨row, by simpa using (Option.filter_eq_some_iff.mp found).2, rfl⟩

section
variable (here : g.ids[row]? = some id) (same : next.raw = id.raw)
include here same

theorem pointed_overwrite (pointed : g.Pointed) :
    Pointed { g with ids := g.ids.setIfInBounds row next } := by
  obtain ⟨inside, -⟩ := Array.getElem?_eq_some_iff.mp here
  intro raw place found
  obtain ⟨x, old, equal⟩ := pointed raw place found
  rw [Array.getElem?_setIfInBounds]
  split
  next at_ =>
    subst at_
    obtain rfl := Option.some.inj (old.symm.trans here)
    exact ⟨next, rfl, same.trans equal⟩
  next => exact ⟨x, old, equal⟩

theorem listed_overwrite (listed : g.Listed) :
    Listed { g with ids := g.ids.setIfInBounds row next } := by
  intro x member
  rcases Array.mem_or_eq_of_mem_setIfInBounds member with old | rfl
  · exact listed x old
  · change (g.rows[x.raw]?).isSome
    rw [same]
    exact listed id (Array.mem_of_getElem? here)

end

end Generation

end EntityWorld
