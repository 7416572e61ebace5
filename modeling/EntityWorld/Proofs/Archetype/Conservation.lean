import EntityWorld.Proofs.Archetype.Calls
import EntityWorld.Proofs.Archetype.Rest

/-!
# Conservation of rows

A commit loses no row, doubles none and takes none apart: every entity that stays has the components
it had, the pending ones come last with default components, and the report names the others. Main
statement: `Kept.conserved`.
-/
namespace EntityWorld

namespace Collection

variable {registry : Registry} {sequence : Sequence} {c c' : Collection} {g g' : Generation}
  {out : List EntityRow} {log : List (Collection × Call)}

/-- The components that an entity of a sequence begins with. -/
def defaults (registry : Registry) (sequence : Sequence) : List (Option Row) :=
  sequence.kinds.map fun kind => (registry.type? kind).map StoredType.defaultRow

/-- What a commit does with the rows of a collection. -/
structure Conserved (registry : Registry) (sequence : Sequence) (c c' : Collection)
    (report : CommitReport) : Prop where
  -- In each generation every row has a value in each column.
  even : c.current.Even ∧ c.pending.Even ∧ c'.current.Even
  -- The old rows come first, in some order, and then the pending ones in theirs.
  rows : ∃ kept : List EntityRow, kept.Perm (staying c.current) ∧
    c'.current.entries.toList = kept ++ staying c.pending ∧
      ((∀ id ∈ c.current.ids, survives id) → kept = c.current.entries.toList)
  arrived : ∀ e ∈ c.pending.entries, e.2.map some = defaults registry sequence
  removed : report.removed.toList.Perm (c.ids.filter fun id => !survives id)
  migrated : report.migrated.toList = c.pending.ids.toList.filter survives
  pending : c'.pending = c.pending.clear
  again : c'.commit = (.ok .empty, c')

/-- Pending rows hold what rows begin with. -/
theorem Kept.defaults (kept : Kept registry sequence c) :
    ∀ e ∈ c.pending.entries, e.2.map some = Collection.defaults registry sequence := by
  intro e member
  obtain ⟨row, here⟩ := Array.mem_iff_getElem?.mp member
  rw [Generation.getElem?_entries] at here
  obtain ⟨id, found, rfl⟩ := Option.map_eq_some_iff.mp here
  obtain ⟨inside, -⟩ := Array.getElem?_eq_some_iff.mp found
  have values : c.pending.valuesAt row = c.pending.storedTypes.map StoredType.defaultRow := by
    rw [Generation.valuesAt, Generation.storedTypes, List.map_map]
    refine List.map_congr_left fun column listed => ?_
    have bound : row < column.rows.size := by
      have size := kept.pending.even column listed
      rw [Column.size] at size
      omega
    rw [Array.getElem?_eq_getElem bound, Option.getD_some]
    exact kept.fresh column listed _ (Array.getElem_mem bound)
  calc (c.pending.valuesAt row).map some
      = (c.pending.storedTypes.map some).map (Option.map StoredType.defaultRow) := by
        rw [values, List.map_map, List.map_map]
        rfl
    _ = Collection.defaults registry sequence := by
        rw [kept.pending.types, List.map_map]
        rfl

theorem Kept.conserved (kept : Kept registry sequence c) :
    ∃ report c', c.commit = (.ok report, c') ∧ Conserved registry sequence c c' report := by
  obtain ⟨out, g, swept, value⟩ := kept.commit_eq
  have even := swept.even kept.current.even
  obtain ⟨evenAfter, -, entries⟩ := Generation.grow_spec even (swept.fits kept.types)
  have rows : (g.grow (staying c.pending)).entries.toList = g.entries.toList ++ staying c.pending := by
    rw [entries, Array.toList_append]
  refine ⟨_, _, value, ⟨kept.current.even, kept.pending.even, evenAfter⟩,
    ⟨g.entries.toList, (swept.perm_filter kept.current.even).1, rows, fun alive => ?_⟩,
    kept.defaults, ?_, ?_, rfl, AtRest.commit ⟨fun x member => ?_, ?_⟩⟩
  · rw [swept.eq_of_alive alive]
  · rw [Array.toList_append, ids, List.filter_append]
    exact swept.filter_ids.2.symm.append_right _
  · rfl
  · have kept := (ids_of_swept swept).mem_iff.mp (Array.mem_toList_iff.mpr member)
    exact (List.mem_filter.mp kept).2
  · exact (clear_clear c.pending).symm

/-! ### The order of the pending rows -/

/-- The raw ids that were created since the last commit, oldest first. -/
def arrivals (log : List (Collection × Call)) : List Nat :=
  log.foldl (fun raws each => match each.2 with
    | .create id => raws ++ [id.raw]
    | .commit => []
    | .setUp .. | .update .. | .edit .. => raws) []

/-- Overwriting an id leaves the raw id of its row. -/
theorem raws_of_replace? {id next : EntityId} (same : next.raw = id.raw)
    (replaced : g.replace? id next = some g') :
    g'.ids.toList.map EntityId.raw = g.ids.toList.map EntityId.raw := by
  obtain ⟨row, here, rfl⟩ := Generation.overwritten_of_replace? replaced
  rw [Array.toList_setIfInBounds]
  exact map_set_of_eq (by simpa using here) same

theorem raws_update (c : Collection) (id next : EntityId) :
    (c.update id next).2.pending.ids.toList.map EntityId.raw =
      c.pending.ids.toList.map EntityId.raw := by
  by_cases same : id.raw = next.raw
  · simp only [update, if_neg (not_not.mpr same)]
    split
    · rfl
    · split
      · rfl
      · split
        next replaced => exact raws_of_replace? same.symm replaced
        next => rfl
  · simp only [update, ne_eq, same, not_false_eq_true, if_true]

/-- Pending entities stand in the order in which they were created. -/
theorem raws_of_history (history : History registry sequence log c) :
    c.pending.ids.toList.map EntityId.raw = arrivals log := by
  induction history with
  | bind empty unused bound =>
    rw [play_unbound empty unused] at bound
    obtain ⟨columns, -, -, -, -, -, pending⟩ := columns_of_setUp bound
    simp [pending, arrivals]
  | @call log c before call ih =>
    rw [arrivals, List.foldl_append, ← arrivals, ← ih, List.foldl_cons, List.foldl_nil]
    have kept := kept_of_history before
    cases call with
    | setUp registry definition? sequence =>
      obtain ⟨definitions, value⟩ := setUp_of_bound kept.bound registry definition? sequence
      simp only [perform, value]
    | create id => simp [perform, create]
    | update id next => exact c.raws_update id next
    | edit kind type change =>
      simp only [perform]
      split
      next edited =>
        obtain ⟨position, rfl⟩ := edit_ok edited
        rfl
      next => rfl
    | commit =>
      obtain ⟨out, g, swept, value⟩ := kept.commit_eq
      simp only [perform, value]
      rfl

end Collection

end EntityWorld
