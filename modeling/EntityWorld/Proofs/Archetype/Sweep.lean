import EntityWorld.Proofs.Archetype.Collection

/-!
# Commits row by row

A commit of a collection takes the rows of destroyed entities out of the current generation one by
one, and then puts the other pending rows at its end. `commit_eq` says so without asking for distinct
raw ids; what holds after a commit is read off the rows it took out and the rows it put in. Where raw
ids are distinct, `commit_spec` says what becomes of the entities.
-/
namespace EntityWorld.Collection

variable {c : Collection} {g g' source : Generation} {out : List EntityRow} {id x : EntityId}

/-- The entity of a row has not been destroyed. -/
def stays (e : EntityRow) : Bool := survives e.1

/-! ### Sweeping -/

/-- No destroyed entity has the raw id of one that has not been destroyed. -/
def Separate (g : Generation) : Prop :=
  ∀ x ∈ g.ids, ∀ y ∈ g.ids, ¬ survives x → survives y → x.raw ≠ y.raw

theorem separate_of_distinct {g : Generation} (distinct : g.Distinct) : Separate g := by
  intro x first y second dead alive same
  obtain rfl := List.inj_on_of_nodup_map distinct (Array.mem_toList_iff.mpr first)
    (Array.mem_toList_iff.mpr second) same
  exact dead alive

/-- A sweep: the rows it took out, in this order, and what it left. -/
inductive Swept : Generation → List EntityRow → Generation → Prop where
  | done {g : Generation} (alive : ∀ x ∈ g.ids, survives x) : Swept g [] g
  | row {g g' : Generation} {row : Nat} {id : EntityId} {out : List EntityRow}
      (here : g.ids[row]? = some id) (dead : ¬ survives id)
      (rest : Swept (g.without row id) out g') : Swept g ((id, g.valuesAt row) :: out) g'

/-- No destroyed entity stands before a row. -/
def Passed (g : Generation) (row : Nat) : Prop :=
  ∀ i x, i < row → g.ids[i]? = some x → survives x

theorem swept_of_passed {row : Nat} (passed : Passed g row) (beyond : g.ids.size ≤ row) :
    Swept g [] g := by
  refine .done fun x member => ?_
  obtain ⟨i, here⟩ := Array.mem_iff_getElem?.mp member
  obtain ⟨inside, -⟩ := Array.getElem?_eq_some_iff.mp here
  exact passed i x (by omega) here

theorem passed_without {row : Nat} (passed : Passed g row) (inside : row < g.ids.size) :
    Passed (g.without row id) row := by
  intro i x below found
  change (swapRemove g.ids row)[i]? = some x at found
  rw [getElem?_swapRemove inside] at found
  split at found
  · exact passed i x below (by rwa [if_neg (Nat.ne_of_lt below)] at found)
  · cases found

theorem passed_succ {row : Nat} (passed : Passed g row) (here : g.ids[row]? = some id)
    (alive : survives id) : Passed g (row + 1) := by
  intro i x below found
  rcases Nat.lt_succ_iff_lt_or_eq.mp below with before | rfl
  · exact passed i x before found
  · obtain rfl := Option.some.inj (found.symm.trans here)
    exact alive

/-- Where every column has a row for each entity, a sweep goes through. -/
theorem sweepFrom_of_even (steps row : Nat) (removed : Array EntityId) (even : g.Even) :
    ∃ all g', sweepFrom steps row g removed = (.ok all, g') := by
  induction steps generalizing row g removed with
  | zero => exact ⟨removed, g, rfl⟩
  | succ steps ih =>
    simp only [sweepFrom]
    cases here : g.ids[row]? with
    | none => exact ⟨removed, g, rfl⟩
    | some id =>
      obtain ⟨inside, -⟩ := Array.getElem?_eq_some_iff.mp here
      simp only
      split
      · simp only [Generation.removeRow_eq even inside]
        exact ih row (removed.push id) (Generation.even_without even inside)
      · exact ih (row + 1) removed even

/-- A sweep that goes through has removed the destroyed rows and no other. -/
theorem swept_of_sweepFrom {steps row : Nat} {removed all : Array EntityId}
    (enough : g.ids.size ≤ row + steps) (passed : Passed g row)
    (done : sweepFrom steps row g removed = (.ok all, g')) :
    ∃ out, all = removed ++ (out.map Prod.fst).toArray ∧ Swept g out g' := by
  -- By induction on the steps that are left: one is spent on every row, whether it goes or stays.
  induction steps generalizing row g removed with
  | zero =>
    cases done
    exact ⟨[], by simp, swept_of_passed passed enough⟩
  | succ steps ih =>
    simp only [sweepFrom] at done
    cases here : g.ids[row]? with
    | none =>
      simp only [here] at done
      cases done
      exact ⟨[], by simp, swept_of_passed passed (Array.getElem?_eq_none_iff.mp here)⟩
    | some id =>
      obtain ⟨inside, -⟩ := Array.getElem?_eq_some_iff.mp here
      simp only [here] at done
      split at done
      next dead =>
        cases gone : g.removeRow row id with
        | mk result left =>
          simp only [gone] at done
          cases result with
          | error fault => cases done
          | ok =>
            obtain rfl := Generation.eq_without_of_removeRow gone
            -- The last row has moved here, so the same row is looked at again.
            have shorter : (g.without row id).ids.size = g.ids.size - 1 := size_swapRemove inside
            obtain ⟨out, rfl, swept⟩ := ih (by omega) (passed_without passed inside) done
            exact ⟨(id, g.valuesAt row) :: out, by simp, .row here (by simp [survives, dead]) swept⟩
      next alive =>
        exact ih (by omega) (passed_succ passed here (by simpa [survives] using alive)) done

theorem sweepFrom_of_alive (steps row : Nat) (removed : Array EntityId)
    (alive : ∀ x ∈ g.ids, survives x) : sweepFrom steps row g removed = (.ok removed, g) := by
  induction steps generalizing row with
  | zero => rfl
  | succ steps ih =>
    simp only [sweepFrom]
    cases here : g.ids[row]? with
    | none => rfl
    | some id =>
      have survivor : ¬ id.life = .destroyed := by
        simpa [survives] using alive id (Array.mem_of_getElem? here)
      simp only [if_neg survivor]
      exact ih (row + 1)

theorem swept_of_sweep {all : Array EntityId} (done : sweep g = (.ok all, g')) :
    ∃ out, all = (out.map Prod.fst).toArray ∧ Swept g out g' := by
  obtain ⟨out, rfl, swept⟩ := swept_of_sweepFrom (Nat.le_add_left _ _)
    (fun i x below => absurd below (Nat.not_lt_zero i)) done
  exact ⟨out, by simp, swept⟩

namespace Swept

variable (swept : Swept g out g')
include swept

theorem storedTypes : g'.storedTypes = g.storedTypes := by
  induction swept with
  | done => rfl
  | row _ _ _ ih => exact ih.trans Generation.storedTypes_without

theorem types : g'.types = g.types := by
  rw [Generation.types_eq, Generation.types_eq, swept.storedTypes]

theorem even (before : g.Even) : g'.Even := by
  induction swept with
  | done => exact before
  | row here _ _ ih =>
    obtain ⟨inside, -⟩ := Array.getElem?_eq_some_iff.mp here
    exact ih (Generation.even_without before inside)

theorem pointed (before : g.Pointed) : g'.Pointed := by
  induction swept with
  | done => exact before
  | row here _ _ ih => exact ih (Generation.pointed_without before here)

/-- Where nothing was destroyed, a sweep leaves everything in its place. -/
theorem eq_of_alive (alive : ∀ id ∈ g.ids, survives id) : g' = g := by
  cases swept with
  | done => rfl
  | row here dead rest => exact absurd (alive _ (Array.mem_of_getElem? here)) dead

theorem alive : ∀ x ∈ g'.ids, survives x := by
  induction swept with
  | done alive => exact alive
  | row _ _ _ ih => exact ih

theorem gone : ∀ e ∈ out, ¬ stays e := by
  induction swept with
  | done => simp
  | row _ dead _ ih =>
    intro e member
    rcases List.mem_cons.mp member with rfl | rest
    · exact dead
    · exact ih e rest

/-- No entity is lost: each was taken out or is left. -/
theorem perm_ids : g.ids.toList.Perm (out.map Prod.fst ++ g'.ids.toList) := by
  induction swept with
  | done => exact .refl _
  | row here _ _ ih => exact (perm_swapRemove here).trans (ih.cons _)

/-- What is left are the ids that survive, in some order, and what is out are the others. -/
theorem filter_ids :
    (g.ids.toList.filter survives).Perm g'.ids.toList ∧
      (g.ids.toList.filter fun id => !survives id).Perm (out.map Prod.fst) := by
  refine filter_of_perm_append swept.perm_ids (fun x member => ?_) fun x member => ?_
  · exact swept.alive x (Array.mem_toList_iff.mp member)
  · obtain ⟨e, outside, rfl⟩ := List.mem_map.mp member
    exact swept.gone e outside

/-- No row is lost and none is there twice: each was taken out or is left, as it was. -/
theorem perm (even : g.Even) : g.entries.toList.Perm (out ++ g'.entries.toList) := by
  induction swept with
  | done => exact .refl _
  | @row g _ row id out here _ _ ih =>
    obtain ⟨inside, -⟩ := Array.getElem?_eq_some_iff.mp here
    have found : g.entries[row]? = some (id, g.valuesAt row) := by
      rw [Generation.getElem?_entries, here, Option.map_some]
    have rest := ih (Generation.even_without even inside)
    rw [Generation.entries_without even inside] at rest
    exact (perm_swapRemove found).trans (rest.cons _)

/-- What is left after a sweep is what stays, in some order. -/
theorem perm_filter (even : g.Even) :
    g'.entries.toList.Perm (g.entries.toList.filter stays) ∧
      out.Perm (g.entries.toList.filter fun e => !stays e) := by
  have left : ∀ e ∈ g'.entries.toList, stays e := fun e member => by
    have named : e.1 ∈ g'.entries.toList.map Prod.fst := List.mem_map_of_mem member
    rw [Generation.map_fst_entries, Array.mem_toList_iff] at named
    exact swept.alive e.1 named
  obtain ⟨kept, lost⟩ := filter_of_perm_append (swept.perm even) left swept.gone
  exact ⟨kept.symm, lost.symm⟩

/-- Where no destroyed entity shares its raw id with one that stays, those that stay are known
afterwards if they were before. -/
theorem listed (apart : Separate g)
    (known : ∀ x ∈ g.ids, survives x → (g.rows[x.raw]?).isSome) : g'.Listed := by
  induction swept with
  | done alive => exact fun x member => known x member (alive x member)
  | row here dead _ ih =>
    obtain ⟨inside, -⟩ := Array.getElem?_eq_some_iff.mp here
    refine ih (fun x first y second => ?_) fun x member stays => ?_
    · exact apart x (Generation.mem_without first inside) y (Generation.mem_without second inside)
    · have old := Generation.mem_without member inside
      exact Generation.isSome_rows_without (known x old stays)
        (apart _ (Array.mem_of_getElem? here) x old dead stays)

end Swept

/-! ### Migrating -/

/-- The rows of a generation that a commit does not leave behind. -/
def staying (g : Generation) : List EntityRow := g.entries.toList.filter stays

theorem ids_of_staying (g : Generation) : (staying g).map Prod.fst = g.ids.toList.filter survives := by
  rw [← g.map_fst_entries, List.filter_map]
  rfl

/-- The rows that migrate have a value for each column of what a sweep left. -/
theorem Swept.fits (swept : Swept g out g') (same : g.types = source.types) :
    g'.Fits (staying source) :=
  Generation.fits_of_types (swept.types.trans same) fun _ member => (List.mem_filter.mp member).1

/-- A row that is to migrate has a value in every column. -/
def Present (source : Generation) (row : Nat) : Prop :=
  ∀ id, source.ids[row]? = some id → survives id → ∀ column ∈ source.columns, row < column.size

theorem present_of_even (even : source.Even) (row : Nat) : Present source row := by
  intro id here _ column member
  obtain ⟨inside, -⟩ := Array.getElem?_eq_some_iff.mp here
  rwa [even column member]

/-- Migrating puts the rows that stay at the end, in their order. This is where it is after some of
the rows. -/
theorem migrateFrom_take (removed : Array EntityId) (same : g.types = source.types) (rows : Nat)
    (present : ∀ row < rows, Present source row) :
    migrateFrom source 0 source.ids.toList g ⟨removed, #[]⟩ =
      migrateFrom source rows (source.ids.toList.drop rows)
        (g.grow ((source.entries.toList.take rows).filter stays))
        ⟨removed ++ ((source.ids.toList.take rows).filter fun x => !survives x).toArray,
          ((source.ids.toList.take rows).filter survives).toArray⟩ := by
  induction rows with
  | zero => simp [Generation.grow]
  | succ row ih =>
    have dropped : source.ids.toList.drop row =
        source.ids[row]?.toList ++ source.ids.toList.drop (row + 1) := by
      rw [List.drop_eq_getElem?_toList_append, Array.getElem?_toList]
    have taken : source.entries.toList.take (row + 1) = source.entries.toList.take row ++
        (source.ids[row]?.map fun id => (id, source.valuesAt row)).toList := by
      rw [List.take_add_one, Array.getElem?_toList, Generation.getElem?_entries]
    rw [ih fun earlier before => present earlier (Nat.lt_succ_of_lt before), dropped, taken,
      List.take_add_one, Array.getElem?_toList]
    cases here : source.ids[row]? with
    | none =>
      have beyond : source.ids.toList.drop (row + 1) = [] := by
        rw [List.drop_eq_nil_iff, Array.length_toList]
        exact Nat.le_succ_of_le (Array.getElem?_eq_none_iff.mp here)
      simp [beyond, migrateFrom]
    | some id =>
      simp only [Option.toList_some, Option.map_some, List.singleton_append, migrateFrom]
      split
      next dead => simp [dead, survives, stays]
      next alive =>
        have fits : g.Fits ((source.entries.toList.take row).filter stays) :=
          Generation.fits_of_types same fun _ member =>
            List.mem_of_mem_take (List.mem_filter.mp member).1
        have inside := present row (Nat.lt_succ_self row) id here (by simpa [survives] using alive)
        rw [Generation.appendFrom_eq_extend ((Generation.types_grow fits).trans same) inside]
        simp [alive, survives, stays, Generation.grow]

/-- Where every row has its values, nothing stops the migration. -/
theorem migrateFrom_eq (removed : Array EntityId) (same : g.types = source.types)
    (present : ∀ row, Present source row) :
    migrateFrom source 0 source.ids.toList g ⟨removed, #[]⟩ =
      (.ok ⟨removed ++ (source.ids.toList.filter fun x => !survives x).toArray,
        (source.ids.toList.filter survives).toArray⟩, g.grow (staying source)) := by
  rw [migrateFrom_take removed same source.ids.size fun row _ => present row,
    List.drop_of_length_le (Nat.le_of_eq Array.length_toList),
    List.take_of_length_le (Nat.le_of_eq Array.length_toList),
    List.take_of_length_le (Nat.le_of_eq (Array.length_toList.trans source.size_entries))]
  rfl

/-! ### Committing -/

/-- A commit sweeps the current generation and puts the pending rows that stay at its end. -/
theorem commit_eq (even : c.current.Even) (even' : c.pending.Even)
    (same : c.current.types = c.pending.types) :
    ∃ out g, Swept c.current out g ∧ c.commit =
      (.ok ⟨(out.map Prod.fst).toArray ++ (c.pending.ids.toList.filter fun x => !survives x).toArray,
        (c.pending.ids.toList.filter survives).toArray⟩,
        { c with current := g.grow (staying c.pending), pending := c.pending.clear }) := by
  obtain ⟨all, g, done⟩ := sweepFrom_of_even c.current.size 0 #[] even
  obtain ⟨out, rfl, swept⟩ := swept_of_sweep done
  refine ⟨out, g, swept, ?_⟩
  simp only [commit, sweep, done,
    migrateFrom_eq _ (swept.types.trans same) (present_of_even even')]

/-- Everything that survives is current then. -/
theorem ids_of_swept (swept : Swept c.current out g) :
    (g.grow (staying c.pending)).ids.toList.Perm (c.ids.filter survives) := by
  rw [Generation.ids_grow, ids_of_staying, ids, List.filter_append]
  exact swept.filter_ids.1.symm.append_right _

/-- What a commit makes of a collection. -/
structure Committed (c c' : Collection) (report : CommitReport) : Prop where
  wellFormed : c'.WellFormed
  sequence : c'.sequence = c.sequence
  pending : c'.pending.ids = #[]
  current : c'.current.ids.toList.Perm (c.ids.filter survives)
  removed : report.removed.toList.Perm (c.ids.filter fun x => !survives x)
  migrated : report.migrated.toList = c.pending.ids.toList.filter survives

/-- A commit sweeps the current generation and migrates the pending one, and neither can fail. -/
theorem commit_spec (wf : c.WellFormed) :
    ∃ report c', c.commit = (.ok report, c') ∧ Committed c c' report := by
  obtain ⟨out, g, swept, committed⟩ := commit_eq wf.current.columns wf.pending.columns wf.types
  obtain ⟨even, types, -⟩ :=
    Generation.grow_spec (swept.even wf.current.columns) (swept.fits wf.types)
  have current := ids_of_swept swept
  -- The generations share no raw id, so none is twice in what becomes of them.
  have distinct : (g.grow (staying c.pending)).Distinct :=
    (current.map EntityId.raw).nodup_iff.mpr
      (wf.nodup.sublist (List.filter_sublist.map EntityId.raw))
  have listed := swept.listed (separate_of_distinct wf.current.nodup)
    fun x member _ => wf.current.listed x member
  have wellFormed : (g.grow (staying c.pending)).WellFormed :=
    Generation.wellFormed_of_listed even (Generation.pointed_grow (swept.pointed wf.current.pointed))
      (Generation.listed_grow listed) distinct
  have cleared : c.pending.clear.WellFormed :=
    Generation.wellFormed_of_columns (Generation.even_clear c.pending)
  refine ⟨_, _, committed, ⟨wellFormed, cleared, ?_, ?_⟩, rfl, rfl, current, ?_, rfl⟩
  · rw [Generation.types_clear, ← wf.types, ← swept.types, Generation.types_eq, types,
      ← Generation.types_eq]
  · rintro raw - ⟨x, member, -⟩
    exact absurd member (Array.not_mem_empty x)
  · rw [Array.toList_append, ids, List.filter_append]
    exact swept.filter_ids.2.symm.append_right _

/-- The report of a commit that goes through. -/
def part (c : Collection) : CommitReport :=
  match c.commit.1 with
  | .ok report => report
  | .error _ => .empty

theorem part_of_commit {report : CommitReport} {c' : Collection} (done : c.commit = (.ok report, c')) :
    c.part = report ∧ c.commit.2 = c' := by
  rw [part, done]
  exact ⟨rfl, rfl⟩

end EntityWorld.Collection
