import EntityWorld.Proofs.Relabel

/-!
# Rows under changed ids

Rows are found by raw ids and swept by life states, so a change of ids that keeps both is not noticed:
what is done to changed rows is what would have been done to the rows, changed. Main statements:
`Collection.commit_relabel` and `Store.commit_relabel`.
-/
namespace EntityWorld

variable {f : EntityId → EntityId}

theorem map_swapRemove {α β : Type} (g : α → β) (rows : Array α) (row : Nat) :
    swapRemove (rows.map g) row = (swapRemove rows row).map g := by
  unfold swapRemove
  rw [Array.size_map]
  split
  next inside =>
    rw [Array.back?_eq_getElem?, Array.back?_eq_getElem?, Array.size_map, Array.getElem?_map]
    cases rows[rows.size - 1]? with
    | none => rfl
    | some last => simp only [Option.map_some, Array.map_pop, Array.map_setIfInBounds]
  next => rfl

namespace CommitReport

def relabel (f : EntityId → EntityId) (report : CommitReport) : CommitReport :=
  ⟨report.removed.map f, report.migrated.map f⟩

theorem empty_relabel (f : EntityId → EntityId) : empty.relabel f = empty := by
  simp only [relabel, empty, Array.map_empty]

theorem append_relabel (a b : CommitReport) :
    (a.relabel f).append (b.relabel f) = (a.append b).relabel f := by
  simp only [append, relabel, Array.map_append]

end CommitReport

theorem Generation.clear_relabel (f : EntityId → EntityId) (g : Generation) :
    (g.relabel f).clear = g.clear.relabel f := by
  simp only [clear, relabel, Array.map_empty]

theorem Collection.read_relabel (f : EntityId → EntityId) (c : Collection) (kind : Kind)
    (type : StoredType) : (c.relabel f).read kind type = c.read kind type := rfl

theorem Collection.edit_relabel (f : EntityId → EntityId) (c : Collection) (kind : Kind)
    (type : StoredType) (change : Nat → Row → Row) :
    (c.relabel f).edit kind type change = (c.edit kind type change).map (Collection.relabel f) := by
  have sequence : (c.relabel f).sequence = c.sequence := rfl
  unfold edit
  rw [read_relabel, sequence]
  cases c.read kind type with
  | error cause => rfl
  | ok rows => cases c.sequence.position? kind <;> rfl

section

variable (raws : ∀ x, (f x).raw = x.raw)
include raws

namespace Generation

variable {g source : Generation} {id : EntityId} {row : Nat}

theorem append_relabel : (g.relabel f).append (f id) = (g.append id).relabel f := by
  simp only [append, relabel, Array.map_push, Array.size_map, raws]

theorem removeRow_relabel : (g.relabel f).removeRow row (f id) =
    ((g.removeRow row id).1, (g.removeRow row id).2.relabel f) := by
  simp only [removeRow, relabel, map_swapRemove, raws, Array.getElem?_map]
  rcases removeFromColumns row g.columns with ⟨fault | ok, columns⟩
  · rfl
  · cases (swapRemove g.ids row)[row]? with
    | none => rfl
    | some moved => simp only [Option.map_some, raws]

theorem appendFrom_relabel : (g.relabel f).appendFrom (source.relabel f) row (f id) =
    ((g.appendFrom source row id).1, (g.appendFrom source row id).2.relabel f) := by
  simp only [appendFrom, relabel, Array.size_map, raws]
  rcases copyRow row g.columns source.columns with ⟨cause | ok, columns⟩
  · rfl
  · simp only [Array.map_push]

end Generation

namespace Collection

variable {c : Collection}

theorem create_relabel (id : EntityId) : (c.relabel f).create (f id) = (c.create id).relabel f := by
  simp only [create, relabel, Generation.append_relabel raws]

variable (lives : ∀ x, (f x).life = x.life)
include lives

theorem sweepFrom_relabel (steps row : Nat) (g : Generation) (removed : Array EntityId) :
    sweepFrom steps row (g.relabel f) (removed.map f) =
      ((sweepFrom steps row g removed).1.map (Array.map f), (sweepFrom steps row g removed).2.relabel f) := by
  induction steps generalizing row g removed with
  | zero => rfl
  | succ steps ih =>
    have here : (g.relabel f).ids[row]? = (g.ids[row]?).map f := Array.getElem?_map
    simp only [sweepFrom, here]
    cases g.ids[row]? with
    | none => rfl
    | some id =>
      simp only [Option.map_some, lives]
      split
      next dead =>
        simp only [Generation.removeRow_relabel raws]
        rcases g.removeRow row id with ⟨fault | ok, after⟩
        · rfl
        · simp only [← Array.map_push]
          exact ih row after (removed.push id)
      next alive => exact ih (row + 1) g removed

theorem migrateFrom_relabel (source : Generation) (row : Nat) (ids : List EntityId) (g : Generation)
    (report : CommitReport) :
    migrateFrom (source.relabel f) row (ids.map f) (g.relabel f) (report.relabel f) =
      ((migrateFrom source row ids g report).1.map (CommitReport.relabel f),
        (migrateFrom source row ids g report).2.relabel f) := by
  induction ids generalizing row g report with
  | nil => rfl
  | cons id rest ih =>
    simp only [List.map_cons, migrateFrom, lives]
    split
    next dead =>
      simp only [CommitReport.relabel, ← Array.map_push]
      exact ih (row + 1) g { report with removed := report.removed.push id }
    next alive =>
      simp only [Generation.appendFrom_relabel raws]
      rcases g.appendFrom source row id with ⟨cause | ok, after⟩
      · rfl
      · simp only [CommitReport.relabel, ← Array.map_push]
        exact ih (row + 1) after { report with migrated := report.migrated.push id }

theorem commit_relabel (c : Collection) : (c.relabel f).commit =
    (c.commit.1.map (CommitReport.relabel f), c.commit.2.relabel f) := by
  have swept : sweep (c.relabel f).current =
      ((sweep c.current).1.map (Array.map f), (sweep c.current).2.relabel f) := by
    have size : (c.current.relabel f).size = c.current.size := Array.size_map
    have swept := sweepFrom_relabel raws lives c.current.size 0 c.current #[]
    rw [Array.map_empty] at swept
    rwa [sweep, show (c.relabel f).current = c.current.relabel f from rfl, size]
  have pending : (c.relabel f).pending.ids.toList = c.pending.ids.toList.map f := Array.toList_map
  simp only [commit, swept, pending]
  rcases sweep c.current with ⟨fault | removed, current⟩
  · rfl
  · have migrated := migrateFrom_relabel raws lives c.pending 0 c.pending.ids.toList current ⟨removed, #[]⟩
    simp only [CommitReport.relabel, Array.map_empty] at migrated
    simp only [Except.map, relabel, migrated]
    rcases migrateFrom c.pending 0 c.pending.ids.toList current ⟨removed, #[]⟩ with
      ⟨cause | report, current⟩
    · rfl
    · simp only [Generation.clear_relabel]

end Collection

end

namespace Store

variable {s : Store} {a : ArchetypeId}

theorem archetypeOf?_relabel (f : EntityId → EntityId) (s : Store) (sequence : Sequence) :
    (s.relabel f).archetypeOf? sequence = s.archetypeOf? sequence := rfl

theorem size_relabel (f : EntityId → EntityId) (s : Store) : (s.relabel f).size = s.size := Array.size_map

theorem setLoadState_relabel (f : EntityId → EntityId) (s : Store) (d : DefinitionId)
    (state : LoadState) : (s.relabel f).setLoadState d state =
      ((s.setLoadState d state).1, (s.setLoadState d state).2.relabel f) := by
  have known : (s.relabel f).definition? d = s.definition? d := rfl
  unfold setLoadState
  rw [known]
  cases s.definition? d <;> rfl

theorem refreshIndex_relabel (f : EntityId → EntityId) (s : Store) (kindCount : Nat) :
    ((s.relabel f).refreshIndex kindCount).value =
      ((s.refreshIndex kindCount).value.1, (s.refreshIndex kindCount).value.2.relabel f) := by
  have listed : (s.relabel f).archetypes =
      s.archetypes.map fun entry => (entry.1, entry.2.relabel f) := by
    simp only [archetypes, relabel, Array.toList_map, List.zipIdx_map, List.map_map]
    rfl
  have dirty : (s.relabel f).dirty = s.dirty := rfl
  unfold refreshIndex
  rw [dirty, listed, List.map_map]
  split <;> rfl

theorem modifyCollection_relabel {change change' : Collection → Collection}
    (same : ∀ c, s.collection? a = some c → change' (c.relabel f) = (change c).relabel f) :
    (s.relabel f).modifyCollection a change' = (s.modifyCollection a change).relabel f := by
  have collections : (s.collections.map (Collection.relabel f)).modify a.index change' =
      (s.collections.modify a.index change).map (Collection.relabel f) := by
    refine Array.ext_getElem? fun place => ?_
    rw [Array.getElem?_modify, Array.getElem?_map, Array.getElem?_map, Array.getElem?_modify]
    split
    next at_ =>
      subst at_
      cases here : s.collections[a.index]? with
      | none => rfl
      | some c => exact congrArg some (same c here)
    next => rfl
  simp only [modifyCollection, relabel, collections]

theorem push_relabel (f : EntityId → EntityId) (s : Store) (sequence : Sequence) (c : Collection) :
    (s.relabel f).push sequence (c.relabel f) = (s.push sequence c).relabel f := by
  simp only [push, relabel, Array.map_push, Array.size_map]

/-- Collections are made without rows. -/
theorem getOrCreate_relabel (f : EntityId → EntityId) (s : Store) (registry : Registry)
    (sequence : Sequence) :
    ((s.relabel f).getOrCreate registry sequence).value =
      ((s.getOrCreate registry sequence).value.1, (s.getOrCreate registry sequence).value.2.relabel f) := by
  unfold getOrCreate
  rw [archetypeOf?_relabel]
  cases s.archetypeOf? sequence with
  | some a => rfl
  | none =>
    cases bound : Collection.unbound.bind registry sequence with
    | error cause => rfl
    | ok c =>
      obtain ⟨-, none, -⟩ := Collection.bind_unbound bound
      have empty : c.relabel f = c := Collection.relabel_of_fixed fun x member => by
        rw [none] at member
        cases member
      have pushed := s.push_relabel f sequence c
      rw [empty] at pushed
      simp only [Logged.value_bind, Logged.value_pure, pushed]
      simp only [relabel, Array.size_map]

section

variable (raws : ∀ x, (f x).raw = x.raw)
include raws

theorem create_relabel (a : ArchetypeId) (id : EntityId) :
    (s.relabel f).create a (f id) = ((s.create a id).1, (s.create a id).2.relabel f) := by
  unfold create
  rw [collection?_relabel]
  cases here : s.collection? a with
  | none => rfl
  | some c =>
    have modified : (s.relabel f).modifyCollection a (·.create (f id)) =
        (s.modifyCollection a (·.create id)).relabel f :=
      modifyCollection_relabel fun c _ => Collection.create_relabel raws id
    simp only [Option.map_some, modified, raws]
    rfl

variable (lives : ∀ x, (f x).life = x.life)
include lives

theorem commitFrom_relabel (rest position : Nat) (s : Store) (report : CommitReport) :
    commitFrom rest position (s.relabel f) (report.relabel f) =
      ((commitFrom rest position s report).1.map (CommitReport.relabel f),
        (commitFrom rest position s report).2.relabel f) := by
  induction rest generalizing position s report with
  | zero => rfl
  | succ rest ih =>
    have here : (s.relabel f).collections[position]? =
        (s.collections[position]?).map (Collection.relabel f) := Array.getElem?_map
    simp only [commitFrom, here]
    cases found : s.collections[position]? with
    | none => rfl
    | some c =>
      have modified (after : Collection) :
          (s.relabel f).modifyCollection ⟨position⟩ (fun _ => after.relabel f) =
            (s.modifyCollection ⟨position⟩ fun _ => after).relabel f :=
        modifyCollection_relabel fun _ _ => rfl
      simp only [Option.map_some, Collection.commit_relabel raws lives]
      rcases c.commit with ⟨failure | each, after⟩
      · simp only [Except.map, modified]
      · have located : (each.relabel f).removed.foldl (fun map id => map.erase id.raw) s.locations =
            each.removed.foldl (fun map id => map.erase id.raw) s.locations := by
          simp only [CommitReport.relabel, Array.foldl_map, raws]
        simp only [Except.map, CommitReport.append_relabel, modified]
        rw [show (s.relabel f).locations = s.locations from rfl, located]
        exact ih (position + 1)
          { s.modifyCollection ⟨position⟩ fun _ => after with
            locations := each.removed.foldl (fun map id => map.erase id.raw) s.locations }
          (report.append each)

theorem commit_relabel (s : Store) : (s.relabel f).commit.value =
    (s.commit.value.1.map (CommitReport.relabel f), s.commit.value.2.relabel f) := by
  have size : (s.relabel f).collections.size = s.collections.size := s.size_relabel f
  have committed := commitFrom_relabel raws lives s.collections.size 0 s .empty
  rw [CommitReport.empty_relabel] at committed
  rwa [value_commit, value_commit, size]

end

end Store

end EntityWorld
