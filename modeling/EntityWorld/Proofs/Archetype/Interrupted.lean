import Mathlib.Data.List.Induction
import Mathlib.Data.Nat.Find
import EntityWorld.Proofs.Archetype.Calls

/-!
# Interrupted commits

A commit that cannot copy a row ends there. By then it has swept the current generation and moved the
rows before; nothing of that is taken back, and pending is left as it was, so the next commit moves
the same rows once more. This becomes of a collection that was bound while entities were waiting in
it, for whom the new columns have no values, and of no other: `interrupted_of_play`.
-/
namespace EntityWorld

namespace Generation

variable {g source : Generation} {row : Nat} {id : EntityId}

/-- All columns have as many rows, though perhaps not one for each entity. -/
def Level (g : Generation) : Prop := ∃ rows, ∀ column ∈ g.columns, column.size = rows

/-- If one column lacks a row then so does the first, and nothing is copied. -/
theorem appendFrom_of_lacking (level : source.Level) (same : g.types = source.types)
    (lacking : ∃ column ∈ source.columns, column.size ≤ row) (id : EntityId) :
    g.appendFrom source row id = (.error .columnCopy, g) := by
  obtain ⟨rows, level⟩ := level
  obtain ⟨short, member, missing⟩ := lacking
  rw [level short member] at missing
  obtain ⟨ids, columns, rowMap⟩ := g
  cases sources : source.columns with
  | nil => simp [sources] at member
  | cons first others =>
    cases columns with
    | nil => simp [types, sources] at same
    | cons column rest =>
      have matching : column.type.id = first.type.id := by
        simp only [types, sources, List.map_cons, List.cons.injEq] at same
        exact same.1
      have none : first.rows[row]? = none := by
        have size := level first (sources ▸ List.mem_cons_self)
        exact Array.getElem?_eq_none (Nat.le_trans (Nat.le_of_eq size) missing)
      simp only [appendFrom, sources, copyRow, Column.pushFrom, if_pos matching, Column.get?, none]

/-! ### What the columns store -/

theorem types_removeFromColumns (row : Nat) (columns : List Column) :
    (removeFromColumns row columns).2.map Column.type = columns.map Column.type := by
  induction columns with
  | nil => rfl
  | cons column rest ih =>
    simp only [removeFromColumns, Column.swapRemove]
    split
    · rfl
    next shorter removed =>
      split at removed
      · cases removed
        rw [List.map_cons, ih, List.map_cons]
      · cases removed

theorem storedTypes_removeRow (g : Generation) (row : Nat) (id : EntityId) :
    (g.removeRow row id).2.storedTypes = g.storedTypes := by
  have types := types_removeFromColumns row g.columns
  simp only [removeRow]
  split
  · exact types
  · split <;> exact types

theorem types_copyRow (row : Nat) (columns sources : List Column) :
    (copyRow row columns sources).2.map Column.type = columns.map Column.type := by
  induction columns generalizing sources with
  | nil => cases sources <;> rfl
  | cons column rest ih =>
    cases sources with
    | nil => rfl
    | cons source sources =>
      simp only [copyRow, Column.pushFrom]
      split
      · rfl
      next longer pushed =>
        split at pushed
        · split at pushed
          · cases pushed
            rw [List.map_cons, ih, List.map_cons, Column.push]
          · cases pushed
        · cases pushed

theorem storedTypes_appendFrom (g source : Generation) (row : Nat) (id : EntityId) :
    (g.appendFrom source row id).2.storedTypes = g.storedTypes := by
  have types := types_copyRow row g.columns source.columns
  simp only [appendFrom]
  split <;> exact types

end Generation

namespace Collection

variable {c c' : Collection} {g source : Generation} {id next : EntityId} {place : Nat}
  {cause : CollectionError} {calls : List Call}

theorem storedTypes_sweepFrom (steps row : Nat) (g : Generation) (removed : Array EntityId) :
    (sweepFrom steps row g removed).2.storedTypes = g.storedTypes := by
  induction steps generalizing row g removed with
  | zero => rfl
  | succ steps ih =>
    simp only [sweepFrom]
    split
    · rfl
    next id here =>
      split
      · have types := g.storedTypes_removeRow row id
        split
        next removal =>
          rw [removal] at types
          exact types
        next removal =>
          rw [removal] at types
          exact (ih ..).trans types
      · exact ih ..

theorem storedTypes_migrateFrom (source : Generation) (row : Nat) (rest : List EntityId) (g : Generation)
    (report : CommitReport) :
    (migrateFrom source row rest g report).2.storedTypes = g.storedTypes := by
  induction rest generalizing row g report with
  | nil => rfl
  | cons id rest ih =>
    simp only [migrateFrom]
    split
    · exact ih ..
    · have types := g.storedTypes_appendFrom source row id
      split
      next copied =>
        rw [copied] at types
        exact types
      next copied =>
        rw [copied] at types
        exact (ih ..).trans types

theorem types_commit (c : Collection) : c.commit.2.current.types = c.current.types := by
  have swept := storedTypes_sweepFrom c.current.size 0 c.current #[]
  rw [Generation.types_eq, Generation.types_eq]
  refine congrArg (List.map StoredType.id) ?_
  simp only [commit, sweep]
  split
  next result =>
    rw [result] at swept
    exact swept
  next removed current result =>
    rw [result] at swept
    have migrated := storedTypes_migrateFrom c.pending 0 c.pending.ids.toList current ⟨removed, #[]⟩
    split
    next result =>
      rw [result] at migrated
      exact migrated.trans swept
    next result =>
      rw [result] at migrated
      exact migrated.trans swept

/-! ### Any call -/

/-- What a call does to the pending columns, and to what the columns store. -/
inductive Turned (c c' : Collection) : Prop where
  | bound {columns : List Column} (unused : c.sequence.isEmpty = true)
      (bound : c'.sequence.isEmpty = false) (empty : ∀ column ∈ columns, column.size = 0)
      (current : c'.current = { c.current with columns })
      (pending : c'.pending = { c.pending with columns })
  | kept (types : c'.current.types = c.current.types)
      (columns : c'.pending.columns = c.pending.columns)
      (size : c'.pending.ids.size = c.pending.ids.size)
  | created {id : EntityId} (types : c'.current.types = c.current.types)
      (pending : c'.pending = c.pending.append id)
  | cleared (types : c'.current.types = c.current.types) (pending : c'.pending = c.pending.clear)

theorem Turned.unchanged (c : Collection) : Turned c c := .kept rfl rfl rfl

theorem turned_setUp (c : Collection) (registry : Registry) (definition? : Option DefinitionId)
    (sequence : Sequence) : Turned c (c.setUp registry definition? sequence).value.2 := by
  cases used : c.sequence.isEmpty with
  | false =>
    obtain ⟨definitions, value⟩ := setUp_of_bound used registry definition? sequence
    rw [value]
    exact .kept rfl rfl rfl
  | true =>
    unfold setUp
    split
    · exact .unchanged c
    next bound found =>
      simp only [bind, used, if_true] at found
      split at found
      · cases found
      next nonempty =>
        have nonempty : sequence.isEmpty = false := by simpa using nonempty
        cases built : buildColumns registry sequence.kinds with
        | error cause => simp [built, Except.map] at found
        | ok columns =>
          simp only [built, Except.map, Except.ok.injEq] at found
          subst found
          have empty := size_of_buildColumns built
          cases definition? with
          | none => exact .bound used nonempty empty rfl rfl
          | some definition =>
            simp only [Logged.value_bind, Logged.value_pure, value_attach]
            exact .bound used nonempty empty rfl rfl

theorem turned_update (c : Collection) (id next : EntityId) : Turned c (c.update id next).2 := by
  unfold update
  split
  · exact .unchanged c
  · split
    · exact .unchanged c
    · split
      next replaced =>
        obtain ⟨row, -, rfl⟩ := Generation.overwritten_of_replace? replaced
        exact .kept rfl rfl rfl
      next =>
        split
        next replaced =>
          obtain ⟨row, -, rfl⟩ := Generation.overwritten_of_replace? replaced
          exact .kept rfl rfl Array.size_setIfInBounds
        next => exact .unchanged c

theorem turned_commit (c : Collection) : Turned c c.commit.2 := by
  have types := c.types_commit
  unfold commit at types ⊢
  cases swept : sweep c.current with
  | mk result g =>
    cases result with
    | error fault =>
      simp only [swept] at types ⊢
      exact .kept types rfl rfl
    | ok removed =>
      simp only [swept] at types ⊢
      cases migrated : migrateFrom c.pending 0 c.pending.ids.toList g ⟨removed, #[]⟩ with
      | mk result g =>
        cases result with
        | error cause =>
          simp only [migrated] at types ⊢
          exact .kept types rfl rfl
        | ok report =>
          simp only [migrated] at types ⊢
          exact .cleared types rfl

theorem turned_perform (c : Collection) (call : Call) : Turned c (c.perform call) := by
  cases call with
  | setUp registry definition? sequence => exact c.turned_setUp registry definition? sequence
  | create id => exact .created rfl rfl
  | update id next => exact c.turned_update id next
  | edit kind type change =>
    simp only [perform]
    split
    next edited =>
      obtain ⟨position, rfl⟩ := edit_ok edited
      refine .kept ?_ rfl rfl
      have types := c.current.storedTypes_revise change position
      rw [Generation.types_eq, Generation.types_eq]
      exact congrArg (List.map StoredType.id) types
    next => exact .unchanged c
  | commit => exact c.turned_commit

/-- What holds of the columns whatever was called: both generations store the same types, and the
pending columns have the same rows. -/
structure Aligned (c : Collection) : Prop where
  types : c.current.types = c.pending.types
  level : c.pending.Level

theorem Aligned.turned (aligned : Aligned c) (turned : Turned c c') : Aligned c' := by
  cases turned with
  | bound unused bound empty current pending =>
    refine ⟨?_, ⟨0, ?_⟩⟩
    · rw [current, pending]
      rfl
    · rw [pending]
      exact empty
  | kept types columns size =>
    refine ⟨types.trans (aligned.types.trans ?_), ?_⟩
    · rw [Generation.types, Generation.types, columns]
    · rw [Generation.Level, columns]
      exact aligned.level
  | created types pending =>
    refine ⟨?_, ?_⟩
    · rw [types, pending, Generation.types_append, aligned.types]
    · obtain ⟨rows, level⟩ := aligned.level
      refine ⟨rows + 1, fun column member => ?_⟩
      rw [pending] at member
      obtain ⟨old, before, rfl⟩ := List.mem_map.mp member
      simp [Column.pushDefault, Column.push, Column.size, ← level old before]
  | cleared types pending =>
    refine ⟨?_, ⟨0, fun column member => ?_⟩⟩
    · rw [types, pending, Generation.types_clear, aligned.types]
    · rw [pending] at member
      obtain ⟨old, -, rfl⟩ := List.mem_map.mp member
      rfl

theorem aligned_play (aligned : Aligned c) (calls : List Call) : Aligned (c.play calls) := by
  induction calls generalizing c with
  | nil => exact aligned
  | cons call rest ih => exact ih (aligned.turned (c.turned_perform call))

theorem aligned_unbound : Aligned unbound := ⟨rfl, 0, fun column member => by cases member⟩

/-! ### Where entities were waiting -/

/-- One of the calls bound the collection while entities were waiting in it. -/
def Premature (calls : List Call) : Prop :=
  ∃ early call late, calls = early ++ call :: late ∧ (unbound.play early).sequence.isEmpty = true ∧
    (unbound.play early).pending.ids ≠ #[] ∧ ((unbound.play early).perform call).sequence.isEmpty = false

theorem Premature.append (premature : Premature calls) (more : List Call) : Premature (calls ++ more) := by
  obtain ⟨early, call, late, rfl, rest⟩ := premature
  exact ⟨early, call, late ++ more, by simp, rest⟩

theorem play_concat (calls : List Call) (call : Call) :
    c.play (calls ++ [call]) = (c.play calls).perform call := by
  rw [play, List.foldl_append, List.foldl_cons, List.foldl_nil, ← play]

/-- Otherwise the pending columns have a row for each entity. -/
theorem even_or_premature (calls : List Call) :
    (unbound.play calls).pending.Even ∨ Premature calls := by
  induction calls using List.reverseRecOn with
  | nil => exact .inl fun column member => by cases member
  | append_singleton calls call ih =>
    rcases ih with even | premature
    · rw [play_concat]
      have turned := (unbound.play calls).turned_perform call
      cases turned with
      | bound unused bound empty current pending =>
        -- The new columns are empty, which is right for every entity only if there is none.
        by_cases waiting : (unbound.play calls).pending.ids = #[]
        · refine .inl fun column member => ?_
          rw [pending] at member ⊢
          rw [empty column member, waiting]
          rfl
        · exact .inr ⟨calls, call, [], rfl, unused, waiting, bound⟩
      | kept _ columns size =>
        refine .inl fun column member => ?_
        rw [size]
        exact even column (columns ▸ member)
      | created _ pending =>
        left
        rw [pending, Generation.append_eq_extend]
        exact Generation.even_extend (by simp [Generation.storedTypes]) even
      | cleared _ pending =>
        left
        rw [pending]
        exact Generation.even_clear _
    · exact .inr (premature.append [call])

/-! ### A commit that stops -/

/-- The first row that is to migrate and has no value in some column. -/
structure Stop (source : Generation) (place : Nat) : Prop where
  blocked : ¬ Present source place
  before : ∀ row < place, Present source row

theorem stop_or_present (source : Generation) :
    (∃ place, Stop source place) ∨ ∀ row, Present source row := by
  classical
  by_cases blocked : ∃ row, ¬ Present source row
  · exact .inl ⟨Nat.find blocked, Nat.find_spec blocked,
      fun row before => not_not.mp (Nat.find_min blocked before)⟩
  · exact .inr fun row => not_not.mp fun absent => blocked ⟨row, absent⟩

/-- The rows before a place that migrate. -/
def moved (source : Generation) (place : Nat) : List EntityRow :=
  (source.entries.toList.take place).filter stays

theorem mem_of_moved {e : EntityRow} (member : e ∈ moved source place) :
    e ∈ source.entries.toList :=
  List.mem_of_mem_take (List.mem_filter.mp member).1

theorem migrateFrom_of_stop (removed : Array EntityId) (level : source.Level)
    (same : g.types = source.types) (stop : Stop source place) :
    migrateFrom source 0 source.ids.toList g ⟨removed, #[]⟩ =
      (.error .columnCopy, g.grow (moved source place)) := by
  obtain ⟨id, here, alive, lacking⟩ : ∃ id, source.ids[place]? = some id ∧ survives id = true ∧
      ∃ column ∈ source.columns, column.size ≤ place := by
    simpa [Present] using stop.blocked
  have dropped : source.ids.toList.drop place = id :: source.ids.toList.drop (place + 1) := by
    rw [List.drop_eq_getElem?_toList_append, Array.getElem?_toList, here]
    rfl
  have types : (g.grow (moved source place)).types = source.types :=
    (Generation.types_grow (Generation.fits_of_types same fun _ => mem_of_moved)).trans same
  have alive : id.life ≠ .destroyed := by simpa [survives] using alive
  -- Up to the place every row is copied, and there the first one is not.
  rw [migrateFrom_take removed same place stop.before, dropped]
  simp only [migrateFrom, if_neg alive]
  rw [← moved, Generation.appendFrom_of_lacking level types lacking]

/-- No entity is to be swept, and migration would stop at a place. -/
structure Stuck (c : Collection) (place : Nat) : Prop where
  aligned : Aligned c
  alive : ∀ x ∈ c.current.ids, survives x
  stop : Stop c.pending place

/-- The collection with more rows in current, whether they are still pending or not. -/
def ahead (c : Collection) (rows : List EntityRow) : Collection :=
  { c with current := c.current.grow rows }

namespace Stuck

variable (stuck : Stuck c place)
include stuck

theorem commit_eq :
    c.commit = (.error (.error .columnCopy), c.ahead (moved c.pending place)) := by
  have migrated := migrateFrom_of_stop #[] stuck.aligned.level stuck.aligned.types stuck.stop
  simp only [commit, sweep, sweepFrom_of_alive _ _ _ stuck.alive, migrated, ahead]

theorem ahead : Stuck (c.ahead (moved c.pending place)) place where
  aligned := by
    have fits : c.current.Fits (moved c.pending place) :=
      Generation.fits_of_types stuck.aligned.types fun _ => mem_of_moved
    exact ⟨(Generation.types_grow fits).trans stuck.aligned.types, stuck.aligned.level⟩
  alive := by
    intro x member
    have member : x ∈ (c.current.grow (moved c.pending place)).ids.toList :=
      Array.mem_toList_iff.mpr member
    rw [Generation.ids_grow] at member
    rcases List.mem_append.mp member with old | new
    · exact stuck.alive x (Array.mem_toList_iff.mp old)
    · obtain ⟨e, inside, rfl⟩ := List.mem_map.mp new
      exact (List.mem_filter.mp inside).2
  stop := stuck.stop

/-- Every further commit moves the same rows once more and stops at the same place. -/
theorem commits (n : Nat) : c.play (List.replicate n .commit) =
      c.ahead (List.replicate n (moved c.pending place)).flatten ∧
    (c.play (List.replicate n .commit)).commit.1 = .error (.error .columnCopy) := by
  induction n generalizing c with
  | zero => exact ⟨rfl, congrArg Prod.fst stuck.commit_eq⟩
  | succ n ih =>
    have next : c.play (List.replicate (n + 1) .commit) =
        (c.ahead (moved c.pending place)).play (List.replicate n .commit) := by
      rw [List.replicate_succ, play, List.foldl_cons, ← play, perform, stuck.commit_eq]
    obtain ⟨later, fails⟩ := ih stuck.ahead
    rw [next]
    refine ⟨later.trans ?_, fails⟩
    rw [List.replicate_succ, List.flatten_cons, Collection.ahead, Collection.ahead, Collection.ahead,
      Generation.grow_append]

end Stuck

/-- What a commit leaves that stopped at a place of pending. -/
structure Interrupted (c : Collection) (place : Nat) (c' : Collection) : Prop where
  stop : Stop c.pending place
  left : ∃ out g, Swept c.current out g ∧
    c' = { c with current := g.grow (moved c.pending place) }
  ids : c'.current.ids.toList.Perm
    (c.current.ids.toList.filter survives ++ (moved c.pending place).map Prod.fst)
  -- Nothing has changed only where there was nothing to sweep and nothing to move before.
  intact : c' = c ↔ (∀ x ∈ c.current.ids, survives x) ∧ moved c.pending place = []
  again : ∀ n, c'.play (List.replicate n .commit) =
      c'.ahead (List.replicate n (moved c.pending place)).flatten ∧
    (c'.play (List.replicate n .commit)).commit.1 = .error (.error .columnCopy)

theorem interrupted_of_stop {out : List EntityRow} (aligned : Aligned c) (stop : Stop c.pending place)
    (swept : Swept c.current out g) :
    Interrupted c place { c with current := g.grow (moved c.pending place) } := by
  have types := swept.types.trans aligned.types
  have stuck : Stuck { c with current := g } place :=
    ⟨⟨types, aligned.level⟩, swept.alive, stop⟩
  refine ⟨stop, ⟨out, g, swept, rfl⟩, ?_, ⟨fun same => ?_, ?_⟩, stuck.ahead.commits⟩
  · rw [Generation.ids_grow]
    exact swept.filter_ids.1.symm.append_right _
  · -- All that a commit leaves in current survives, so there was nothing to sweep if it left all.
    have current : g.grow (moved c.pending place) = c.current := congrArg Collection.current same
    have alive : ∀ x ∈ c.current.ids, survives x := by
      rw [← current]
      exact stuck.ahead.alive
    refine ⟨alive, ?_⟩
    rw [swept.eq_of_alive alive] at current
    have longer := congrArg (fun g : Generation => g.ids.toList.length) current
    simp only [Generation.ids_grow, List.length_append, List.length_map] at longer
    exact List.eq_nil_of_length_eq_zero (by omega)
  · rintro ⟨alive, unmoved⟩
    rw [unmoved, swept.eq_of_alive alive]
    rfl

theorem interrupted_of_commit (aligned : Aligned c)
    (failed : c.commit = (.error (.error cause), c')) :
    cause = .columnCopy ∧ ∃ place, Interrupted c place c' := by
  unfold commit at failed
  cases done : sweep c.current with
  | mk result g =>
    simp only [done] at failed
    cases result with
    | error fault => cases failed
    | ok removed =>
      obtain ⟨out, rfl, swept⟩ := swept_of_sweep done
      have types := swept.types.trans aligned.types
      rcases stop_or_present c.pending with ⟨place, stop⟩ | present
      · simp only [migrateFrom_of_stop _ aligned.level types stop] at failed
        cases failed
        exact ⟨rfl, place, interrupted_of_stop aligned stop swept⟩
      · simp only [migrateFrom_eq _ types present] at failed
        cases failed

/-- Whatever was called, a commit that fails has swept the current generation and moved the pending
rows before the one that it could not copy, and they are all still pending. -/
theorem interrupted_of_play (failed : (unbound.play calls).commit = (.error (.error cause), c')) :
    cause = .columnCopy ∧ (∃ place, Interrupted (unbound.play calls) place c') ∧ Premature calls := by
  obtain ⟨named, place, interrupted⟩ :=
    interrupted_of_commit (aligned_play aligned_unbound calls) failed
  refine ⟨named, ⟨place, interrupted⟩, ?_⟩
  rcases even_or_premature calls with even | premature
  · exact absurd (present_of_even even place) interrupted.stop.blocked
  · exact premature

/-- Bound with one entity waiting, before another is created. -/
def boundLate : List Call :=
  [.create (.ofRaw 1), .setUp ageRegistry none ageSequence, .create (.ofRaw 2)]

theorem interrupted_of_boundLate : ∃ c',
    (unbound.play boundLate).commit = (.error (.error .columnCopy), c') ∧
      (∃ place, Interrupted (unbound.play boundLate) place c') ∧ Premature boundLate := by
  have fails : (unbound.play boundLate).commit = (.error (.error .columnCopy), _) :=
    Prod.ext (by decide) rfl
  exact ⟨_, fails, (interrupted_of_play fails).2⟩

/-- The first entity is moved by a commit that fails, and again by the next. -/
theorem repeated_of_boundLate :
    (unbound.play boundLate).commit.1 = .error (.error .columnCopy) ∧
      (unbound.play boundLate).current.ids = #[] ∧
      (unbound.play boundLate).commit.2.current.ids = #[.ofRaw 1] ∧
      (unbound.play boundLate).commit.2.commit.2.current.ids = #[.ofRaw 1, .ofRaw 1] ∧
      (unbound.play boundLate).commit.2.commit.2.pending.ids = #[.ofRaw 1, .ofRaw 2] := by
  decide

end Collection

end EntityWorld
