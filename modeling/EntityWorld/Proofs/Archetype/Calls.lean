import EntityWorld.Proofs.Archetype.Stock

/-!
# Collection histories

A collection is bound to a sequence before the first entity is created in it, and then anything can be
done to it in any order. Its columns keep the types of the sequence and one row per entity, and its
row maps keep leading to the right raw id, also where callers use a raw id twice. Whether a row map finds
every entity is another matter. Main statement: `represented_of_history`.
-/
namespace EntityWorld

namespace Generation

variable {registry : Registry} {sequence : Sequence} {g g' : Generation} {id next : EntityId}
  {row : Nat} {e : EntityRow}

/-- The columns have the types of the kinds of a sequence, in its order, and a row for each entity;
the row map leads only to rows there are. -/
structure Laid (registry : Registry) (sequence : Sequence) (g : Generation) : Prop where
  even : g.Even
  types : g.storedTypes.map some = sequence.kinds.map registry.type?
  pointed : g.Pointed

/-- No value has been written since the rows were made. -/
def Fresh (g : Generation) : Prop :=
  ∀ column ∈ g.columns, ∀ value ∈ column.rows, value = column.type.defaultRow

/-- The row map is the inverse of the id list, and finding a row by it or by looking at every row is
the same. -/
structure Inverse (g : Generation) : Prop where
  rows : ∀ raw row : Nat, g.rows[raw]? = some row ↔
    ∃ id : EntityId, g.ids[row]? = some id ∧ id.raw = raw
  found : ∀ (id : EntityId) (row : Nat), g.rowOf? id = some row ↔ g.ids[row]? = some id
  scanned : ∀ id ∈ g.ids, g.rowOf? id = g.scanFor? id

theorem rowOf?_eq_scanFor? (wf : g.WellFormed) (member : id ∈ g.ids) :
    g.rowOf? id = g.scanFor? id := by
  obtain ⟨row, here⟩ := Array.mem_iff_getElem?.mp member
  obtain ⟨inside, there⟩ := Array.getElem?_eq_some_iff.mp here
  rw [(rowOf?_eq_some_iff wf).mpr here, scanFor?, eq_comm, Array.findIdx?_eq_some_iff_getElem]
  refine ⟨inside, by simp [there], fun i below => ?_⟩
  have before : g.ids[i]? = some g.ids[i] := Array.getElem?_eq_getElem (by omega)
  simp only [decide_eq_true_eq]
  intro same
  exact Nat.ne_of_lt below (wf.row_unique before here same)

theorem inverse_of_listed (even : g.Even) (pointed : g.Pointed) (listed : g.Listed)
    (distinct : g.Distinct) : g.Inverse := by
  have wf := wellFormed_of_listed even pointed listed distinct
  exact ⟨wf.rows, fun id row => rowOf?_eq_some_iff wf, fun id => rowOf?_eq_scanFor? wf⟩

namespace Laid

theorem built {columns : List Column} (empty : ∀ column ∈ columns, column.size = 0)
    (types : (columns.map Column.type).map some = sequence.kinds.map registry.type?) :
    Laid registry sequence ⟨#[], columns, ∅⟩ where
  even := empty
  types := types
  pointed := by simp [Pointed]

variable (laid : g.Laid registry sequence)
include laid

theorem append : (g.append id).Laid registry sequence := by
  have full : (g.storedTypes.map StoredType.defaultRow).length = g.columns.length := by
    simp [storedTypes]
  rw [append_eq_extend]
  exact ⟨even_extend full laid.even, by rw [storedTypes_extend full, laid.types],
    pointed_extend laid.pointed _⟩

theorem overwrite (here : g.ids[row]? = some id) (same : next.raw = id.raw) :
    Laid registry sequence { g with ids := g.ids.setIfInBounds row next } where
  even column member := by simpa using laid.even column member
  types := laid.types
  pointed := pointed_overwrite here same laid.pointed

theorem revise (position : Nat) (change : Nat → Row → Row) :
    (g.revise position change).Laid registry sequence :=
  ⟨even_revise change position laid.even, by rw [storedTypes_revise, laid.types], laid.pointed⟩

theorem clear : g.clear.Laid registry sequence :=
  ⟨even_clear g, by rw [storedTypes_clear, laid.types], pointed_clear g⟩

theorem grow {rows : List EntityRow} (fits : g.Fits rows) : (g.grow rows).Laid registry sequence := by
  obtain ⟨even, types, -⟩ := grow_spec laid.even fits
  exact ⟨even, by rw [types, laid.types], pointed_grow laid.pointed⟩

theorem swept {out : List EntityRow} (swept : Collection.Swept g out g') :
    g'.Laid registry sequence :=
  ⟨swept.even laid.even, by rw [swept.storedTypes, laid.types], swept.pointed laid.pointed⟩

end Laid

end Generation

namespace Collection

/-! ### Calls -/

/-- What can be done to a collection. -/
inductive Call where
  | setUp (registry : Registry) (definition? : Option DefinitionId) (sequence : Sequence)
  | create (id : EntityId)
  | update (id next : EntityId)
  | edit (kind : Kind) (type : StoredType) (change : Nat → Row → Row)
  | commit

/-- What a call makes of a collection, whether it succeeds or not. -/
def perform (c : Collection) : Call → Collection
  | .setUp registry definition? sequence => (c.setUp registry definition? sequence).value.2
  | .create id => c.create id
  | .update id next => (c.update id next).2
  | .edit kind type change =>
    match c.edit kind type change with
    | .ok edited => edited
    | .error _ => c
  | .commit => c.commit.2

def play (c : Collection) (calls : List Call) : Collection := calls.foldl perform c

/-- The calls on a collection after it was bound, each with the collection it found. Before that no
entity was created. -/
inductive History (registry : Registry) (sequence : Sequence) :
    List (Collection × Call) → Collection → Prop where
  | bind {early : List Call} {definition? : Option DefinitionId} {c : Collection}
      (empty : ∀ id, Call.create id ∉ early)
      (unused : (unbound.play early).sequence.isEmpty = true)
      (bound : ((unbound.play early).setUp registry definition? sequence).value = (.ok (), c)) :
      History registry sequence [] c
  | call {log : List (Collection × Call)} {c : Collection} (before : History registry sequence log c)
      (call : Call) : History registry sequence (log ++ [(c, call)]) (c.perform call)

variable {registry : Registry} {sequence : Sequence} {c c' : Collection}
  {definition? : Option DefinitionId} {log : List (Collection × Call)}

/-- Binding a bound collection changes no more than its definitions. -/
theorem setUp_of_bound (bound : c.sequence.isEmpty = false) (registry : Registry)
    (definition? : Option DefinitionId) (sequence : Sequence) :
    ∃ definitions, (c.setUp registry definition? sequence).value.2 = { c with definitions } := by
  unfold setUp
  split
  · exact ⟨c.definitions, rfl⟩
  next same found =>
    obtain rfl : same = c := by
      simp only [bind, bound] at found
      split at found
      · cases found
      · split at found
        · contradiction
        · split at found
          · cases found
            rfl
          · cases found
    cases definition? with
    | none => exact ⟨same.definitions, rfl⟩
    | some definition =>
      obtain ⟨definitions, value⟩ := same.attach_value definition
      exact ⟨definitions, by simp only [Logged.value_bind, Logged.value_pure, value]⟩

theorem types_of_buildColumns {kinds : List Kind} {columns : List Column}
    (built : buildColumns registry kinds = .ok columns) :
    (columns.map Column.type).map some = kinds.map registry.type? := by
  obtain ⟨types, known, rfl⟩ := exists_types_of_buildColumns built
  have stored : (types.map Column.ofType).map Column.type = types := by
    rw [List.map_map]
    exact List.map_id types
  rw [stored, known]

/-- Binding for the first time makes empty columns of the types of the kinds. -/
theorem columns_of_setUp
    (bound : (unbound.setUp registry definition? sequence).value = (.ok (), c)) :
    ∃ columns : List Column, (∀ column ∈ columns, column.size = 0) ∧
      (columns.map Column.type).map some = sequence.kinds.map registry.type? ∧
      sequence.isEmpty = false ∧ c.sequence = sequence ∧
      c.current = ⟨#[], columns, ∅⟩ ∧ c.pending = ⟨#[], columns, ∅⟩ := by
  unfold setUp at bound
  split at bound
  · cases bound
  next d made =>
    obtain ⟨nonempty, columns, built, rfl⟩ := bind_ok made
    refine ⟨columns, size_of_buildColumns built, types_of_buildColumns built, nonempty, ?_⟩
    cases definition? with
    | none =>
      cases bound
      exact ⟨rfl, rfl, rfl⟩
    | some definition =>
      obtain ⟨definitions, value⟩ :=
        attach_value (c := ⟨sequence, [], ⟨#[], columns, ∅⟩, ⟨#[], columns, ∅⟩⟩) definition
      simp only [Logged.value_bind, Logged.value_pure, value] at bound
      cases bound
      exact ⟨rfl, rfl, rfl⟩

/-- A bound collection keeps its sequence. -/
theorem sequence_perform (bound : c.sequence.isEmpty = false) (call : Call) :
    (c.perform call).sequence = c.sequence := by
  cases call with
  | setUp registry definition? sequence =>
    obtain ⟨definitions, value⟩ := setUp_of_bound bound registry definition? sequence
    simp only [perform, value]
  | create id => rfl
  | update id next => exact c.sequence_update id next
  | edit kind type change =>
    simp only [perform]
    split
    next edited =>
      obtain ⟨position, rfl⟩ := edit_ok edited
      rfl
    next => rfl
  | commit => exact c.sequence_commit

theorem perform_unbound {call : Call} (other : ∀ id, call ≠ .create id) :
    unbound.perform call = unbound ∨ (unbound.perform call).sequence.isEmpty = false := by
  cases call with
  | setUp registry definition? sequence =>
    cases result : (unbound.setUp registry definition? sequence).value with
    | mk outcome c =>
      cases outcome with
      | error cause =>
        refine .inl ?_
        unfold setUp at result
        split at result
        · cases result
          simp only [perform, setUp, *]
          rfl
        · split at result
          · cases result
          · simp only [Logged.value_bind, Logged.value_pure] at result
            cases result
      | ok =>
        obtain ⟨columns, -, -, nonempty, same, -⟩ := columns_of_setUp result
        refine .inr ?_
        simp only [perform, result, same, nonempty]
  | create id => exact absurd rfl (other id)
  | update id next =>
    refine .inl ?_
    simp only [perform, update]
    split
    · rfl
    · split <;> rfl
  | edit kind type change => exact .inl rfl
  | commit => exact .inl rfl

/-- Until it is bound, nothing but creating an entity changes a collection. -/
theorem play_unbound {early : List Call} (empty : ∀ id, Call.create id ∉ early)
    (unused : (unbound.play early).sequence.isEmpty = true) : unbound.play early = unbound := by
  have bound (calls : List Call) (c : Collection) (bound : c.sequence.isEmpty = false) :
      (c.play calls).sequence.isEmpty = false := by
    induction calls generalizing c with
    | nil => exact bound
    | cons call rest ih => exact ih _ (by rw [sequence_perform bound, bound])
  induction early with
  | nil => rfl
  | cons call rest ih =>
    rcases perform_unbound fun id same => empty id (same ▸ List.mem_cons_self) with same | taken
    · have tail : unbound.play (call :: rest) = unbound.play rest := by
        simp only [play, List.foldl_cons, same]
      rw [tail] at unused ⊢
      exact ih (fun id member => empty id (List.mem_cons_of_mem call member)) unused
    · have := bound rest _ taken
      rw [play, List.foldl_cons, ← play, this] at unused
      cases unused

/-! ### What every call keeps -/

structure Kept (registry : Registry) (sequence : Sequence) (c : Collection) : Prop where
  keyed : c.sequence = sequence
  nonempty : sequence.isEmpty = false
  current : c.current.Laid registry sequence
  pending : c.pending.Laid registry sequence
  -- Pending rows are never written, and their raw ids never leave the row map.
  fresh : c.pending.Fresh
  listed : c.pending.Listed

theorem kept_of_setUp
    (bound : (unbound.setUp registry definition? sequence).value = (.ok (), c)) :
    Kept registry sequence c := by
  obtain ⟨columns, empty, types, nonempty, same, current, pending⟩ := columns_of_setUp bound
  have laid := Generation.Laid.built empty types
  refine ⟨same, nonempty, current ▸ laid, pending ▸ laid, ?_, ?_⟩
  · rw [pending]
    intro column member value inside
    have none : column.rows = #[] := Array.eq_empty_of_size_eq_zero (empty column member)
    rw [none] at inside
    exact absurd inside (Array.not_mem_empty value)
  · simp [pending, Generation.Listed]

namespace Kept

variable (kept : Kept registry sequence c)
include kept

theorem bound : c.sequence.isEmpty = false := kept.keyed ▸ kept.nonempty

/-- Both generations store the same types. -/
theorem types : c.current.types = c.pending.types := by
  have same : c.current.storedTypes = c.pending.storedTypes :=
    (List.map_inj_right fun _ _ => Option.some.inj).mp
      (kept.current.types.trans kept.pending.types.symm)
  rw [Generation.types_eq, Generation.types_eq, same]

theorem create (id : EntityId) : Kept registry sequence (c.create id) where
  keyed := kept.keyed
  nonempty := kept.nonempty
  current := kept.current
  pending := kept.pending.append
  fresh := by
    intro column member value inside
    obtain ⟨old, before, rfl⟩ := List.mem_map.mp member
    rcases Array.mem_push.mp inside with earlier | rfl
    · exact kept.fresh old before value earlier
    · rfl
  listed := by
    change (c.pending.append id).Listed
    rw [Generation.append_eq_extend]
    exact Generation.listed_extend kept.listed _

/-- What overwriting an id leaves: one of the generations with another id in one row. -/
theorem update (id next : EntityId) : Kept registry sequence (c.update id next).2 := by
  by_cases same : id.raw = next.raw
  · simp only [Collection.update, if_neg (not_not.mpr same)]
    split
    · exact kept
    · split
      next g replaced =>
        obtain ⟨row, here, rfl⟩ := Generation.overwritten_of_replace? replaced
        exact { kept with current := kept.current.overwrite here same.symm }
      next =>
        split
        next g replaced =>
          obtain ⟨row, here, rfl⟩ := Generation.overwritten_of_replace? replaced
          exact { kept with
            pending := kept.pending.overwrite here same.symm
            listed := Generation.listed_overwrite here same.symm kept.listed }
        next => exact kept
  · simp only [Collection.update, ne_eq, same, not_false_eq_true, if_true]
    exact kept

theorem edit {kind : Kind} {type : StoredType} {change : Nat → Row → Row}
    (edited : c.edit kind type change = .ok c') : Kept registry sequence c' := by
  obtain ⟨position, rfl⟩ := edit_ok edited
  exact { kept with current := kept.current.revise position change }

theorem commit_eq : ∃ out g, Swept c.current out g ∧ c.commit =
    (.ok ⟨(out.map Prod.fst).toArray ++ (c.pending.ids.toList.filter fun x => !survives x).toArray,
      (c.pending.ids.toList.filter survives).toArray⟩,
      { c with current := g.grow (staying c.pending), pending := c.pending.clear }) :=
  Collection.commit_eq kept.current.even kept.pending.even kept.types

theorem commit : Kept registry sequence c.commit.2 := by
  obtain ⟨out, g, swept, value⟩ := kept.commit_eq
  rw [value]
  refine ⟨kept.keyed, kept.nonempty, (kept.current.swept swept).grow (swept.fits kept.types),
    kept.pending.clear, ?_, Generation.listed_clear _⟩
  intro column member value inside
  obtain ⟨old, -, rfl⟩ := List.mem_map.mp member
  exact absurd inside (Array.not_mem_empty value)

theorem perform (call : Call) : Kept registry sequence (c.perform call) := by
  cases call with
  | setUp registry definition? sequence =>
    obtain ⟨definitions, value⟩ := setUp_of_bound kept.bound registry definition? sequence
    simp only [Collection.perform, value]
    exact { kept with }
  | create id => exact kept.create id
  | update id next => exact kept.update id next
  | edit kind type change =>
    simp only [Collection.perform]
    split
    next edited => exact kept.edit edited
    next => exact kept
  | commit => exact kept.commit

end Kept

theorem kept_of_history (history : History registry sequence log c) : Kept registry sequence c := by
  induction history with
  | bind empty unused bound =>
    rw [play_unbound empty unused] at bound
    exact kept_of_setUp bound
  | call _ call ih => exact ih.perform call

/-! ### What the current row map knows -/

/-- Apart from commits, no call takes a raw id out of the current row map. -/
theorem Kept.listed_perform (kept : Kept registry sequence c) (listed : c.current.Listed) {call : Call}
    (separate : call = .commit → Separate c.current) : (c.perform call).current.Listed := by
  cases call with
  | setUp registry definition? sequence =>
    obtain ⟨definitions, value⟩ := setUp_of_bound kept.bound registry definition? sequence
    simpa only [Collection.perform, value] using listed
  | create id => exact listed
  | update id next =>
    by_cases same : id.raw = next.raw
    · simp only [Collection.perform, Collection.update, if_neg (not_not.mpr same)]
      split
      · exact listed
      · split
        next g replaced =>
          obtain ⟨row, here, rfl⟩ := Generation.overwritten_of_replace? replaced
          exact Generation.listed_overwrite here same.symm listed
        next => split <;> exact listed
    · simp only [Collection.perform, Collection.update, ne_eq, same, not_false_eq_true, if_true]
      exact listed
  | edit kind type change =>
    simp only [Collection.perform]
    split
    next edited =>
      obtain ⟨position, rfl⟩ := edit_ok edited
      exact listed
    next => exact listed
  | commit =>
    obtain ⟨out, g, swept, value⟩ := kept.commit_eq
    simp only [Collection.perform, value]
    exact Generation.listed_grow
      (swept.listed (separate rfl) fun x member _ => listed x member)

theorem listed_of_history (history : History registry sequence log c)
    (separate : ∀ before, (before, Call.commit) ∈ log → Separate before.current) :
    c.current.Listed := by
  induction history with
  | bind empty unused bound =>
    rw [play_unbound empty unused] at bound
    obtain ⟨columns, -, -, -, -, current, -⟩ := columns_of_setUp bound
    simp [current, Generation.Listed]
  | @call log c before call ih =>
    have earlier := ih fun d member => separate d (List.mem_append_left _ member)
    refine (kept_of_history before).listed_perform earlier fun same => ?_
    subst same
    exact separate c (by simp)

/-! ### Every history -/

/-- How a collection stores its entities. -/
structure Represented (registry : Registry) (sequence : Sequence) (log : List (Collection × Call))
    (c : Collection) : Prop where
  keyed : c.sequence = sequence
  current : c.current.Laid registry sequence
  pending : c.pending.Laid registry sequence
  pendingInverse : c.pending.Distinct → c.pending.Inverse
  -- A commit that removes an entity takes its raw id out of the row map, whoever else has it.
  currentInverse : (∀ before, (before, Call.commit) ∈ log → Separate before.current) →
    c.current.Distinct → c.current.Inverse

/-- Whatever was done to a collection since it was bound, its columns and row maps fit its ids, and a
row map is the inverse of distinct ids, if no commit tore two entities of one raw id apart. -/
theorem represented_of_history (history : History registry sequence log c) :
    Represented registry sequence log c := by
  have kept := kept_of_history history
  refine ⟨kept.keyed, kept.current, kept.pending, ?_, fun separate => ?_⟩
  · exact Generation.inverse_of_listed kept.pending.even kept.pending.pointed kept.listed
  · exact Generation.inverse_of_listed kept.current.even kept.current.pointed
      (listed_of_history history separate)

/-! ### One raw id for two entities -/

/-- Some calls, each with the collection it found. -/
def journal (c : Collection) : List Call → List (Collection × Call)
  | [] => []
  | call :: rest => (c, call) :: (c.perform call).journal rest

theorem history_play (history : History registry sequence log c) (calls : List Call) :
    History registry sequence (log ++ c.journal calls) (c.play calls) := by
  induction calls generalizing c log with
  | nil => simpa [journal, play] using history
  | cons call rest ih =>
    have later := ih (history.call call)
    rw [List.append_assoc] at later
    exact later

/-- One kind, with four bytes for each entity. -/
def ageRegistry : Registry := ⟨#[⟨⟨1⟩, "Age", [0, 0, 0, 0]⟩], ∅⟩

def ageSequence : Sequence := .ofList [⟨1⟩]

/-- A collection of ages, without entities. -/
def emptyAges : Collection := (unbound.setUp ageRegistry none ageSequence).value.2

theorem history_emptyAges (calls : List Call) :
    History ageRegistry ageSequence (emptyAges.journal calls) (emptyAges.play calls) := by
  have bound : History ageRegistry ageSequence [] emptyAges :=
    @History.bind _ _ [] none _ (fun id member => by cases member) rfl rfl
  exact history_play bound calls

/-- Three entities, of which the first is destroyed. -/
def removeFirst : List Call :=
  [.create (.ofRaw 1), .create (.ofRaw 2), .create (.ofRaw 3), .commit,
    .update (.ofRaw 1) ((EntityId.ofRaw 1).withLife .unregister),
    .update ((EntityId.ofRaw 1).withLife .unregister) ((EntityId.ofRaw 1).withLife .destroyed), .commit]

theorem represented_of_removeFirst :
    Represented ageRegistry ageSequence (emptyAges.journal removeFirst) (emptyAges.play removeFirst) ∧
      (emptyAges.play removeFirst).current.ids = #[.ofRaw 3, .ofRaw 2] ∧
        (emptyAges.play removeFirst).current.Inverse := by
  have represented := represented_of_history (history_emptyAges removeFirst)
  have ids : (emptyAges.play removeFirst).current.ids = #[.ofRaw 3, .ofRaw 2] := by decide
  have distinct : ∀ each ∈ emptyAges.journal removeFirst,
      (each.1.current.ids.toList.map EntityId.raw).Nodup := by decide
  refine ⟨represented, ids, represented.currentInverse (fun before member => ?_) ?_⟩
  · exact separate_of_distinct (distinct _ member)
  · rw [Generation.Distinct, ids]
    decide

/-- Two entities of one raw id, of which the one that the row map knows is destroyed. -/
def reusedRaw : List Call :=
  [.create (.ofRaw 1), .create ((EntityId.ofRaw 1).withLife .unregister), .commit,
    .update ((EntityId.ofRaw 1).withLife .unregister) ((EntityId.ofRaw 1).withLife .destroyed), .commit]

/-- The other one is left, alone with its raw id, and the row map does not know it any more. -/
theorem unmapped_of_reusedRaw : ∃ log c, History ageRegistry ageSequence log c ∧
    c.current.ids = #[.ofRaw 1] ∧ c.current.Distinct ∧
      c.current.scanFor? (.ofRaw 1) = some 0 ∧ c.current.rowOf? (.ofRaw 1) = none ∧
        ¬ c.current.Inverse := by
  have ids : (emptyAges.play reusedRaw).current.ids = #[.ofRaw 1] := by decide
  have unknown : (emptyAges.play reusedRaw).current.rowOf? (.ofRaw 1) = none := by decide
  refine ⟨_, _, history_emptyAges reusedRaw, ids, ?_, ?_, unknown, fun inverse => ?_⟩
  · simp [Generation.Distinct, ids]
  · simp [Generation.scanFor?, ids]
  · have known := (inverse.found (.ofRaw 1) 0).mpr (by rw [ids]; rfl)
    rw [unknown] at known
    cases known

end Collection

end EntityWorld
