import EntityWorld.Proofs.Archetype.Rows
import EntityWorld.Proofs.Entity.Transition

/-!
# Collections

The two generations of a collection share their columns and no raw id. Creating, overwriting, editing
and binding keep this, and beside each stands what it does to the entities.
-/
namespace EntityWorld

namespace Collection

variable {c : Collection} {g : Generation} {id next x : EntityId} {raw : Nat}

/-- Has not been destroyed. -/
def survives (id : EntityId) : Bool := decide (id.life ≠ .destroyed)

structure WellFormed (c : Collection) : Prop where
  current : c.current.WellFormed
  pending : c.pending.WellFormed
  types : c.current.types = c.pending.types
  apart : ∀ raw, c.current.HasRaw raw → ¬ c.pending.HasRaw raw

/-- Some entity of either generation has this raw id. -/
def HasRaw (c : Collection) (raw : Nat) : Prop := c.current.HasRaw raw ∨ c.pending.HasRaw raw

/-- The entities of both generations. -/
def ids (c : Collection) : List EntityId := c.current.ids.toList ++ c.pending.ids.toList

theorem mem_ids : x ∈ c.ids ↔ x ∈ c.current.ids ∨ x ∈ c.pending.ids := by
  simp [ids]

theorem hasRaw_iff : c.HasRaw raw ↔ ∃ x ∈ c.ids, x.raw = raw := by
  simp only [HasRaw, Generation.HasRaw, mem_ids]
  constructor
  · rintro (⟨x, member, same⟩ | ⟨x, member, same⟩)
    · exact ⟨x, .inl member, same⟩
    · exact ⟨x, .inr member, same⟩
  · rintro ⟨x, current | pending, same⟩
    · exact .inl ⟨x, current, same⟩
    · exact .inr ⟨x, pending, same⟩

theorem WellFormed.nodup (wf : c.WellFormed) : (c.ids.map EntityId.raw).Nodup := by
  rw [ids, List.map_append, List.nodup_append]
  refine ⟨wf.current.nodup, wf.pending.nodup, fun a current b pending => ?_⟩
  obtain ⟨x, hx, rfl⟩ := List.mem_map.mp current
  obtain ⟨y, hy, rfl⟩ := List.mem_map.mp pending
  intro same
  exact wf.apart x.raw ⟨x, Array.mem_toList_iff.mp hx, rfl⟩ ⟨y, Array.mem_toList_iff.mp hy, same.symm⟩

theorem WellFormed.entity?_eq_some_iff (wf : c.WellFormed) :
    c.entity? raw = some id ↔ id ∈ c.ids ∧ id.raw = raw := by
  rw [entity?, mem_ids]
  split
  next has =>
    rw [wf.current.entity?_eq_some_iff]
    constructor
    · rintro ⟨member, same⟩
      exact ⟨.inl member, same⟩
    · rintro ⟨current | pending, same⟩
      · exact ⟨current, same⟩
      · exact absurd ⟨id, pending, same⟩ (wf.apart raw (wf.current.contains_iff.mp has))
  next lacks =>
    rw [wf.pending.entity?_eq_some_iff]
    constructor
    · rintro ⟨member, same⟩
      exact ⟨.inr member, same⟩
    · rintro ⟨current | pending, same⟩
      · exact absurd (wf.current.contains_iff.mpr ⟨id, current, same⟩) lacks
      · exact ⟨pending, same⟩

/-! ### Creating and overwriting -/

theorem wellFormed_create (wf : c.WellFormed) (fresh : ¬ c.HasRaw id.raw) :
    (c.create id).WellFormed where
  current := wf.current
  pending := Generation.wellFormed_append wf.pending fun has => fresh (.inr has)
  types := wf.types.trans Generation.types_append.symm
  apart := by
    rintro raw current ⟨x, member, same⟩
    rcases Array.mem_push.mp member with old | rfl
    · exact wf.apart raw current ⟨x, old, same⟩
    · exact fresh (.inl (same ▸ current))

/-- Overwriting an entity under its raw id leaves the raw ids as they are. -/
theorem raws_of_replaced {before after : EntityId → Prop} (same : next.raw = id.raw)
    (replaced : ∀ x, after x ↔ (before x ∧ x ≠ id) ∨ (x = next ∧ before id)) :
    (∃ x, after x ∧ x.raw = raw) ↔ ∃ x, before x ∧ x.raw = raw := by
  constructor
  · rintro ⟨x, inside, equal⟩
    rcases (replaced x).mp inside with ⟨old, -⟩ | ⟨rfl, old⟩
    · exact ⟨x, old, equal⟩
    · exact ⟨id, old, same.symm.trans equal⟩
  · rintro ⟨x, old, equal⟩
    by_cases at_ : x = id
    · exact ⟨next, (replaced next).mpr (.inr ⟨rfl, at_ ▸ old⟩), same.trans (at_ ▸ equal)⟩
    · exact ⟨x, (replaced x).mpr (.inl ⟨old, at_⟩), equal⟩

/-- What overwriting `id` by `next` makes of the entities of one generation. -/
def Overwritten (before after : Array EntityId) (id next : EntityId) : Prop :=
  ∀ x, x ∈ after ↔ (x ∈ before ∧ x ≠ id) ∨ (x = next ∧ id ∈ before)

theorem overwritten_of_mem {row : Nat} (wf : g.WellFormed) (here : g.ids[row]? = some id) :
    Overwritten g.ids (g.ids.setIfInBounds row next) id next := by
  intro x
  rw [Generation.mem_overwrite wf here]
  have member : id ∈ g.ids := Array.mem_of_getElem? here
  constructor
  · rintro (same | old)
    · exact .inr ⟨same, member⟩
    · exact .inl old
  · rintro (old | ⟨same, -⟩)
    · exact .inr old
    · exact .inl same

theorem overwritten_of_not_mem {ids : Array EntityId} (absent : id ∉ ids) :
    Overwritten ids ids id next := by
  intro x
  constructor
  · intro member
    refine .inl ⟨member, ?_⟩
    rintro rfl
    exact absent member
  · rintro (⟨member, -⟩ | ⟨-, member⟩)
    · exact member
    · exact absurd member absent

theorem Overwritten.hasRaw_iff {before after : Array EntityId}
    (replaced : Overwritten before after id next)
    (same : next.raw = id.raw) : (∃ x ∈ after, x.raw = raw) ↔ ∃ x ∈ before, x.raw = raw :=
  raws_of_replaced same replaced

/-- An entity that is there can be overwritten, as long as its life state goes on. -/
theorem update_spec (wf : c.WellFormed) (held : id ∈ c.ids) (same : next.raw = id.raw)
    (allowed : id.life.Reaches next.life) :
    ∃ c', c.update id next = (.ok (), c') ∧ c'.WellFormed ∧ c'.sequence = c.sequence ∧
      Overwritten c.current.ids c'.current.ids id next ∧
      Overwritten c.pending.ids c'.pending.ids id next := by
  obtain ⟨checked, accepted⟩ := EntityId.check_of_reaches allowed
  simp only [update, if_neg (not_not.mpr same.symm), accepted]
  -- The current generation is tried first, and the pending one only if the id is not there.
  by_cases member : id ∈ c.current.ids
  · obtain ⟨row, here, replaced⟩ := Generation.replace?_of_mem wf.current next member
    have absent : id ∉ c.pending.ids := fun pending =>
      wf.apart id.raw ⟨id, member, rfl⟩ ⟨id, pending, rfl⟩
    have written : Overwritten _ _ id next := overwritten_of_mem wf.current here
    simp only [replaced]
    refine ⟨_, rfl, ⟨Generation.wellFormed_overwrite wf.current here same, wf.pending, wf.types, ?_⟩,
      rfl, written, overwritten_of_not_mem absent⟩
    exact fun raw current => wf.apart raw ((written.hasRaw_iff same).mp current)
  · have pending : id ∈ c.pending.ids := (mem_ids.mp held).resolve_left member
    obtain ⟨row, here, replaced⟩ := Generation.replace?_of_mem wf.pending next pending
    have written : Overwritten _ _ id next := overwritten_of_mem wf.pending here
    simp only [Generation.replace?_of_not_mem wf.current member, replaced]
    refine ⟨_, rfl, ⟨wf.current, Generation.wellFormed_overwrite wf.pending here same, wf.types, ?_⟩,
      rfl, overwritten_of_not_mem member, written⟩
    exact fun raw current pending => wf.apart raw current ((written.hasRaw_iff same).mp pending)

/-! ### Other operations -/

/-- Columns are made for all kinds or for none, and each is an empty one of the type of its kind. -/
theorem exists_types_of_buildColumns {registry : Registry} {kinds : List Kind} {columns : List Column}
    (built : buildColumns registry kinds = .ok columns) : ∃ types : List StoredType,
      kinds.map registry.type? = types.map some ∧ columns = types.map Column.ofType := by
  induction kinds generalizing columns with
  | nil =>
    cases built
    exact ⟨[], rfl, rfl⟩
  | cons kind rest ih =>
    simp only [buildColumns, Registry.createColumn] at built
    cases found : registry.type? kind with
    | none => simp [found] at built
    | some type =>
      cases tail : buildColumns registry rest with
      | error cause => simp [found, tail, Except.map] at built
      | ok others =>
        simp only [found, tail, Except.map, Except.ok.injEq] at built
        obtain ⟨types, known, rfl⟩ := ih tail
        refine ⟨type :: types, ?_, built.symm⟩
        rw [List.map_cons, List.map_cons, found, known]

theorem size_of_buildColumns {registry : Registry} {kinds : List Kind} {columns : List Column}
    (built : buildColumns registry kinds = .ok columns) : ∀ column ∈ columns, column.size = 0 := by
  obtain ⟨types, -, rfl⟩ := exists_types_of_buildColumns built
  intro column member
  obtain ⟨type, -, rfl⟩ := List.mem_map.mp member
  rfl

theorem buildColumns_of_known {registry : Registry} {kinds : List Kind}
    (known : ∀ k ∈ kinds, (registry.type? k).isSome) :
    ∃ columns, buildColumns registry kinds = .ok columns := by
  induction kinds with
  | nil => exact ⟨[], rfl⟩
  | cons kind rest ih =>
    obtain ⟨type, found⟩ := Option.isSome_iff_exists.mp (known kind List.mem_cons_self)
    obtain ⟨columns, built⟩ := ih fun k member => known k (List.mem_cons_of_mem kind member)
    exact ⟨.ofType type :: columns, by
      simp only [buildColumns, Registry.createColumn, found, built, Except.map]⟩

theorem bind_ok {registry : Registry} {sequence : Sequence}
    (bound : unbound.bind registry sequence = .ok c) :
    sequence.isEmpty = false ∧ ∃ columns, buildColumns registry sequence.kinds = .ok columns ∧
      c = ⟨sequence, [], ⟨#[], columns, ∅⟩, ⟨#[], columns, ∅⟩⟩ := by
  simp only [bind] at bound
  split at bound
  · cases bound
  next nonempty =>
    have fresh : unbound.sequence.isEmpty = true := rfl
    rw [if_pos fresh] at bound
    cases built : buildColumns registry sequence.kinds with
    | error cause => simp [built, Except.map] at bound
    | ok columns =>
      simp only [built, Except.map, Except.ok.injEq] at bound
      exact ⟨by simpa using nonempty, columns, rfl, bound.symm⟩

/-- A collection that has just been bound has no entities. -/
theorem bind_unbound {registry : Registry} {sequence : Sequence}
    (bound : unbound.bind registry sequence = .ok c) :
    c.WellFormed ∧ c.ids = [] ∧ c.sequence = sequence := by
  obtain ⟨-, columns, built, rfl⟩ := bind_ok bound
  have empty := Generation.wellFormed_of_columns (size_of_buildColumns built)
  refine ⟨⟨empty, empty, rfl, ?_⟩, rfl, rfl⟩
  rintro raw ⟨x, member, -⟩
  exact absurd member (Array.not_mem_empty x)

/-- A collection can be bound to any sequence of registered kinds but the empty one. -/
theorem bind_of_known {registry : Registry} {sequence : Sequence}
    (nonempty : sequence.isEmpty = false) (known : ∀ k ∈ sequence.kinds, (registry.type? k).isSome) :
    ∃ c, unbound.bind registry sequence = .ok c := by
  obtain ⟨columns, built⟩ := buildColumns_of_known known
  refine ⟨{ unbound with
    sequence
    current := { unbound.current with columns }
    pending := { unbound.pending with columns } }, ?_⟩
  simp only [bind, nonempty, Bool.false_eq_true, if_false, built, Except.map]
  rfl

/-- The definitions of the collection when this one is attached as well. -/
def definitionsWith (c : Collection) (definition : DefinitionId) : List DefinitionId :=
  if definition ∈ c.definitions then c.definitions else c.definitions ++ [definition]

theorem value_attach (c : Collection) (definition : DefinitionId) :
    (c.attach definition).value = { c with definitions := c.definitionsWith definition } := by
  unfold attach definitionsWith
  split <;> rfl

/-- A bound collection lets a definition be attached to its own sequence. -/
theorem setUp_self (bound : c.sequence.isEmpty = false) (registry : Registry) (d : DefinitionId) :
    (c.setUp registry (some d) c.sequence).value =
      (.ok (), { c with definitions := c.definitionsWith d }) := by
  have again : c.bind registry c.sequence = .ok c := by simp [bind, bound]
  simp only [setUp, again, Logged.value_bind, Logged.value_pure, value_attach]

theorem attach_value (definition : DefinitionId) :
    ∃ definitions, (c.attach definition).value = { c with definitions } :=
  ⟨_, c.value_attach definition⟩

theorem edit_ok {kind : Kind} {type : StoredType} {change : Nat → Row → Row} {c' : Collection}
    (edited : c.edit kind type change = .ok c') :
    ∃ position, c' = { c with current.columns := c.current.columns.modify position fun column =>
      { column with rows := column.rows.mapIdx change } } := by
  unfold edit at edited
  split at edited
  · cases edited
  · split at edited
    · cases edited
    next position found =>
      cases edited
      exact ⟨position, rfl⟩

/-- An edit changes values only. -/
theorem edit_spec {kind : Kind} {type : StoredType} {change : Nat → Row → Row} {c' : Collection}
    (wf : c.WellFormed) (edited : c.edit kind type change = .ok c') :
    c'.WellFormed ∧ c'.sequence = c.sequence ∧ c'.current.ids = c.current.ids ∧
      c'.pending = c.pending := by
  obtain ⟨position, rfl⟩ := edit_ok edited
  refine ⟨⟨⟨wf.current.rows, ?_⟩, wf.pending, ?_, wf.apart⟩, rfl, rfl, rfl⟩
  · intro column member
    rcases mem_modify member with old | ⟨old, inside, rfl⟩
    · exact wf.current.columns column old
    · simpa [Column.size] using wf.current.columns old inside
  · rw [← wf.types]
    refine map_modify_of_eq (g := fun column => column.type.id) (fun column => ?_) c.current.columns
      position
    rfl

/-! ### The sequence stays -/

theorem sequence_commit (c : Collection) : c.commit.2.sequence = c.sequence := by
  unfold commit
  split
  · rfl
  · split <;> rfl

theorem sequence_update (c : Collection) (id next : EntityId) :
    (c.update id next).2.sequence = c.sequence := by
  unfold update
  split
  · rfl
  · split
    · rfl
    · split
      · rfl
      · split <;> rfl

/-- An entity without a current row is overwritten in its pending one. -/
theorem update_of_pending {next : EntityId} (wf : c.WellFormed) (held : id ∈ c.pending.ids)
    (waits : id ∉ c.current.ids) (same : next.raw = id.raw) (allowed : id.life.Reaches next.life) :
    ∃ row : Nat, c.pending.ids[row]? = some id ∧
      (c.update id next).2 = { c with pending.ids := c.pending.ids.setIfInBounds row next } := by
  obtain ⟨row, here, replaced⟩ := Generation.replace?_of_mem wf.pending next held
  refine ⟨row, here, ?_⟩
  obtain ⟨checked, accepted⟩ := EntityId.check_of_reaches allowed
  simp only [update, if_neg (not_not.mpr same.symm), accepted,
    Generation.replace?_of_not_mem wf.current waits, replaced]

theorem sequence_edit {kind : Kind} {type : StoredType} {change : Nat → Row → Row} {c' : Collection}
    (edited : c.edit kind type change = .ok c') : c'.sequence = c.sequence := by
  obtain ⟨position, rfl⟩ := edit_ok edited
  rfl

end Collection

end EntityWorld
