import EntityWorld.Proofs.Fence.Exclusion

/-!
# Column accesses

What an update does within its declared access is to read columns, to change rows of columns, and to
ask for what no access changes. Two updates that do not conflict never disturb each other: their
accesses can be swapped without either being answered differently.

Main statements: `Access.answer_of_not_conflicts`, `Access.state_of_not_conflicts`.
-/
namespace EntityWorld

/-! ### Changing the rows of one kind -/

namespace Collection

variable (c : Collection) {kind other : Kind}

/-- Changes the current rows of one kind, if the collection has it. -/
def recolour (c : Collection) (kind : Kind) (change : Nat → Row → Row) : Collection :=
  { c with
    current.columns :=
      (c.sequence.position? kind).elim c.current.columns fun position =>
        c.current.columns.modify position fun column =>
          { column with rows := column.rows.mapIdx change } }

theorem edit_eq (type : StoredType) (change : Nat → Row → Row) :
    c.edit kind type change = (c.read kind type).map fun _ => c.recolour kind change := by
  unfold edit recolour
  cases result : c.read kind type with
  | error cause => rfl
  | ok rows =>
    -- What can be read has a place.
    cases position : c.sequence.position? kind with
    | none => simp [read, column?, position] at result
    | some place => rfl

/-- Two kinds of a sequence have two places. -/
theorem position_ne {sequence : Sequence} {i j : Nat} (apart : kind ≠ other)
    (first : sequence.position? kind = some i) (second : sequence.position? other = some j) :
    i ≠ j := by
  rintro rfl
  obtain ⟨_, here, -⟩ := List.findIdx?_eq_some_iff_getElem.mp first
  obtain ⟨_, there, -⟩ := List.findIdx?_eq_some_iff_getElem.mp second
  rw [decide_eq_true_eq] at here there
  exact apart (here.symm.trans there)

theorem read_recolour (apart : kind ≠ other) (type : StoredType) (change : Nat → Row → Row) :
    (c.recolour kind change).read other type = c.read other type := by
  have column : (c.recolour kind change).column? other = c.column? other := by
    unfold column? recolour
    cases second : c.sequence.position? other with
    | none => rfl
    | some j =>
      cases first : c.sequence.position? kind with
      | none => rfl
      | some i => simp [position_ne apart first second]
  simp only [read, column]

theorem recolour_comm (apart : kind ≠ other) (first second : Nat → Row → Row) :
    (c.recolour kind first).recolour other second =
      (c.recolour other second).recolour kind first := by
  unfold recolour
  cases here : c.sequence.position? kind with
  | none => rfl
  | some i =>
    cases there : c.sequence.position? other with
    | none => rfl
    | some j =>
      have different : i ≠ j := position_ne apart here there
      simp only [Option.elim_some, List.modify_modify_ne _ _ _ different]

end Collection

namespace Shared

variable {σ : Type} (s : Shared σ) {kind other : Kind}

/-- What reading a column answers. -/
def rowsOf (s : Shared σ) (a : ArchetypeId) (kind : Kind) (type : StoredType) :
    Except CollectionError (Array Row) :=
  match s.store.collection? a with
  | none => .error (.unknownArchetype a)
  | some collection => collection.read kind type

/-- Changes the current rows of one kind of an archetype. -/
def recolour (s : Shared σ) (a : ArchetypeId) (kind : Kind) (change : Nat → Row → Row) : Shared σ :=
  { s with store := s.store.modifyCollection a fun c => c.recolour kind change }

theorem collection?_recolour (a b : ArchetypeId) (change : Nat → Row → Row) :
    (s.recolour a kind change).store.collection? b =
      if a = b then (s.store.collection? b).map fun c => c.recolour kind change
      else s.store.collection? b := by
  simp only [recolour, Store.modifyCollection, Store.collection?, Array.getElem?_modify]
  cases a
  cases b
  simp

theorem edit_eq (a : ArchetypeId) (type : StoredType) (change : Nat → Nat → Row → Row) :
    s.edit a kind type change =
      match s.rowsOf a kind type with
      | .error cause => (.error cause, s)
      | .ok rows => (.ok rows.size, s.recolour a kind (change rows.size)) := by
  unfold edit rowsOf
  cases found : s.store.collection? a with
  | none => rfl
  | some c =>
    cases result : c.read kind type with
    | error cause => simp [result, Bind.bind, Except.bind]
    | ok rows =>
      simp only [result, Collection.edit_eq, Bind.bind, Except.bind, Except.map, pure, Except.pure,
        recolour]
      congr 2
      simp only [Store.modifyCollection]
      congr 1
      apply Array.ext_getElem?
      intro i
      simp only [Array.getElem?_modify]
      split
      next same =>
        subst same
        have here : s.store.collections[a.index]? = some c := found
        simp [here]
      next => rfl

theorem rowsOf_recolour (apart : kind ≠ other) (a b : ArchetypeId) (type : StoredType)
    (change : Nat → Row → Row) :
    (s.recolour a kind change).rowsOf b other type = s.rowsOf b other type := by
  unfold rowsOf
  rw [collection?_recolour]
  by_cases same : a = b
  · rw [if_pos same]
    cases s.store.collection? b with
    | none => rfl
    | some c => exact c.read_recolour apart type change
  · rw [if_neg same]

theorem entity?_recolour (a : ArchetypeId) (change : Nat → Row → Row) (raw : Nat) :
    (s.recolour a kind change).entity? raw = s.entity? raw := by
  have stored : (s.recolour a kind change).store.entity? raw = s.store.entity? raw := by
    simp only [Store.entity?, collection?_recolour]
    refine congrArg ((s.store.locate? raw).bind ·) (funext fun b => ?_)
    split
    next =>
      cases s.store.collection? b with
      | none => rfl
      | some c => rfl
    next => rfl
  simp only [entity?, stored]
  rfl

theorem recolour_comm (apart : kind ≠ other) (a b : ArchetypeId) (first second : Nat → Row → Row) :
    (s.recolour a kind first).recolour b other second =
      (s.recolour b other second).recolour a kind first := by
  simp only [recolour, Store.modifyCollection]
  congr 2
  apply Array.ext_getElem?
  intro i
  simp only [Array.getElem?_modify]
  by_cases here : a.index = i
  · by_cases there : b.index = i
    · simp only [here, there, if_true, Option.map_map]
      congr 1
      exact funext fun c => c.recolour_comm apart first second
    · simp [here, there]
  · simp [here]

/-! ### Other locks -/

theorem place_locks (a : ArchetypeId) (locks : LockTable) :
    ({ s with locks } : Shared σ).place a = ((s.place a).1, { (s.place a).2 with locks }) := by
  unfold place
  dsimp only
  split
  · rfl
  · split <;> rfl

theorem defer_locks (sequence : Sequence) (locks : LockTable) :
    ({ s with locks } : Shared σ).defer sequence =
      ((s.defer sequence).1, { (s.defer sequence).2 with locks }) := by
  unfold defer
  dsimp only
  split <;> rfl

theorem create_locks (d : DefinitionId) (locks : LockTable) :
    ({ s with locks } : Shared σ).create d = ((s.create d).1, { (s.create d).2 with locks }) := by
  unfold create
  dsimp only
  split
  · rfl
  · split
    · exact s.place_locks _ locks
    · rfl

theorem createWith_locks (types : List TypeId) (locks : LockTable) :
    ({ s with locks } : Shared σ).createWith types =
      ((s.createWith types).1, { (s.createWith types).2 with locks }) := by
  unfold createWith
  dsimp only
  split
  · rfl
  · split
    · rfl
    · split
      · exact s.place_locks _ locks
      · exact s.defer_locks _ locks

end Shared

/-! ### Accesses -/

namespace Access

variable {σ : Type} {reads writes : List Kind} {command : Request σ} {s : Shared σ}

/-- A column access within declared access, or a question that no column access bears on. -/
def Within (reads writes : List Kind) : Request σ → Prop
  | .read _ kind _ => kind ∈ reads ∨ kind ∈ writes
  | .edit _ kind _ _ => kind ∈ writes
  | .kindOf _ | .find .. | .findKinds .. | .entities _ | .entity _ | .inspect | .log _ => True
  | .collection _ | .create _ | .createWith _ | .destroy _ | .lock _ | .lockTable | .exchange _ =>
    False

theorem perform_edit (a : ArchetypeId) (kind : Kind) (type : StoredType)
    (change : Nat → Nat → Row → Row) (s : Shared σ) :
    (perform (.edit a kind type change) s).value =
      match s.rowsOf a kind type with
      | .error cause => (.error cause, s)
      | .ok rows => (.ok rows.size, s.recolour a kind (change rows.size)) :=
  s.edit_eq a type change

/-- An access changes nothing, or it changes rows of a kind that may be written. -/
theorem still_or_edit (within : Within reads writes command) :
    (∀ s, (perform command s).value.2 = s) ∨
      ∃ a kind type change, command = .edit a kind type change ∧ kind ∈ writes := by
  cases command with
  | edit a kind type change => exact .inr ⟨a, kind, type, change, rfl, within⟩
  | collection _ | create _ | createWith _ | destroy _ | lock _ | lockTable | exchange _ =>
    exact within.elim
  | _ => exact .inl fun s => rfl

/-- An access is not answered differently where rows of a kind that it may not even read change. -/
theorem answer_recolour (within : Within reads writes command) {kind : Kind}
    (apart : kind ∉ reads ∧ kind ∉ writes) (s : Shared σ) (a : ArchetypeId)
    (change : Nat → Row → Row) :
    (perform command (s.recolour a kind change)).value.1 = (perform command s).value.1 := by
  cases command with
  | read b other type =>
    have different : kind ≠ other := by
      rintro rfl
      exact within.elim apart.1 apart.2
    exact s.rowsOf_recolour different a b type change
  | edit b other type change' =>
    have different : kind ≠ other := by
      rintro rfl
      exact apart.2 within
    simp only [perform_edit, s.rowsOf_recolour different]
    cases s.rowsOf b other type <;> rfl
  | entities b =>
    simp only [perform, Logged.value_pure, Shared.collection?_recolour]
    split
    next => cases s.store.collection? b <;> rfl
    next => rfl
  | entity raw => exact s.entity?_recolour a change raw
  | inspect =>
    have size : (s.recolour a kind change).store.size = s.store.size := Array.size_modify
    simp only [perform, Logged.value_pure, Shared.inspect, size]
    rfl
  | collection _ | create _ | createWith _ | destroy _ | lock _ | lockTable | exchange _ =>
    exact within.elim
  | kindOf _ | find _ _ | findKinds _ _ | log _ => rfl

/-- A command that neither changes the lock table nor looks at it. -/
def Aloof (command : Request σ) : Prop := LeavesLocks command ∧ command ≠ .lockTable

theorem Within.aloof (within : Within reads writes command) : Aloof command := by
  cases command with
  | lock _ | lockTable => exact within.elim
  | _ => exact ⟨nofun, nofun⟩

/-- The locks play no part in such a command. -/
theorem perform_locks (aloof : Aloof command) (s : Shared σ) (locks : LockTable) :
    (perform command { s with locks }).value =
      ((perform command s).value.1, { (perform command s).value.2 with locks }) := by
  cases command with
  | create d => exact s.create_locks d locks
  | createWith types => exact s.createWith_locks types locks
  | edit a kind type change =>
    have same : ({ s with locks } : Shared σ).rowsOf a kind type = s.rowsOf a kind type := rfl
    simp only [perform_edit, same]
    cases s.rowsOf a kind type <;> rfl
  | lock call => exact absurd rfl (aloof.1 call)
  | lockTable => exact absurd rfl aloof.2
  | _ => rfl

/-! ### Swapping accesses -/

variable {u v : Update σ} {second : Request σ}

/-- An access is answered the same before and after one of an update that does not conflict. -/
theorem answer_of_not_conflicts (first : Within u.reads u.writes command)
    (within : Within v.reads v.writes second) (apart : ¬ u.Conflicts v) (s : Shared σ) :
    (perform second (perform command s).value.2).value.1 = (perform second s).value.1 := by
  rcases still_or_edit first with still | ⟨a, kind, type, change, rfl, written⟩
  · rw [still]
  · have foreign : kind ∉ v.reads ∧ kind ∉ v.writes :=
      ⟨fun read => apart (.inl ⟨kind, written, .inl read⟩),
        fun write => apart (.inl ⟨kind, written, .inr write⟩)⟩
    rw [perform_edit]
    cases s.rowsOf a kind type with
    | error cause => rfl
    | ok rows => exact answer_recolour within foreign s a (change rows.size)

/-- The accesses of two updates that do not conflict leave the same behind in either order. -/
theorem state_of_not_conflicts (first : Within u.reads u.writes command)
    (within : Within v.reads v.writes second) (apart : ¬ u.Conflicts v) (s : Shared σ) :
    (perform second (perform command s).value.2).value.2 =
      (perform command (perform second s).value.2).value.2 := by
  rcases still_or_edit first with still | ⟨a, kind, type, change, rfl, written⟩
  · rw [still, still]
  · rcases still_or_edit within with still | ⟨b, other, type', change', rfl, written'⟩
    · rw [still, still]
    · have different : kind ≠ other := by
        rintro rfl
        exact apart (.inl ⟨kind, written, .inr written'⟩)
      -- Neither edit changes whether the other finds its rows, nor how many there are.
      simp only [perform_edit]
      cases here : s.rowsOf a kind type <;> cases there : s.rowsOf b other type' <;>
        simp only [s.rowsOf_recolour different, s.rowsOf_recolour different.symm, here, there]
      exact s.recolour_comm different a b _ _

end Access

end EntityWorld
