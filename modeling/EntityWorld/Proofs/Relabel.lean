import EntityWorld.Proofs.Shared

/-!
# Changing ids where they stand

Life states and priorities are part of ids, so a change of either is a function applied to ids where they
stand: no row moves and no entity waits elsewhere. Overwriting one entity is such a change too, since
nobody else has its raw id. Main statements: `Store.update_eq_relabel` and
`Shared.modifyDeferred_eq_relabel`.
-/
namespace EntityWorld

variable {f g h : EntityId → EntityId} {id x : EntityId} {raw : Nat}

/-- Changes the ids with one raw id. -/
def EntityId.changeAt (raw : Nat) (change : EntityId → EntityId) (x : EntityId) : EntityId :=
  if x.raw = raw then change x else x

theorem EntityId.changeAt_of_eq (same : x.raw = raw) : changeAt raw f x = f x := if_pos same

theorem EntityId.changeAt_of_ne (other : x.raw ≠ raw) : changeAt raw f x = x := if_neg other

open EntityId (changeAt changeAt_of_eq changeAt_of_ne)

namespace Generation

variable {s : Generation} {row : Nat}

def relabel (f : EntityId → EntityId) (s : Generation) : Generation := { s with ids := s.ids.map f }

theorem relabel_congr (same : ∀ x ∈ s.ids, f x = g x) : s.relabel f = s.relabel g := by
  have ids : s.ids.map f = s.ids.map g := Array.map_inj_left.mpr same
  rw [relabel, relabel, ids]

theorem relabel_of_fixed (fixed : ∀ x ∈ s.ids, f x = x) : s.relabel f = s := by
  have ids : s.ids.map f = s.ids := by
    rw [Array.map_inj_left.mpr fixed, Array.map_id']
  rw [relabel, ids]

theorem relabel_relabel (s : Generation) : (s.relabel g).relabel f = s.relabel (f ∘ g) := by
  simp only [relabel, Array.map_map]

theorem entity?_relabel (f : EntityId → EntityId) (s : Generation) (raw : Nat) :
    (s.relabel f).entity? raw = (s.entity? raw).map f := by
  unfold entity? relabel
  cases s.rows[raw]? with
  | none => rfl
  | some row => simp only [Option.bind_some, Array.getElem?_map]

/-- Overwriting a row. -/
theorem overwrite_eq_relabel (wf : s.WellFormed) (here : s.ids[row]? = some id) :
    { s with ids := s.ids.setIfInBounds row (f id) } = s.relabel (changeAt id.raw f) := by
  have ids : s.ids.setIfInBounds row (f id) = s.ids.map (changeAt id.raw f) := by
    obtain ⟨inside, -⟩ := Array.getElem?_eq_some_iff.mp here
    refine Array.ext_getElem? fun place => ?_
    rw [Array.getElem?_setIfInBounds, Array.getElem?_map]
    by_cases same : row = place
    · subst same
      rw [if_pos rfl, if_pos inside, here, Option.map_some, changeAt_of_eq rfl]
    · rw [if_neg same]
      cases there : s.ids[place]? with
      | none => rfl
      | some y =>
        have other : y.raw ≠ id.raw := fun equal =>
          same (wf.row_unique here there equal.symm)
        rw [Option.map_some, changeAt_of_ne other]
  rw [relabel, ids]

theorem relabel_of_absent (absent : ¬ s.HasRaw raw) : s.relabel (changeAt raw f) = s :=
  relabel_of_fixed fun x member => changeAt_of_ne fun same => absent ⟨x, member, same⟩

end Generation

namespace Collection

variable {c : Collection}

def relabel (f : EntityId → EntityId) (c : Collection) : Collection :=
  { c with current := c.current.relabel f, pending := c.pending.relabel f }

theorem relabel_congr (same : ∀ x ∈ c.ids, f x = g x) : c.relabel f = c.relabel g := by
  rw [relabel, relabel, Generation.relabel_congr fun x member => same x (mem_ids.mpr (.inl member)),
    Generation.relabel_congr fun x member => same x (mem_ids.mpr (.inr member))]

theorem relabel_of_fixed (fixed : ∀ x ∈ c.ids, f x = x) : c.relabel f = c := by
  rw [relabel, Generation.relabel_of_fixed fun x member => fixed x (mem_ids.mpr (.inl member)),
    Generation.relabel_of_fixed fun x member => fixed x (mem_ids.mpr (.inr member))]

theorem relabel_relabel (c : Collection) : (c.relabel g).relabel f = c.relabel (f ∘ g) := by
  simp only [relabel, Generation.relabel_relabel]

theorem entity?_relabel (f : EntityId → EntityId) (c : Collection) (raw : Nat) :
    (c.relabel f).entity? raw = (c.entity? raw).map f := by
  have rows : (c.relabel f).current.rows = c.current.rows := rfl
  unfold entity?
  rw [rows]
  split
  · exact Generation.entity?_relabel f c.current raw
  · exact Generation.entity?_relabel f c.pending raw

/-- Overwriting an entity. -/
theorem update_eq_relabel (wf : c.WellFormed) (held : id ∈ c.ids) (same : (f id).raw = id.raw)
    (allowed : id.life.Reaches (f id).life) :
    c.update id (f id) = (.ok (), c.relabel (changeAt id.raw f)) := by
  obtain ⟨checked, accepted⟩ := EntityId.check_of_reaches allowed
  simp only [update, if_neg (not_not.mpr same.symm), accepted]
  by_cases member : id ∈ c.current.ids
  · obtain ⟨row, here, replaced⟩ := Generation.replace?_of_mem wf.current (f id) member
    simp only [replaced, Generation.overwrite_eq_relabel wf.current here, relabel,
      Generation.relabel_of_absent (wf.apart id.raw ⟨id, member, rfl⟩)]
  · have pending : id ∈ c.pending.ids := (mem_ids.mp held).resolve_left member
    obtain ⟨row, here, replaced⟩ := Generation.replace?_of_mem wf.pending (f id) pending
    have absent : ¬ c.current.HasRaw id.raw := fun current => wf.apart id.raw current ⟨id, pending, rfl⟩
    simp only [Generation.replace?_of_not_mem wf.current member, replaced,
      Generation.overwrite_eq_relabel wf.pending here, relabel, Generation.relabel_of_absent absent]

end Collection

namespace Store

variable {s : Store} {a : ArchetypeId}

def relabel (f : EntityId → EntityId) (s : Store) : Store :=
  { s with collections := s.collections.map (Collection.relabel f) }

theorem relabel_congr (same : ∀ x ∈ s.ids, f x = g x) : s.relabel f = s.relabel g := by
  have collections : s.collections.map (Collection.relabel f) =
      s.collections.map (Collection.relabel g) :=
    Array.map_inj_left.mpr fun c member => Collection.relabel_congr fun x inside =>
      same x (List.mem_flatMap.mpr ⟨c, Array.mem_toList_iff.mpr member, inside⟩)
  rw [relabel, relabel, collections]

theorem relabel_of_fixed (fixed : ∀ x ∈ s.ids, f x = x) : s.relabel f = s := by
  have collections : s.collections.map (Collection.relabel f) = s.collections := by
    rw [Array.map_inj_left.mpr fun c member => Collection.relabel_of_fixed fun x inside =>
      fixed x (List.mem_flatMap.mpr ⟨c, Array.mem_toList_iff.mpr member, inside⟩), Array.map_id']
  rw [relabel, collections]

theorem relabel_relabel (s : Store) : (s.relabel g).relabel f = s.relabel (f ∘ g) := by
  simp only [relabel, Array.map_map]
  congr 2
  exact funext Collection.relabel_relabel

theorem collection?_relabel (f : EntityId → EntityId) (s : Store) (a : ArchetypeId) :
    (s.relabel f).collection? a = (s.collection? a).map (Collection.relabel f) := by
  simp only [collection?, relabel, Array.getElem?_map]

theorem entity?_relabel (f : EntityId → EntityId) (s : Store) (raw : Nat) :
    (s.relabel f).entity? raw = (s.entity? raw).map f := by
  have located : (s.relabel f).locate? raw = s.locate? raw := rfl
  unfold entity?
  rw [located]
  cases s.locate? raw with
  | none => rfl
  | some a =>
    simp only [Option.bind_some, collection?_relabel]
    cases s.collection? a with
    | none => rfl
    | some c => exact c.entity?_relabel f raw

/-- Overwriting a stored entity. -/
theorem update_eq_relabel (wf : s.WellFormed) (held : id ∈ s.ids) (same : (f id).raw = id.raw)
    (allowed : id.life.Reaches (f id).life) :
    s.update id (f id) = (.ok (), s.relabel (changeAt id.raw f)) := by
  obtain ⟨a, c, here, inside⟩ := mem_ids_iff.mp held
  have updated := Collection.update_eq_relabel (wf.collections a c here) inside same allowed
  simp only [update, wf.locate?_of_mem here inside, here, updated]
  have collections : s.collections.modify a.index (fun _ => c.relabel (changeAt id.raw f)) =
      s.collections.map (Collection.relabel (changeAt id.raw f)) := by
    refine Array.ext_getElem? fun place => ?_
    rw [Array.getElem?_modify, Array.getElem?_map]
    by_cases equal : a.index = place
    · subst equal
      have there : s.collections[a.index]? = some c := here
      rw [if_pos rfl, there]
      rfl
    · rw [if_neg equal]
      cases there : s.collections[place]? with
      | none => rfl
      | some d =>
        have found : s.collection? ⟨place⟩ = some d := there
        -- Nobody in another collection has the raw id.
        rw [Option.map_some, Collection.relabel_of_fixed fun x member => changeAt_of_ne fun shared => ?_]
        exact equal (congrArg ArchetypeId.index (wf.place_unique here inside found member shared.symm))
  rw [modifyCollection, relabel, collections]

end Store

namespace Shared

variable {σ : Type} {s : Shared σ}

def relabel (f : EntityId → EntityId) (s : Shared σ) : Shared σ :=
  { s with
    store := s.store.relabel f
    deferred := s.deferred.map fun d => { d with id := f d.id } }

theorem relabel_congr (same : ∀ x ∈ s.ids, f x = g x) : s.relabel f = s.relabel g := by
  have deferred : (s.deferred.map fun d => { d with id := f d.id }) =
      s.deferred.map fun d => { d with id := g d.id } :=
    List.map_congr_left fun d member => by rw [same d.id (mem_ids.mpr (.inr ⟨d, member, rfl⟩))]
  rw [relabel, relabel, deferred, Store.relabel_congr fun x member => same x (mem_ids.mpr (.inl member))]

theorem relabel_of_fixed (fixed : ∀ x ∈ s.ids, f x = x) : s.relabel f = s := by
  have deferred : (s.deferred.map fun d => { d with id := f d.id }) = s.deferred := by
    rw [List.map_congr_left fun d member => by rw [fixed d.id (mem_ids.mpr (.inr ⟨d, member, rfl⟩))],
      List.map_id'']
    exact fun d => rfl
  rw [relabel, deferred, Store.relabel_of_fixed fun x member => fixed x (mem_ids.mpr (.inl member))]

theorem relabel_relabel (s : Shared σ) : (s.relabel g).relabel f = s.relabel (f ∘ g) := by
  simp only [relabel, Store.relabel_relabel, List.map_map]
  rfl

theorem entity?_relabel (kept : ∀ x, (f x).raw = x.raw) (s : Shared σ) (raw : Nat) :
    (s.relabel f).entity? raw = (s.entity? raw).map f := by
  have waiting : ((s.relabel f).deferred? raw).map Deferred.id =
      ((s.deferred? raw).map Deferred.id).map f := by
    simp only [deferred?, relabel, List.find?_map, Option.map_map, Function.comp_def, kept]
  have stored : (s.relabel f).store.entity? raw = (s.store.entity? raw).map f :=
    Store.entity?_relabel f s.store raw
  rw [entity?, stored, waiting, entity?]
  cases s.store.entity? raw <;> rfl

/-- Overwriting a stored entity. -/
theorem update_eq_relabel (sound : s.Sound) (held : id ∈ s.store.ids) (same : (f id).raw = id.raw)
    (allowed : id.life.Reaches (f id).life) :
    ∃ store, s.store.update id (f id) = (.ok (), store) ∧
      { s with store } = s.relabel (changeAt id.raw f) := by
  refine ⟨_, Store.update_eq_relabel sound.store held same allowed, ?_⟩
  -- Nobody who waits has the raw id.
  have deferred : (s.deferred.map fun d => { d with id := changeAt id.raw f d.id }) = s.deferred := by
    rw [List.map_congr_left fun d member => by
      rw [changeAt_of_ne fun equal => sound.not_stored member id held equal.symm], List.map_id'']
    exact fun d => rfl
  rw [relabel, deferred]

/-- Overwriting one that waits. -/
theorem modifyDeferred_eq_relabel {d : Deferred} (sound : s.Sound) (found : s.deferred? raw = some d) :
    s.modifyDeferred raw f = s.relabel (changeAt raw f) := by
  obtain ⟨place, here, changed⟩ := modifyDeferred_eq f sound found
  obtain ⟨member, same⟩ := sound.deferred?_eq_some_iff.mp found
  have deferred : s.deferred.set place { d with id := f d.id } =
      s.deferred.map fun d => { d with id := changeAt raw f d.id } := by
    refine List.ext_getElem? fun i => ?_
    rw [List.getElem?_set, List.getElem?_map]
    obtain ⟨inside, -⟩ := List.getElem?_eq_some_iff.mp here
    by_cases equal : place = i
    · subst equal
      rw [if_pos rfl, if_pos inside, here, Option.map_some, changeAt_of_eq same]
    · rw [if_neg equal]
      cases there : s.deferred[i]? with
      | none => rfl
      | some e =>
        have other : e.id.raw ≠ raw := by
          intro shared
          have waits := sound.waiting_nodup
          have first : (s.deferred.map fun d => d.id.raw)[place]? = some raw := by
            rw [List.getElem?_map, here, Option.map_some, same]
          have second : (s.deferred.map fun d => d.id.raw)[i]? = some raw := by
            rw [List.getElem?_map, there, Option.map_some, shared]
          exact equal ((List.getElem?_inj (by simpa using inside) waits).mp (first.trans second.symm))
        rw [Option.map_some, changeAt_of_ne other]
  rw [changed, deferred, relabel, Store.relabel_of_fixed fun x stored => changeAt_of_ne fun equal =>
    sound.not_stored member x stored (equal.trans same.symm)]

end Shared

end EntityWorld
