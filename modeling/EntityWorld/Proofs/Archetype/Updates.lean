import EntityWorld.Proofs.Archetype.Calls

/-!
# One id for another

An update puts an id in the place of another one of the same raw id. Whatever was done to a collection
before, it changes this one place or nothing, and what is found afterwards differs in these two ids only.
Main statements: `exact_of_history` and, where an id is stored and not found, `lost_of_reusedRaw`.
-/
namespace EntityWorld

namespace Generation

variable {g : Generation} {id next x : EntityId} {row raw : Nat}

theorem rowOf?_eq_some : g.rowOf? id = some row ↔ g.rows[id.raw]? = some row ∧ g.ids[row]? = some id := by
  simp [rowOf?, Option.filter_eq_some_iff]

theorem mem_of_rowOf? (found : g.rowOf? id = some row) : id ∈ g.ids :=
  Array.mem_of_getElem? (rowOf?_eq_some.mp found).2

theorem rowOf?_eq_none (absent : id ∉ g.ids) : g.rowOf? id = none :=
  Option.eq_none_iff_forall_ne_some.mpr fun _ found => absent (mem_of_rowOf? found)

/-- Where the row map knows every raw id, and no other row, it finds what is stored. -/
theorem WellFormed.isSome_rowOf?_iff (wf : g.WellFormed) : (g.rowOf? id).isSome ↔ id ∈ g.ids := by
  rw [Option.isSome_iff_exists, Array.mem_iff_getElem?]
  simp only [rowOf?_eq_some_iff wf]

/-- Looking at every row for a raw id finds the same row as before. -/
theorem scanFor?_overwrite (here : g.ids[row]? = some id) (same : next.raw = id.raw) (x : EntityId) :
    scanFor? { g with ids := g.ids.setIfInBounds row next } x = g.scanFor? x := by
  have raws : (g.ids.setIfInBounds row next).map EntityId.raw = g.ids.map EntityId.raw := by
    refine Array.toList_inj.mp ?_
    rw [Array.toList_map, Array.toList_map, Array.toList_setIfInBounds]
    exact map_set_of_eq (by rwa [Array.getElem?_toList]) same
  have scan (ids : Array EntityId) : (ids.findIdx? fun other => other.raw = x.raw) =
      (ids.map EntityId.raw).findIdx? fun raw => raw = x.raw := by
    rw [Array.findIdx?_map]
    rfl
  rw [scanFor?, scanFor?, scan, scan, raws]

section
variable (found : g.rowOf? id = some row)
include found

theorem getElem?_overwrite_self (next : EntityId) :
    (g.ids.setIfInBounds row next)[row]? = some next := by
  obtain ⟨inside, -⟩ := Array.getElem?_eq_some_iff.mp (rowOf?_eq_some.mp found).2
  rw [Array.getElem?_setIfInBounds_self, if_pos inside]

/-- The row is found for the new id, not for the old one, and other rows are found as before. -/
theorem rowOf?_overwrite (same : next.raw = id.raw) (x : EntityId) :
    rowOf? { g with ids := g.ids.setIfInBounds row next } x =
      if x = next then some row else if x = id then none else g.rowOf? x := by
  obtain ⟨known, here⟩ := rowOf?_eq_some.mp found
  have there := getElem?_overwrite_self found next
  refine Option.ext fun place => ?_
  rw [rowOf?_eq_some]
  by_cases at_ : row = place
  · subst at_
    rw [there]
    grind [rowOf?_eq_some]
  · rw [Array.getElem?_setIfInBounds_ne at_]
    grind [rowOf?_eq_some]

theorem entity?_overwrite (pointed : g.Pointed) (raw : Nat) :
    entity? { g with ids := g.ids.setIfInBounds row next } raw =
      if raw = id.raw then some next else g.entity? raw := by
  obtain ⟨known, here⟩ := rowOf?_eq_some.mp found
  simp only [entity?]
  split
  next equal => rw [equal, known, Option.bind_some, getElem?_overwrite_self found next]
  next other =>
    cases leads : g.rows[raw]? with
    | none => rfl
    | some place =>
      rw [Option.bind_some, Option.bind_some, Array.getElem?_setIfInBounds_ne]
      rintro rfl
      obtain ⟨x, there, equal⟩ := pointed raw row leads
      obtain rfl := Option.some.inj (there.symm.trans here)
      exact other equal.symm

theorem not_mem_overwrite (distinct : g.Distinct) (different : id ≠ next) :
    id ∉ g.ids.setIfInBounds row next := by
  have here : g.ids.toList[row]? = some id := by
    rw [Array.getElem?_toList]
    exact (rowOf?_eq_some.mp found).2
  rw [← Array.mem_toList_iff, Array.toList_setIfInBounds,
    mem_set_iff next (List.Nodup.of_map _ distinct) here]
  exact fun either => either.elim (fun old => old.2 rfl) different

end

/-- What is found in a generation where `id` was overwritten by `next`, if it was there. -/
structure Lookups (g g' : Generation) (id next : EntityId) : Prop where
  row : g'.rowOf? next = g.rowOf? id
  gone : id ≠ next → id ∉ g'.ids ∧ g'.rowOf? id = none
  others : ∀ x, x ≠ id → x ≠ next → g'.rowOf? x = g.rowOf? x
  scanned : ∀ x, g'.scanFor? x = g.scanFor? x

theorem lookups_overwrite (found : g.rowOf? id = some row) (same : next.raw = id.raw)
    (distinct : g.Distinct) :
    Lookups g { g with ids := g.ids.setIfInBounds row next } id next where
  row := by
    rw [rowOf?_overwrite found same, if_pos rfl, found]
  gone := by
    intro different
    rw [rowOf?_overwrite found same, if_neg different, if_pos rfl]
    exact ⟨not_mem_overwrite found distinct different, rfl⟩
  others := by
    intro x old new
    rw [rowOf?_overwrite found same, if_neg new, if_neg old]
  scanned := scanFor?_overwrite (rowOf?_eq_some.mp found).2 same

theorem lookups_of_absent (absent : ¬ g.HasRaw id.raw) (same : next.raw = id.raw) :
    Lookups g g id next := by
  have nowhere (x : EntityId) (equal : x.raw = id.raw) : x ∉ g.ids := fun member =>
    absent ⟨x, member, equal⟩
  have row (x : EntityId) (equal : x.raw = id.raw) : g.rowOf? x = none :=
    rowOf?_eq_none (nowhere x equal)
  refine ⟨?_, fun _ => ⟨nowhere id rfl, row id rfl⟩, fun _ _ _ => rfl, fun _ => rfl⟩
  rw [row next same, row id rfl]

end Generation

namespace Collection

variable {registry : Registry} {sequence : Sequence} {log : List (Collection × Call)}
  {c c' : Collection} {id next : EntityId}

/-! ### What an update does -/

/-- An id is overwritten in the row where it is found, and nothing else is. -/
inductive Replaced (c : Collection) (id next : EntityId) : Collection → Prop where
  | current {row : Nat} (found : c.current.rowOf? id = some row) :
    Replaced c id next { c with current.ids := c.current.ids.setIfInBounds row next }
  | pending {row : Nat} (found : c.pending.rowOf? id = some row) :
    Replaced c id next { c with pending.ids := c.pending.ids.setIfInBounds row next }

/-- The full id is found in one of the generations. -/
def Finds (c : Collection) (id : EntityId) : Prop :=
  (c.current.rowOf? id).isSome ∨ (c.pending.rowOf? id).isSome

/-- What an update can answer, in the order of its checks, and what it leaves. -/
inductive Updated (c : Collection) (id next : EntityId) :
    Except CollectionError Unit × Collection → Prop where
  | mismatch (differ : id.raw ≠ next.raw) : Updated c id next (.error (.rawIdMismatch id next), c)
  | illegal (same : id.raw = next.raw) (blocked : ¬ id.life.Reaches next.life) :
    Updated c id next (.error (.illegalTransition ⟨id.life, next.life⟩), c)
  | absent (same : id.raw = next.raw) (allowed : id.life.Reaches next.life)
    (missing : ¬ c.Finds id) : Updated c id next (.error (.notFound id), c)
  | written {c' : Collection} (same : id.raw = next.raw) (allowed : id.life.Reaches next.life)
    (replaced : Replaced c id next c') : Updated c id next (.ok (), c')

theorem updated (c : Collection) (id next : EntityId) : Updated c id next (c.update id next) := by
  by_cases same : id.raw = next.raw
  · by_cases allowed : id.life.Reaches next.life
    · obtain ⟨checked, accepted⟩ := EntityId.check_of_reaches allowed
      simp only [update, if_neg (not_not.mpr same), accepted, Generation.replace?]
      cases current : c.current.rowOf? id with
      | some row => exact .written same allowed (.current current)
      | none =>
        cases pending : c.pending.rowOf? id with
        | some row => exact .written same allowed (.pending pending)
        | none => exact .absent same allowed (by simp [Finds, current, pending])
    · simp only [update, if_neg (not_not.mpr same), EntityId.check_of_not_reaches allowed]
      exact .illegal same allowed
  · simp only [update, ne_eq, same, not_false_eq_true, if_true]
    exact .mismatch same

theorem Replaced.finds (replaced : Replaced c id next c') : c.Finds id := by
  cases replaced with
  | current found => exact .inl (Option.isSome_of_eq_some found)
  | pending found => exact .inr (Option.isSome_of_eq_some found)

theorem Finds.mem (finds : c.Finds id) : id ∈ c.ids := by
  rw [mem_ids]
  rcases finds with current | pending
  · obtain ⟨row, found⟩ := Option.isSome_iff_exists.mp current
    exact .inl (Generation.mem_of_rowOf? found)
  · obtain ⟨row, found⟩ := Option.isSome_iff_exists.mp pending
    exact .inr (Generation.mem_of_rowOf? found)

theorem WellFormed.finds_iff (wf : c.WellFormed) : c.Finds id ↔ id ∈ c.ids := by
  rw [Finds, wf.current.isSome_rowOf?_iff, wf.pending.isSome_rowOf?_iff, mem_ids]

/-! ### What is found afterwards -/

/-- What is found in a collection after `id` was overwritten by `next`. -/
structure Lookups (c c' : Collection) (id next : EntityId) : Prop where
  current : c.current.Lookups c'.current id next
  pending : c.pending.Lookups c'.pending id next
  entity : ∀ raw, c'.entity? raw = if raw = id.raw then some next else c.entity? raw

/-- The generations have no raw id in common. -/
theorem apart_of_distinct (distinct : (c.ids.map EntityId.raw).Nodup) {raw : Nat}
    (inside : c.current.HasRaw raw) : ¬ c.pending.HasRaw raw := by
  rw [ids, List.map_append, List.nodup_append] at distinct
  obtain ⟨x, current, rfl⟩ := inside
  rintro ⟨y, pending, same⟩
  exact distinct.2.2 x.raw (List.mem_map_of_mem (Array.mem_toList_iff.mpr current)) y.raw
    (List.mem_map_of_mem (Array.mem_toList_iff.mpr pending)) same.symm

theorem Kept.lookups (kept : Kept registry sequence c) (distinct : (c.ids.map EntityId.raw).Nodup)
    (same : next.raw = id.raw) (replaced : Replaced c id next c') : Lookups c c' id next := by
  have each := distinct
  rw [ids, List.map_append, List.nodup_append] at each
  cases replaced with
  | @current row found =>
    have has : c.current.HasRaw id.raw := ⟨id, Generation.mem_of_rowOf? found, rfl⟩
    refine ⟨Generation.lookups_overwrite found same each.1,
      Generation.lookups_of_absent (apart_of_distinct distinct has) same, fun raw => ?_⟩
    simp only [entity?, Generation.entity?_overwrite found kept.current.pointed]
    by_cases inside : c.current.rows.contains raw = true
    · simp only [if_pos inside]
    · have other : raw ≠ id.raw := by
        rintro rfl
        rw [Std.TreeMap.contains_eq_isSome_getElem?, (Generation.rowOf?_eq_some.mp found).1] at inside
        exact inside rfl
      simp only [if_neg inside, if_neg other]
  | @pending row found =>
    have has : c.pending.HasRaw id.raw := ⟨id, Generation.mem_of_rowOf? found, rfl⟩
    have absent : ¬ c.current.HasRaw id.raw := fun there => apart_of_distinct distinct there has
    refine ⟨Generation.lookups_of_absent absent same,
      Generation.lookups_overwrite found same each.2.1, fun raw => ?_⟩
    simp only [entity?, Generation.entity?_overwrite found kept.pending.pointed]
    by_cases inside : c.current.rows.contains raw = true
    · -- The current row map leads to a row with this raw id.
      have other : raw ≠ id.raw := by
        rintro rfl
        rw [Std.TreeMap.contains_eq_isSome_getElem?, Option.isSome_iff_exists] at inside
        obtain ⟨place, leads⟩ := inside
        obtain ⟨x, there, equal⟩ := kept.current.pointed id.raw place leads
        exact absent ⟨x, Array.mem_of_getElem? there, equal⟩
      simp only [if_pos inside, if_neg other]
    · simp only [if_neg inside]

/-! ### Every history -/

/-- How an update answers and what it leaves. -/
structure Exact (c : Collection) (id next : EntityId) : Prop where
  succeeds : (c.update id next).1 = .ok () ↔
    id.raw = next.raw ∧ id.life.Reaches next.life ∧ c.Finds id
  written : (c.update id next).1 = .ok () → id ∈ c.ids ∧
    Replaced c id next (c.update id next).2 ∧ Lookups c (c.update id next).2 id next
  -- What is wrong first is what is answered.
  mismatch : id.raw ≠ next.raw → c.update id next = (.error (.rawIdMismatch id next), c)
  illegal : id.raw = next.raw → ¬ id.life.Reaches next.life →
    c.update id next = (.error (.illegalTransition ⟨id.life, next.life⟩), c)
  absent : id.raw = next.raw → id.life.Reaches next.life → ¬ c.Finds id →
    c.update id next = (.error (.notFound id), c)

theorem Kept.exact (kept : Kept registry sequence c) (distinct : (c.ids.map EntityId.raw).Nodup)
    (id next : EntityId) : Exact c id next := by
  rcases outcome : c.update id next with ⟨answer, c'⟩
  have updated := c.updated id next
  rw [outcome] at updated
  constructor <;> rw [outcome]
  case succeeds =>
    cases updated with
    | mismatch differ => exact iff_of_false (by simp) fun all => differ all.1
    | illegal same blocked => exact iff_of_false (by simp) fun all => blocked all.2.1
    | absent same allowed missing => exact iff_of_false (by simp) fun all => missing all.2.2
    | written same allowed replaced => exact iff_of_true rfl ⟨same, allowed, replaced.finds⟩
  case written =>
    intro succeeded
    cases updated with
    | mismatch | illegal | absent => cases succeeded
    | written same allowed replaced =>
      exact ⟨replaced.finds.mem, replaced, kept.lookups distinct same.symm replaced⟩
  case mismatch =>
    intro differ
    cases updated with
    | mismatch => rfl
    | illegal same | absent same | written same => exact absurd same differ
  case illegal =>
    intro same blocked
    cases updated with
    | mismatch differ => exact absurd same differ
    | illegal => rfl
    | absent _ allowed | written _ allowed => exact absurd allowed blocked
  case absent =>
    intro same allowed missing
    cases updated with
    | mismatch differ => exact absurd same differ
    | illegal _ blocked => exact absurd allowed blocked
    | absent => rfl
    | written _ _ replaced => exact absurd replaced.finds missing

/-- Distinct raw ids that the row maps know make a collection well-formed. -/
theorem Kept.wellFormed (kept : Kept registry sequence c) (listed : c.current.Listed)
    (distinct : (c.ids.map EntityId.raw).Nodup) : c.WellFormed := by
  have each := distinct
  rw [ids, List.map_append, List.nodup_append] at each
  exact ⟨Generation.wellFormed_of_listed kept.current.even kept.current.pointed listed each.1,
    Generation.wellFormed_of_listed kept.pending.even kept.pending.pointed kept.listed each.2.1,
    kept.types, fun raw => apart_of_distinct distinct⟩

/-- Whatever was done to a collection since it was bound, an update changes the one id it finds, and
nothing if it fails, as long as no raw id is stored twice. It finds what is stored, if no commit tore
two entities of one raw id apart. -/
theorem exact_of_history (history : History registry sequence log c)
    (distinct : (c.ids.map EntityId.raw).Nodup) :
    (∀ id next, Exact c id next) ∧
      ((∀ before, (before, Call.commit) ∈ log → Separate before.current) →
        ∀ id, c.Finds id ↔ id ∈ c.ids) := by
  have kept := kept_of_history history
  refine ⟨kept.exact distinct, fun separate id => ?_⟩
  exact (kept.wellFormed (listed_of_history history separate) distinct).finds_iff

/-- The first of three entities is destroyed, and a fourth one is waiting. -/
def removeThenCreate : List Call := removeFirst ++ [.create (.ofRaw 4)]

/-- Each that is stored can be updated, in whichever generation it is, and the destroyed one cannot. -/
theorem exact_of_removeThenCreate :
    History ageRegistry ageSequence (emptyAges.journal removeThenCreate)
        (emptyAges.play removeThenCreate) ∧
      ((emptyAges.play removeThenCreate).ids.map EntityId.raw).Nodup ∧
      (∀ before, (before, Call.commit) ∈ emptyAges.journal removeThenCreate → Separate before.current) ∧
      (∀ id, (emptyAges.play removeThenCreate).Finds id ↔ id ∈ [.ofRaw 3, .ofRaw 2, .ofRaw 4]) ∧
      Exact (emptyAges.play removeThenCreate) (.ofRaw 2) ((EntityId.ofRaw 2).withLife .alive) ∧
      Exact (emptyAges.play removeThenCreate) (.ofRaw 4) ((EntityId.ofRaw 4).withLife .alive) ∧
      Exact (emptyAges.play removeThenCreate) (.ofRaw 1) ((EntityId.ofRaw 1).withLife .alive) := by
  have history := history_emptyAges removeThenCreate
  have each : ∀ each ∈ emptyAges.journal removeThenCreate,
      (each.1.current.ids.toList.map EntityId.raw).Nodup := by decide
  have separate : ∀ before, (before, Call.commit) ∈ emptyAges.journal removeThenCreate →
      Separate before.current := fun before member => separate_of_distinct (each _ member)
  have ids : (emptyAges.play removeThenCreate).ids = [.ofRaw 3, .ofRaw 2, .ofRaw 4] := by decide
  have distinct : ((emptyAges.play removeThenCreate).ids.map EntityId.raw).Nodup := by
    rw [ids]
    decide
  obtain ⟨exact, finds⟩ := exact_of_history history distinct
  exact ⟨history, distinct, separate, fun id => ids ▸ finds separate id, exact _ _, exact _ _, exact _ _⟩

/-- Of two entities of one raw id one has left, and the row map does not know the other one any more:
it is stored, alone with its raw id, and cannot be updated. -/
theorem lost_of_reusedRaw : ∃ log c, History ageRegistry ageSequence log c ∧
    (c.ids.map EntityId.raw).Nodup ∧
    ∃ id next : EntityId, id.raw = next.raw ∧ id.life.Reaches next.life ∧ id ∈ c.ids ∧
      c.update id next = (.error (.notFound id), c) := by
  have ids : (emptyAges.play reusedRaw).ids = [.ofRaw 1] := by decide
  have current : (emptyAges.play reusedRaw).current.rowOf? (.ofRaw 1) = none := by decide
  have pending : (emptyAges.play reusedRaw).pending.rowOf? (.ofRaw 1) = none := by decide
  have history := history_emptyAges reusedRaw
  have distinct : ((emptyAges.play reusedRaw).ids.map EntityId.raw).Nodup := by simp [ids]
  have same : (EntityId.ofRaw 1).raw = ((EntityId.ofRaw 1).withLife .alive).raw := by decide
  have allowed : (EntityId.ofRaw 1).life.Reaches ((EntityId.ofRaw 1).withLife .alive).life :=
    .inr (by decide)
  have exact := (kept_of_history history).exact distinct (.ofRaw 1)
    ((EntityId.ofRaw 1).withLife .alive)
  exact ⟨_, _, history, distinct, _, _, same, allowed, by simp [ids],
    exact.absent same allowed (by simp [Finds, current, pending])⟩

end Collection

end EntityWorld
