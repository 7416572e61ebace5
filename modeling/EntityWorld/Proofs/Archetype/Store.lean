import EntityWorld.Proofs.Archetype.Keys
import EntityWorld.Proofs.Archetype.Sweep
import Mathlib.Data.List.Flatten
import Mathlib.Data.List.Perm.Basic

/-!
# The store

The location map finds a raw id in the one collection that holds it. Every operation keeps this and
never fails on what callers ask of it; beside each stands which entities are current and which are
pending afterwards.
-/
namespace EntityWorld.Store

variable {s : Store} {a b : ArchetypeId} {c : Collection} {id next x y : EntityId} {raw : Nat}

structure WellFormed (s : Store) : Prop where
  keyed : s.Keyed
  collections : ∀ a c, s.collection? a = some c → c.WellFormed
  located : ∀ raw a, s.locate? raw = some a ↔ ∃ c, s.collection? a = some c ∧ c.HasRaw raw

/-- Every stored entity, collection by collection. -/
def ids (s : Store) : List EntityId := s.collections.toList.flatMap Collection.ids

/-- Some collection has the entity in this one of its generations. -/
def Holds (s : Store) (generation : Collection → Generation) (id : EntityId) : Prop :=
  ∃ a c, s.collection? a = some c ∧ id ∈ (generation c).ids

/-- The entity is in a current generation. -/
abbrev Current (s : Store) (id : EntityId) : Prop := s.Holds Collection.current id

/-- The entity is in a pending generation. -/
abbrev Pending (s : Store) (id : EntityId) : Prop := s.Holds Collection.pending id

theorem mem_ids_iff : x ∈ s.ids ↔ ∃ a c, s.collection? a = some c ∧ x ∈ c.ids := by
  simp only [ids, List.mem_flatMap, Array.mem_toList_iff]
  constructor
  · rintro ⟨c, member, inside⟩
    obtain ⟨i, here⟩ := Array.mem_iff_getElem?.mp member
    exact ⟨⟨i⟩, c, here, inside⟩
  · rintro ⟨a, c, here, inside⟩
    exact ⟨c, Array.mem_of_getElem? here, inside⟩

theorem mem_ids : x ∈ s.ids ↔ s.Current x ∨ s.Pending x := by
  simp only [mem_ids_iff, Collection.mem_ids, Current, Pending, Holds]
  constructor
  · rintro ⟨a, c, here, current | pending⟩
    · exact .inl ⟨a, c, here, current⟩
    · exact .inr ⟨a, c, here, pending⟩
  · rintro (⟨a, c, here, current⟩ | ⟨a, c, here, pending⟩)
    · exact ⟨a, c, here, .inl current⟩
    · exact ⟨a, c, here, .inr pending⟩

theorem wellFormed_empty : empty.WellFormed where
  keyed := keyed_empty
  collections := by simp [collection?, empty]
  located := by simp [collection?, locate?, empty]

namespace WellFormed

variable (wf : s.WellFormed)
include wf

theorem locate?_of_mem (here : s.collection? a = some c) (member : x ∈ c.ids) :
    s.locate? x.raw = some a :=
  (wf.located x.raw a).mpr ⟨c, here, Collection.hasRaw_iff.mpr ⟨x, member, rfl⟩⟩

/-- A raw id is in one collection only. -/
theorem place_unique {d : Collection} (first : s.collection? a = some c) (left : x ∈ c.ids)
    (second : s.collection? b = some d) (right : y ∈ d.ids) (same : x.raw = y.raw) : a = b := by
  have atFirst := wf.locate?_of_mem first left
  have atSecond := wf.locate?_of_mem second right
  rw [same] at atFirst
  exact Option.some.inj (atFirst.symm.trans atSecond)

theorem eq_of_raw (first : x ∈ s.ids) (second : y ∈ s.ids) (same : x.raw = y.raw) : x = y := by
  obtain ⟨a, c, here, left⟩ := mem_ids_iff.mp first
  obtain ⟨b, d, there, right⟩ := mem_ids_iff.mp second
  obtain rfl := wf.place_unique here left there right same
  obtain rfl := Option.some.inj (here.symm.trans there)
  have distinct := (wf.collections a c here).nodup
  exact List.inj_on_of_nodup_map distinct left right same

theorem entity?_eq_some_iff : s.entity? raw = some id ↔ id ∈ s.ids ∧ id.raw = raw := by
  simp only [entity?, Option.bind_eq_some_iff]
  constructor
  · rintro ⟨a, -, c, here, found⟩
    obtain ⟨member, same⟩ := (wf.collections a c here).entity?_eq_some_iff.mp found
    exact ⟨mem_ids_iff.mpr ⟨a, c, here, member⟩, same⟩
  · rintro ⟨member, rfl⟩
    obtain ⟨a, c, here, inside⟩ := mem_ids_iff.mp member
    exact ⟨a, wf.locate?_of_mem here inside, c, here,
      (wf.collections a c here).entity?_eq_some_iff.mpr ⟨inside, rfl⟩⟩

theorem entity?_eq_none_iff : s.entity? raw = none ↔ ∀ x ∈ s.ids, x.raw ≠ raw := by
  rw [Option.eq_none_iff_forall_ne_some]
  constructor
  · intro nothing x member same
    exact nothing x (wf.entity?_eq_some_iff.mpr ⟨member, same⟩)
  · intro absent x found
    obtain ⟨member, same⟩ := wf.entity?_eq_some_iff.mp found
    exact absent x member same

/-- No raw id is stored twice. -/
theorem nodup : (s.ids.map EntityId.raw).Nodup := by
  rw [ids, List.map_flatMap, List.nodup_flatMap]
  constructor
  · intro c member
    obtain ⟨i, here⟩ := Array.mem_iff_getElem?.mp (Array.mem_toList_iff.mp member)
    exact (wf.collections ⟨i⟩ c here).nodup
  · refine List.pairwise_iff_getElem.mpr fun i j hi hj below raw left right => ?_
    obtain ⟨x, inFirst, rfl⟩ := List.mem_map.mp left
    obtain ⟨y, inSecond, same⟩ := List.mem_map.mp right
    simp only [Array.length_toList, Array.getElem_toList] at hi hj inFirst inSecond
    have := wf.place_unique (a := ⟨i⟩) (b := ⟨j⟩) (Array.getElem?_eq_getElem hi) inFirst
      (Array.getElem?_eq_getElem hj) inSecond same.symm
    simp only [ArchetypeId.mk.injEq] at this
    omega

theorem not_current_of_pending (pending : s.Pending x) (same : x.raw = y.raw) : ¬ s.Current y := by
  rintro ⟨b, d, there, current⟩
  obtain ⟨a, c, here, inside⟩ := pending
  obtain rfl := wf.place_unique here (Collection.mem_ids.mpr (.inr inside)) there
    (Collection.mem_ids.mpr (.inl current)) same
  obtain rfl := Option.some.inj (here.symm.trans there)
  exact (wf.collections a c here).apart x.raw ⟨y, current, same.symm⟩ ⟨x, inside, rfl⟩

end WellFormed

/-! ### One collection changes -/

@[simp] theorem locate?_modifyCollection (change : Collection → Collection) :
    (s.modifyCollection a change).locate? raw = s.locate? raw := rfl

theorem collections_modify {change : Collection → Collection} (wf : s.WellFormed)
    (here : s.collection? a = some c) (kept : (change c).WellFormed) :
    ∀ b d, (s.modifyCollection a change).collection? b = some d → d.WellFormed := by
  intro b d found
  rw [collection?_modifyCollection] at found
  split at found
  next equal =>
    subst equal
    rw [here] at found
    cases found
    exact kept
  next => exact wf.collections b d found

/-- A collection may be exchanged for one of the same sequence with the same raw ids. -/
theorem wellFormed_modify {change : Collection → Collection} (wf : s.WellFormed)
    (here : s.collection? a = some c) (keyed : (change c).sequence = c.sequence)
    (kept : (change c).WellFormed) (same : ∀ raw, (change c).HasRaw raw ↔ c.HasRaw raw) :
    (s.modifyCollection a change).WellFormed where
  keyed := wf.keyed.modify change here keyed
  collections := collections_modify wf here kept
  located := by
    intro raw b
    rw [locate?_modifyCollection, wf.located, collection?_modifyCollection]
    split
    next equal =>
      subst equal
      simp [here, same]
    next => rfl

/-- What the generations of a store hold after a collection was exchanged. -/
theorem holds_modify {change : Collection → Collection} {generation : Collection → Generation}
    (here : s.collection? a = some c) :
    (s.modifyCollection a change).Holds generation x ↔
      x ∈ (generation (change c)).ids ∨
        ∃ b d, b ≠ a ∧ s.collection? b = some d ∧ x ∈ (generation d).ids := by
  simp only [Holds, collection?_modifyCollection]
  constructor
  · rintro ⟨b, d, found, inside⟩
    split at found
    next equal =>
      subst equal
      rw [here] at found
      cases found
      exact .inl inside
    next apart => exact .inr ⟨b, d, Ne.symm apart, found, inside⟩
  · rintro (inside | ⟨b, d, apart, found, inside⟩)
    · exact ⟨a, change c, by rw [if_pos rfl, here]; rfl, inside⟩
    · exact ⟨b, d, by rw [if_neg (Ne.symm apart)]; exact found, inside⟩

/-- A generation that stays the same in the exchanged collection stays the same in the store. -/
theorem holds_modify_of_eq {change : Collection → Collection} {generation : Collection → Generation}
    (here : s.collection? a = some c) (same : (generation (change c)).ids = (generation c).ids) :
    (s.modifyCollection a change).Holds generation x ↔ s.Holds generation x := by
  rw [holds_modify here, same]
  constructor
  · rintro (inside | ⟨b, d, -, found, inside⟩)
    · exact ⟨a, c, here, inside⟩
    · exact ⟨b, d, found, inside⟩
  · rintro ⟨b, d, found, inside⟩
    by_cases equal : b = a
    · subst equal
      obtain rfl := Option.some.inj (here.symm.trans found)
      exact .inl inside
    · exact .inr ⟨b, d, equal, found, inside⟩

/-! ### Creating and overwriting -/

/-- A raw id that is not located anywhere can be put into any archetype there is. -/
theorem create_spec (id : EntityId) (wf : s.WellFormed) (here : s.collection? a = some c)
    (fresh : ∀ x ∈ s.ids, x.raw ≠ id.raw) :
    ∃ s', s.create a id = (.ok (), s') ∧ s'.WellFormed ∧ (∀ x, s'.Current x ↔ s.Current x) ∧
      ∀ x, s'.Pending x ↔ s.Pending x ∨ x = id := by
  have absent : ¬ c.HasRaw id.raw := fun has => by
    obtain ⟨x, member, same⟩ := Collection.hasRaw_iff.mp has
    exact fresh x (mem_ids_iff.mpr ⟨a, c, here, member⟩) same
  have kept := Collection.wellFormed_create (wf.collections a c here) absent
  have raws : ∀ raw, (c.create id).HasRaw raw ↔ c.HasRaw raw ∨ id.raw = raw := by
    intro raw
    simp only [Collection.hasRaw_iff, Collection.mem_ids, Collection.create, Generation.ids_append,
      Array.mem_push]
    constructor
    · rintro ⟨x, current | pending | rfl, same⟩
      · exact .inl ⟨x, .inl current, same⟩
      · exact .inl ⟨x, .inr pending, same⟩
      · exact .inr same
    · rintro (⟨x, current | pending, same⟩ | same)
      · exact ⟨x, .inl current, same⟩
      · exact ⟨x, .inr (.inl pending), same⟩
      · exact ⟨id, .inr (.inr rfl), same⟩
  simp only [create, here]
  refine ⟨_, rfl, ⟨(wf.keyed.modify (·.create id) here rfl).of_same rfl rfl,
    collections_modify wf here kept, ?_⟩, fun x => holds_modify_of_eq here rfl, fun x => ?_⟩
  · -- The new raw id is located in its archetype, and every other one where it was.
    intro raw b
    change (s.locations.insert id.raw a)[raw]? = some b ↔
      ∃ d, (s.modifyCollection a (·.create id)).collection? b = some d ∧ d.HasRaw raw
    rw [getElem?_insert_nat, collection?_modifyCollection]
    by_cases new : id.raw = raw
    · rw [if_pos new, Option.some.injEq]
      constructor
      · rintro rfl
        exact ⟨c.create id, by rw [if_pos rfl, here]; rfl, (raws raw).mpr (.inr new)⟩
      · rintro ⟨d, found, has⟩
        split at found
        next equal => exact equal
        next =>
          obtain ⟨x, member, same⟩ := Collection.hasRaw_iff.mp has
          exact absurd (same.trans new.symm) (fresh x (mem_ids_iff.mpr ⟨b, d, found, member⟩))
    · rw [if_neg new, show s.locations[raw]? = s.locate? raw from rfl, wf.located]
      split
      next equal =>
        subst equal
        simp [here, raws, new]
      next => rfl
  · change (s.modifyCollection a (·.create id)).Pending x ↔ _
    rw [Pending, holds_modify here]
    simp only [Collection.create, Generation.ids_append, Array.mem_push]
    constructor
    · rintro ((old | new) | ⟨b, d, -, found, inside⟩)
      · exact .inl ⟨a, c, here, old⟩
      · exact .inr new
      · exact .inl ⟨b, d, found, inside⟩
    · rintro (⟨b, d, found, inside⟩ | new)
      · by_cases equal : b = a
        · subst equal
          obtain rfl := Option.some.inj (here.symm.trans found)
          exact .inl (.inl inside)
        · exact .inr ⟨b, d, equal, found, inside⟩
      · exact .inl (.inr new)

/-- Overwriting one entity changes it where it is and nothing else. -/
private theorem holds_overwrite {c' : Collection} {generation : Collection → Generation}
    (wf : s.WellFormed) (here : s.collection? a = some c) (held : id ∈ c.ids)
    (within : ∀ d x, x ∈ (generation d).ids → x ∈ d.ids)
    (replaced : Collection.Overwritten (generation c).ids (generation c').ids id next) :
    (s.modifyCollection a fun _ => c').Holds generation x ↔
      (s.Holds generation x ∧ x ≠ id) ∨ (x = next ∧ s.Holds generation id) := by
  rw [holds_modify here, replaced x]
  constructor
  · rintro ((⟨inside, different⟩ | ⟨same, inside⟩) | ⟨b, d, apart, found, inside⟩)
    · exact .inl ⟨⟨a, c, here, inside⟩, different⟩
    · exact .inr ⟨same, a, c, here, inside⟩
    · refine .inl ⟨⟨b, d, found, inside⟩, ?_⟩
      rintro rfl
      exact apart (wf.place_unique found (within d x inside) here held rfl)
  · rintro (⟨⟨b, d, found, inside⟩, different⟩ | ⟨same, b, d, found, inside⟩)
    · by_cases equal : b = a
      · subst equal
        obtain rfl := Option.some.inj (here.symm.trans found)
        exact .inl (.inl ⟨inside, different⟩)
      · exact .inr ⟨b, d, equal, found, inside⟩
    · obtain rfl := wf.place_unique found (within d id inside) here held rfl
      obtain rfl := Option.some.inj (here.symm.trans found)
      exact .inl (.inr ⟨same, inside⟩)

/-- A stored entity can be overwritten, as long as its life state goes on. -/
theorem update_spec (wf : s.WellFormed) (held : id ∈ s.ids) (same : next.raw = id.raw)
    (allowed : id.life.Reaches next.life) :
    ∃ s', s.update id next = (.ok (), s') ∧ s'.WellFormed ∧
      (∀ x, s'.Current x ↔ (s.Current x ∧ x ≠ id) ∨ (x = next ∧ s.Current id)) ∧
      ∀ x, s'.Pending x ↔ (s.Pending x ∧ x ≠ id) ∨ (x = next ∧ s.Pending id) := by
  obtain ⟨a, c, here, inside⟩ := mem_ids_iff.mp held
  obtain ⟨c', updated, kept, keyed, current, pending⟩ :=
    Collection.update_spec (wf.collections a c here) inside same allowed
  simp only [update, wf.locate?_of_mem here inside, here, updated]
  refine ⟨_, rfl, wellFormed_modify wf here keyed kept fun raw => ?_, fun x => ?_, fun x => ?_⟩
  · exact or_congr (current.hasRaw_iff same) (pending.hasRaw_iff same)
  · exact holds_overwrite wf here inside (fun d x => Collection.mem_ids.mpr ∘ .inl) current
  · exact holds_overwrite wf here inside (fun d x => Collection.mem_ids.mpr ∘ .inr) pending

/-! ### Operations that leave the entities alone -/

/-- The same entities are stored, in the same generations. -/
structure Keeps (s t : Store) : Prop where
  wellFormed : t.WellFormed
  current : ∀ x, t.Current x ↔ s.Current x
  pending : ∀ x, t.Pending x ↔ s.Pending x

namespace Keeps

variable {t u : Store}

theorem refl (wf : s.WellFormed) : Keeps s s := ⟨wf, fun _ => .rfl, fun _ => .rfl⟩

theorem trans (first : Keeps s t) (second : Keeps t u) : Keeps s u :=
  ⟨second.wellFormed, fun x => (second.current x).trans (first.current x),
    fun x => (second.pending x).trans (first.pending x)⟩

theorem mem_ids (keeps : Keeps s t) : x ∈ t.ids ↔ x ∈ s.ids := by
  rw [Store.mem_ids, Store.mem_ids, keeps.current, keeps.pending]

/-- Entities are in the collections, and the two maps find both. -/
theorem of_eq (wf : s.WellFormed) (collections : t.collections = s.collections)
    (bySequence : t.bySequence = s.bySequence) (locations : t.locations = s.locations) :
    Keeps s t := by
  have same (a : ArchetypeId) : t.collection? a = s.collection? a := by
    simp only [collection?, collections]
  have keyed : t.Keyed := wf.keyed.of_same bySequence (by rw [sequences, collections, ← sequences])
  refine ⟨⟨keyed, fun a c found => wf.collections a c (same a ▸ found), fun raw a => ?_⟩, fun x => ?_,
    fun x => ?_⟩
  · rw [same, ← wf.located, locate?, locate?, locations]
  · simp only [Current, Holds, same]
  · simp only [Pending, Holds, same]

end Keeps

/-- A collection may be exchanged for one with the same entities. -/
theorem keeps_modify (c' : Collection) (wf : s.WellFormed) (here : s.collection? a = some c)
    (keyed : c'.sequence = c.sequence) (kept : c'.WellFormed) (current : c'.current.ids = c.current.ids)
    (pending : c'.pending.ids = c.pending.ids) : Keeps s (s.modifyCollection a fun _ => c') where
  wellFormed := wellFormed_modify wf here keyed kept fun raw => by
    simp only [Collection.HasRaw, Generation.HasRaw, current, pending]
  current := fun _ => holds_modify_of_eq here current
  pending := fun _ => holds_modify_of_eq here pending

theorem keeps_of_made {t : Store} {registry : Registry} {sequence : Sequence} (wf : s.WellFormed)
    (made : Made registry s sequence a t) : Keeps s t := by
  have keyed := made.keyed wf.keyed
  cases made with
  | found => exact .refl wf
  | @pushed c fresh bound =>
    obtain ⟨kept, empty, -⟩ := Collection.bind_unbound bound
    obtain ⟨noCurrent, noPending⟩ := List.append_eq_nil_iff.mp empty
    -- A collection of the new store is an old one, or the one at the end.
    have split (b : ArchetypeId) (d : Collection) :
        (s.push sequence c).collection? b = some d ↔
          s.collection? b = some d ∨ (b.index = s.collections.size ∧ c = d) := by
      rw [collection?_push]
      split
      next last =>
        -- There was none in that place.
        have absent : s.collection? b = none := Array.getElem?_eq_none (Nat.le_of_eq last.symm)
        simp only [absent, last, Option.some.injEq, reduceCtorEq, true_and, false_or]
      next apart => simp only [apart, false_and, or_false]
    have lifted (generation : Collection → Generation) (none : (generation c).ids.toList = []) (x) :
        (s.push sequence c).Holds generation x ↔ s.Holds generation x := by
      simp only [Holds, split]
      constructor
      · rintro ⟨b, d, found | ⟨-, rfl⟩, inside⟩
        · exact ⟨b, d, found, inside⟩
        · rw [← Array.mem_toList_iff, none] at inside
          cases inside
      · rintro ⟨b, d, found, inside⟩
        exact ⟨b, d, .inl found, inside⟩
    refine ⟨⟨keyed, fun b d found => ?_, fun raw b => ?_⟩, lifted _ noCurrent, lifted _ noPending⟩
    · rcases (split b d).mp found with old | ⟨-, rfl⟩
      · exact wf.collections b d old
      · exact kept
    · change s.locate? raw = some b ↔ _
      simp only [wf.located, split]
      constructor
      · rintro ⟨d, found, has⟩
        exact ⟨d, .inl found, has⟩
      · rintro ⟨d, found | ⟨-, rfl⟩, has⟩
        · exact ⟨d, found, has⟩
        · obtain ⟨x, member, -⟩ := Collection.hasRaw_iff.mp has
          rw [empty] at member
          cases member

theorem keeps_registerDefinition (wf : s.WellFormed) (registry : Registry)
    (definition : EntityDefinition) : Keeps s (s.registerDefinition registry definition).value.2 := by
  rcases s.registerDefinition_spec wf.keyed registry definition with
    ⟨cause, failed⟩ | ⟨sequence, a, s₁, c, definitions, made, here, done⟩
  · rw [failed]
    exact .refl wf
  · have keeps := keeps_of_made wf made
    have kept := keeps.wellFormed.collections a c here
    have exchanged := keeps_modify { c with definitions } keeps.wellFormed here rfl
      ⟨kept.current, kept.pending, kept.types, kept.apart⟩ rfl rfl
    rw [done]
    exact keeps.trans (exchanged.trans (.of_eq exchanged.wellFormed rfl rfl rfl))

theorem keeps_setLoadState (wf : s.WellFormed) (d : DefinitionId) (state : LoadState) :
    Keeps s (s.setLoadState d state).2 := by
  unfold setLoadState
  split
  · exact .refl wf
  · exact .of_eq wf rfl rfl rfl

theorem keeps_refreshIndex (wf : s.WellFormed) (kindCount : Nat) :
    Keeps s (s.refreshIndex kindCount).value.2 := by
  unfold refreshIndex
  split
  · exact .of_eq wf rfl rfl rfl
  · exact .refl wf

/-! ### Committing -/

theorem getElem?_eraseAll (gone : List EntityId) (m : Std.TreeMap Nat ArchetypeId) (raw : Nat) :
    (gone.foldl (fun map id => map.erase id.raw) m)[raw]? =
      if raw ∈ gone.map EntityId.raw then none else m[raw]? := by
  induction gone generalizing m with
  | nil => simp
  | cons id rest ih =>
    rw [List.foldl_cons, ih, getElem?_erase_nat, List.map_cons]
    by_cases first : id.raw = raw
    · rw [if_pos first, if_pos (List.mem_cons.mpr (.inl first.symm)), ite_self]
    · by_cases later : raw ∈ rest.map EntityId.raw
      · rw [if_pos later, if_pos (List.mem_cons_of_mem _ later)]
      · rw [if_neg later, if_neg first, if_neg]
        rintro member
        rcases List.mem_cons.mp member with same | old
        · exact first same.symm
        · exact later old

theorem value_commit (s : Store) :
    s.commit.value = commitFrom s.collections.size 0 s .empty := by
  unfold commit
  rcases commitFrom s.collections.size 0 s .empty with ⟨failure | report, after⟩
  · rfl
  · simp only [Logged.value_bind, Logged.value_ite, Logged.value_pure, ite_self]

/-- The store after one of its collections was committed. -/
def settle (s : Store) (position : Nat) (c : Collection) : Store :=
  { s.modifyCollection ⟨position⟩ fun _ => c.commit.2 with
    locations := c.part.removed.foldl (fun map id => map.erase id.raw) s.locations }

theorem commitFrom_succ {position : Nat} (rest : Nat) (report : CommitReport)
    (found : s.collections[position]? = some c) (commits : c.commit = (.ok c.part, c.commit.2)) :
    commitFrom (rest + 1) position s report =
      commitFrom rest (position + 1) (s.settle position c) (report.append c.part) := by
  simp only [commitFrom, found]
  rw [commits]
  rfl

theorem toList_settle {position : Nat} (inside : position < s.collections.size) (c : Collection) :
    (s.settle position c).collections.toList =
      (s.collections.toList.take position ++ [c.commit.2]) ++
        s.collections.toList.drop (position + 1) := by
  change (s.collections.modify position fun _ => c.commit.2).toList = _
  rw [Array.toList_modify, List.modify_eq_take_cons_drop (by simpa using inside)]
  simp

theorem collection?_settle {position : Nat} (other : a.index ≠ position) (c : Collection) :
    (s.settle position c).collection? a = s.collection? a := by
  change (s.modifyCollection ⟨position⟩ fun _ => c.commit.2).collection? a = _
  rw [collection?_modifyCollection, if_neg]
  rintro rfl
  exact other rfl

theorem locate?_settle (s : Store) (position : Nat) (c : Collection) (raw : Nat) :
    (s.settle position c).locate? raw =
      if raw ∈ c.part.removed.toList.map EntityId.raw then none else s.locate? raw := by
  change (c.part.removed.foldl (fun map id => map.erase id.raw) s.locations)[raw]? = _
  rw [← Array.foldl_toList, getElem?_eraseAll]
  rfl

/-- What committing the collections from a position on makes of a store, and what it reports. -/
structure Settled (s t : Store) (position : Nat) (report : CommitReport) : Prop where
  collections : t.collections.toList = s.collections.toList.take position ++
    (s.collections.toList.drop position).map fun c => c.commit.2
  removed : report.removed.toList =
    (s.collections.toList.drop position).flatMap fun c => c.part.removed.toList
  migrated : report.migrated.toList =
    (s.collections.toList.drop position).flatMap fun c => c.part.migrated.toList
  located : ∀ raw, t.locate? raw =
    if raw ∈ report.removed.toList.map EntityId.raw then none else s.locate? raw
  bySequence : t.bySequence = s.bySequence
  others : t.definitions = s.definitions ∧ t.index = s.index ∧ t.dirty = s.dirty

theorem settled_of_done {position : Nat} (past : s.collections.size ≤ position) :
    Settled s s position .empty := by
  have none : s.collections.toList.drop position = [] := by
    rwa [List.drop_eq_nil_iff, Array.length_toList]
  have all : s.collections.toList.take position = s.collections.toList :=
    List.take_of_length_le (by rwa [Array.length_toList])
  refine ⟨by simp [none, all], by simp [none, CommitReport.empty], by simp [none, CommitReport.empty],
    fun raw => ?_, rfl, rfl, rfl, rfl⟩
  simp [CommitReport.empty]

/-- The commit of one collection before those of the collections after it. -/
theorem Settled.cons {t : Store} {position : Nat} {out : CommitReport}
    (here : s.collections[position]? = some c)
    (settled : Settled (s.settle position c) t (position + 1) out) :
    Settled s t position (c.part.append out) := by
  obtain ⟨inside, at_⟩ := Array.getElem?_eq_some_iff.mp here
  have head : s.collections.toList.drop position = c :: s.collections.toList.drop (position + 1) := by
    rw [List.drop_eq_getElem_cons (by simpa using inside), Array.getElem_toList, at_]
  have list := toList_settle inside c
  have length : (s.collections.toList.take position ++ [c.commit.2]).length = position + 1 := by
    rw [List.length_append, List.length_take, Array.length_toList, List.length_singleton]
    omega
  have left : (s.settle position c).collections.toList.drop (position + 1) =
      s.collections.toList.drop (position + 1) := by rw [list, List.drop_left' length]
  refine ⟨?_, ?_, ?_, fun raw => ?_, settled.bySequence, settled.others⟩
  · rw [settled.collections, left, list, List.take_left' length, head, List.map_cons,
      List.append_assoc, List.singleton_append]
  · rw [CommitReport.append, Array.toList_append, settled.removed, left, head, List.flatMap_cons]
  · rw [CommitReport.append, Array.toList_append, settled.migrated, left, head, List.flatMap_cons]
  · rw [settled.located, locate?_settle, CommitReport.append, Array.toList_append, List.map_append]
    simp only [List.mem_append]
    -- A raw id was removed by this commit, by a later one, or by none.
    split
    next after => rw [if_pos (.inr after)]
    next notAfter =>
      split
      next now => rw [if_pos (.inl now)]
      next notNow => rw [if_neg fun either => either.elim notNow notAfter]

/-- Where every collection can be committed, they are committed one after another. -/
theorem commitFrom_settled (rest position : Nat) (report : CommitReport)
    (covered : position + rest = s.collections.size)
    (commits : ∀ a c, s.collection? a = some c → position ≤ a.index →
      c.commit = (.ok c.part, c.commit.2)) :
    ∃ out t, commitFrom rest position s report = (.ok (report.append out), t) ∧
      Settled s t position out := by
  induction rest generalizing s position report with
  | zero =>
    exact ⟨.empty, s, by simp [commitFrom, CommitReport.append, CommitReport.empty],
      settled_of_done (by omega)⟩
  | succ rest ih =>
    have inside : position < s.collections.size := by omega
    have here : s.collection? ⟨position⟩ = some s.collections[position] :=
      Array.getElem?_eq_getElem inside
    generalize s.collections[position] = c at here
    have later : position + 1 + rest = (s.settle position c).collections.size := by
      simp only [settle, modifyCollection, Array.size_modify]
      omega
    obtain ⟨out, t, done, settled⟩ := ih (position + 1) (report.append c.part) later
      fun a d there above => by
        rw [collection?_settle (by omega)] at there
        exact commits a d there (by omega)
    refine ⟨c.part.append out, t, ?_, .cons here settled⟩
    rw [commitFrom_succ rest report here (commits _ c here (Nat.le_refl _)), done]
    simp [CommitReport.append, Array.append_assoc]

theorem commit_settled (commits : ∀ a c, s.collection? a = some c →
    c.commit = (.ok c.part, c.commit.2)) :
    ∃ report t, s.commit.value = (.ok report, t) ∧ Settled s t 0 report := by
  obtain ⟨report, t, done, settled⟩ :=
    commitFrom_settled s.collections.size 0 .empty (Nat.zero_add _) fun a c here _ => commits a c here
  have alone : CommitReport.empty.append report = report := by
    simp [CommitReport.append, CommitReport.empty]
  rw [alone, ← value_commit] at done
  exact ⟨report, t, done, settled⟩

theorem Settled.collection? {t : Store} {report : CommitReport} (settled : Settled s t 0 report)
    (a : ArchetypeId) : t.collection? a = (s.collection? a).map fun c => c.commit.2 := by
  have collections : t.collections.toList = s.collections.toList.map fun c => c.commit.2 := by
    simpa using settled.collections
  rw [Store.collection?, Store.collection?, ← Array.getElem?_toList, ← Array.getElem?_toList,
    collections, List.getElem?_map]

theorem Settled.sequences {t : Store} {report : CommitReport} (settled : Settled s t 0 report) :
    t.sequences = s.sequences := by
  refine sequences_congr fun a => ?_
  rw [settled.collection?, Option.map_map]
  exact Option.map_congr fun c _ => c.sequence_commit

/-- Every collection of a well-formed store commits. -/
theorem WellFormed.commits (wf : s.WellFormed) (here : s.collection? a = some c) :
    c.commit = (.ok c.part, c.commit.2) ∧ Collection.Committed c c.commit.2 c.part := by
  obtain ⟨report, c', done, committed⟩ := Collection.commit_spec (wf.collections a c here)
  obtain ⟨said, made⟩ := Collection.part_of_commit done
  rw [said, made]
  exact ⟨done, committed⟩

/-- The report of a store names what the reports of its collections name. -/
theorem Settled.reported {t : Store} {report : CommitReport} (settled : Settled s t 0 report)
    (committed : ∀ a c, s.collection? a = some c →
      c.part.removed.toList.Perm (c.ids.filter fun x => !Collection.survives x) ∧
        c.part.migrated.toList = c.pending.ids.toList.filter Collection.survives) :
    report.removed.toList.Perm (s.ids.filter fun x => !Collection.survives x) ∧
      report.migrated.toList = s.collections.toList.flatMap fun c =>
        c.pending.ids.toList.filter Collection.survives := by
  have found {c : Collection} (member : c ∈ s.collections.toList) :
      ∃ a, s.collection? a = some c := by
    obtain ⟨i, here⟩ := Array.mem_iff_getElem?.mp (Array.mem_toList_iff.mp member)
    exact ⟨⟨i⟩, here⟩
  rw [settled.removed, settled.migrated, List.drop_zero, ids, List.filter_flatMap]
  constructor
  · refine List.Perm.flatMap_left _ fun c member => ?_
    obtain ⟨a, here⟩ := found member
    exact (committed a c here).1
  · refine List.flatMap_congr fun c member => ?_
    obtain ⟨a, here⟩ := found member
    exact (committed a c here).2

theorem wellFormed_of_settled {t : Store} {report : CommitReport} (wf : s.WellFormed)
    (settled : Settled s t 0 report)
    (removed : report.removed.toList.Perm (s.ids.filter fun x => !Collection.survives x)) :
    t.WellFormed := by
  have gone (raw : Nat) : raw ∈ report.removed.toList.map EntityId.raw ↔
      ∃ x ∈ s.ids, ¬ Collection.survives x ∧ x.raw = raw := by
    simp only [List.mem_map, removed.mem_iff, List.mem_filter, Bool.not_eq_true', Bool.not_eq_true,
      and_assoc]
  have left (c : Collection) (a : ArchetypeId) (here : s.collection? a = some c) (x : EntityId) :
      x ∈ c.commit.2.ids ↔ x ∈ c.ids ∧ Collection.survives x := by
    have committed := (wf.commits here).2
    rw [Collection.ids, committed.pending, List.mem_append, committed.current.mem_iff,
      List.mem_filter]
    simp
  refine ⟨wf.keyed.of_same settled.bySequence settled.sequences, fun a d there => ?_,
    fun raw a => ?_⟩
  · rw [settled.collection?] at there
    obtain ⟨c, here, rfl⟩ := Option.map_eq_some_iff.mp there
    exact (wf.commits here).2.wellFormed
  · rw [settled.located]
    simp only [settled.collection?, gone]
    -- A raw id is struck off exactly if its entity was destroyed, and then no collection has it.
    split
    next removed =>
      obtain ⟨x, member, dead, same⟩ := removed
      refine Iff.intro (fun known => by cases known) ?_
      rintro ⟨d, there, has⟩
      obtain ⟨c, here, rfl⟩ := Option.map_eq_some_iff.mp there
      obtain ⟨y, inside, equal⟩ := Collection.hasRaw_iff.mp has
      obtain ⟨old, alive⟩ := (left c a here y).mp inside
      obtain rfl := wf.eq_of_raw member (mem_ids_iff.mpr ⟨a, c, here, old⟩) (same.trans equal.symm)
      exact absurd alive dead
    next kept =>
      rw [wf.located]
      constructor
      · rintro ⟨c, here, has⟩
        obtain ⟨x, member, same⟩ := Collection.hasRaw_iff.mp has
        have alive : Collection.survives x := by
          by_contra dead
          exact kept ⟨x, mem_ids_iff.mpr ⟨a, c, here, member⟩, dead, same⟩
        exact ⟨_, by rw [here, Option.map_some], Collection.hasRaw_iff.mpr
          ⟨x, (left c a here x).mpr ⟨member, alive⟩, same⟩⟩
      · rintro ⟨d, there, has⟩
        obtain ⟨c, here, rfl⟩ := Option.map_eq_some_iff.mp there
        obtain ⟨x, member, same⟩ := Collection.hasRaw_iff.mp has
        exact ⟨c, here, Collection.hasRaw_iff.mpr ⟨x, ((left c a here x).mp member).1, same⟩⟩

/-- What a commit makes of a store. -/
structure Committed (s t : Store) (report : CommitReport) : Prop where
  wellFormed : t.WellFormed
  current : ∀ x, t.Current x ↔ x ∈ s.ids ∧ Collection.survives x
  pending : ∀ x, ¬ t.Pending x
  removed : report.removed.toList.Perm (s.ids.filter fun x => !Collection.survives x)
  migrated : ∀ x, x ∈ report.migrated.toList ↔ s.Pending x ∧ Collection.survives x
  distinct : (report.migrated.toList.map EntityId.raw).Nodup

/-- A commit of the whole store succeeds: what was destroyed is removed, what was pending is current
afterwards, and the report names both. -/
theorem commit_spec (wf : s.WellFormed) :
    ∃ report t, s.commit.value = (.ok report, t) ∧ Committed s t report := by
  obtain ⟨report, t, done, settled⟩ := commit_settled fun a c here => (wf.commits here).1
  obtain ⟨removed, migrated⟩ := settled.reported fun a c here =>
    ⟨(wf.commits here).2.removed, (wf.commits here).2.migrated⟩
  have after {a : ArchetypeId} {d : Collection} (there : t.collection? a = some d) :
      ∃ c, s.collection? a = some c ∧ Collection.Committed c d c.part := by
    rw [settled.collection?] at there
    obtain ⟨c, here, rfl⟩ := Option.map_eq_some_iff.mp there
    exact ⟨c, here, (wf.commits here).2⟩
  refine ⟨report, t, done, wellFormed_of_settled wf settled removed, fun x => ?_, fun x => ?_, removed,
    fun x => ?_, ?_⟩
  · rw [mem_ids_iff]
    constructor
    · rintro ⟨b, d, found, inside⟩
      obtain ⟨c, here, committed⟩ := after found
      obtain ⟨old, alive⟩ := List.mem_filter.mp
        (committed.current.mem_iff.mp (Array.mem_toList_iff.mpr inside))
      exact ⟨⟨b, c, here, old⟩, alive⟩
    · rintro ⟨⟨b, c, here, old⟩, alive⟩
      have there : t.collection? b = some c.commit.2 := by
        rw [settled.collection?, here, Option.map_some]
      exact ⟨b, _, there, Array.mem_toList_iff.mp
        ((wf.commits here).2.current.mem_iff.mpr (List.mem_filter.mpr ⟨old, alive⟩))⟩
  · rintro ⟨b, d, found, inside⟩
    obtain ⟨c, here, committed⟩ := after found
    rw [committed.pending] at inside
    exact absurd inside (Array.not_mem_empty x)
  · rw [migrated, List.mem_flatMap]
    constructor
    · rintro ⟨c, member, inside⟩
      obtain ⟨pending, alive⟩ := List.mem_filter.mp inside
      obtain ⟨i, here⟩ := Array.mem_iff_getElem?.mp (Array.mem_toList_iff.mp member)
      exact ⟨⟨⟨i⟩, c, here, Array.mem_toList_iff.mp pending⟩, alive⟩
    · rintro ⟨⟨b, c, here, pending⟩, alive⟩
      exact ⟨c, Array.mem_toList_iff.mpr (Array.mem_of_getElem? here),
        List.mem_filter.mpr ⟨Array.mem_toList_iff.mpr pending, alive⟩⟩
  · -- The migrated ids are some of the stored ones, in the same order.
    rw [migrated]
    refine wf.nodup.sublist (.map _ (.flatMap_right _ fun c _ => ?_))
    exact List.filter_sublist.trans (List.sublist_append_right _ _)

end EntityWorld.Store
