import EntityWorld.Proofs.Archetype.Generation
import EntityWorld.Proofs.Component.Registry
import EntityWorld.Proofs.Fence.LockTable

/-!
# Numbers of kinds

A registry numbers the types that were described as concrete, in the order of their first concrete
description, and each number belongs to one type. There is no registry only where the numbers do not
suffice. Main statement: `numbered_of_build`.
-/
namespace EntityWorld

/-- The concrete descriptions, in their order. -/
def concretes (types : List ComponentType) : List StoredType := types.filterMap ComponentType.stored?

/-- The types that are described as concrete, each where this happens first. -/
def firstTypes (types : List ComponentType) : List TypeId :=
  ((concretes types).map StoredType.id).eraseDups

theorem concretes_append (types more : List ComponentType) :
    concretes (types ++ more) = concretes types ++ concretes more := List.filterMap_append

/-- More descriptions come after those there were. -/
theorem prefix_firstTypes (types more : List ComponentType) :
    firstTypes types <+: firstTypes (types ++ more) := by
  rw [firstTypes, firstTypes, concretes_append, List.map_append, List.eraseDups_append]
  exact List.prefix_append _ _

theorem TypeId.key_inj {a b : TypeId} : a.key = b.key ↔ a = b := by
  cases a
  cases b
  simp

theorem ComponentType.isAbstract_iff (t : ComponentType) : t.isAbstract = true ↔ t.stored? = none := by
  simp [isAbstract, stored?]

theorem ComponentType.id_of_stored? {t : ComponentType} {stored : StoredType}
    (concrete : t.stored? = some stored) : stored.id = t.id := by
  obtain ⟨row, -, rfl⟩ := Option.map_eq_some_iff.mp concrete
  rfl

namespace Registry

variable {r r' : Registry} {types : List ComponentType} {seen : List StoredType}
  {stored : StoredType} {type : TypeId} {kind : Kind} {limit : Nat}

/-! ### Counting -/

/-- A set of keys stands for these types. -/
structure Gathers (keys : Std.TreeMap Nat Unit) (ids : List TypeId) : Prop where
  size : keys.size = ids.eraseDups.length
  members : ∀ id : TypeId, keys.contains id.key = true ↔ id ∈ ids

theorem Gathers.insert {keys : Std.TreeMap Nat Unit} {ids : List TypeId} (gathers : Gathers keys ids)
    (id : TypeId) : Gathers (keys.insert id.key ()) (ids ++ [id]) where
  size := by
    rw [Std.TreeMap.size_insert, eraseDups_concat, gathers.size]
    simp only [gathers.members]
    split
    · rfl
    · rw [List.length_append, List.length_singleton]
  members := by
    intro other
    rw [Std.TreeMap.contains_insert, Bool.or_eq_true, beq_iff_eq, Nat.compare_eq_eq, TypeId.key_inj,
      gathers.members, List.mem_append, List.mem_singleton, or_comm, @eq_comm _ id]

theorem distinctConcrete_eq (types : List ComponentType) :
    distinctConcrete types = (firstTypes types).length := by
  have gathered (types : List ComponentType) (keys : Std.TreeMap Nat Unit) (ids : List TypeId)
      (gathers : Gathers keys ids) :
      Gathers (types.foldl (fun seen type =>
        if type.isAbstract then seen else seen.insert type.id.key ()) keys)
        (ids ++ (concretes types).map StoredType.id) := by
    induction types generalizing keys ids with
    | nil => simpa [concretes] using gathers
    | cons type rest ih =>
      rw [List.foldl_cons]
      cases concrete : type.stored? with
      | none =>
        rw [concretes, List.filterMap_cons_none concrete, if_pos (type.isAbstract_iff.mpr concrete)]
        exact ih keys ids gathers
      | some stored =>
        have notAbstract : ¬ type.isAbstract = true := by
          simp [type.isAbstract_iff, concrete]
        rw [concretes, List.filterMap_cons_some concrete, if_neg notAbstract, List.map_cons,
          List.append_cons, ComponentType.id_of_stored? concrete]
        exact ih _ _ (gathers.insert type.id)
  have none : Gathers ∅ [] := ⟨rfl, by simp⟩
  exact (gathered types ∅ [] none).size

/-! ### One description after another -/

/-- What a registry has numbered after these concrete descriptions. -/
structure Numbers (seen : List StoredType) (r : Registry) : Prop where
  order : r.types.toList.map StoredType.id = (seen.map StoredType.id).eraseDups
  first : ∀ stored ∈ r.types, seen.find? (fun other => other.id = stored.id) = some stored
  kinds : ∀ type kind, r.kindOf? type = some kind ↔
    1 ≤ kind.index ∧ (r.types.toList.map StoredType.id)[kind.index - 1]? = some type

theorem numbers_empty : Numbers [] empty where
  order := rfl
  first := by simp [empty]
  kinds := by simp [empty, kindOf?]

namespace Numbers

variable (numbers : Numbers seen r)
include numbers

theorem isSome_kindOf?_iff : (r.kindOf? type).isSome ↔ type ∈ seen.map StoredType.id := by
  rw [← List.mem_eraseDups, ← numbers.order, Option.isSome_iff_exists, List.mem_iff_getElem?]
  simp only [numbers.kinds]
  constructor
  · rintro ⟨kind, -, found⟩
    exact ⟨_, found⟩
  · rintro ⟨place, found⟩
    exact ⟨⟨place + 1⟩, Nat.le_add_left 1 place, found⟩

theorem kindCount_eq : r.kindCount = (seen.map StoredType.id).eraseDups.length := by
  rw [← numbers.order]
  simp [kindCount]

/-- A type that has a number keeps it, and its first description. -/
theorem skip (known : stored.id ∈ seen.map StoredType.id) : Numbers (seen ++ [stored]) r where
  order := by
    rw [List.map_append, List.map_singleton, eraseDups_concat, if_pos known, numbers.order]
  first other member := by
    rw [List.find?_append, numbers.first other member]
    rfl
  kinds := numbers.kinds

/-- A new type gets the next number. -/
theorem add (fresh : stored.id ∉ seen.map StoredType.id) : Numbers (seen ++ [stored]) (r.add stored) where
  order := by
    rw [List.map_append, List.map_singleton, eraseDups_concat, if_neg fresh, ← numbers.order]
    simp [Registry.add]
  first other member := by
    rw [List.find?_append]
    rcases Array.mem_push.mp member with old | rfl
    · rw [numbers.first other old]
      rfl
    · have unseen : seen.find? (fun earlier => earlier.id = other.id) = none := by
        rw [List.find?_eq_none]
        intro earlier there same
        exact fresh (List.mem_map.mpr ⟨earlier, there, by simpa using same⟩)
      simp [unseen]
  kinds := by
    intro type kind
    have size : r.types.size = (r.types.toList.map StoredType.id).length := by simp
    have types : (r.add stored).types.toList.map StoredType.id =
        r.types.toList.map StoredType.id ++ [stored.id] := by
      simp [Registry.add]
    have unnumbered : r.kindOf? stored.id = none := by
      rw [← Option.not_isSome_iff_eq_none, numbers.isSome_kindOf?_iff]
      exact fresh
    have known := numbers.kinds type kind
    rw [types, getElem?_concat_eq_some_iff, ← size]
    rw [kindOf?, Registry.add, getElem?_insert_nat]
    by_cases same : stored.id = type
    · -- The type had no number, so its only place is the last one.
      subst same
      rw [unnumbered] at known
      rw [if_pos rfl]
      constructor
      · rintro ⟨⟩
        exact ⟨Nat.le_add_left 1 _, .inr ⟨Nat.add_sub_cancel _ 1, rfl⟩⟩
      · rintro ⟨positive, old | ⟨last, -⟩⟩
        · exact absurd (known.mpr ⟨positive, old⟩) (by simp)
        · exact congrArg some (Kind.ext_index (by simp only; omega))
    · rw [if_neg fun equal => same (TypeId.key_inj.mp equal), ← kindOf?, known]
      simp [same]

end Numbers

/-- Either all descriptions are taken in, or there are too many different ones. -/
theorem describe_spec (types : List ComponentType) (numbers : Numbers seen r)
    (room : r.kindCount ≤ limit) :
    (∃ r', describe limit r types = some r' ∧ Numbers (seen ++ concretes types) r' ∧
        r'.kindCount ≤ limit) ∨
      describe limit r types = none ∧
        limit < ((seen ++ concretes types).map StoredType.id).eraseDups.length := by
  induction types generalizing seen r with
  | nil => exact .inl ⟨r, rfl, by simpa [concretes] using numbers, room⟩
  | cons type rest ih =>
    simp only [describe]
    cases concrete : type.stored? with
    | none =>
      rw [concretes, List.filterMap_cons_none concrete]
      exact ih numbers room
    | some stored =>
      rw [concretes, List.filterMap_cons_some concrete, List.append_cons, ← concretes]
      simp only [numbers.isSome_kindOf?_iff]
      by_cases known : stored.id ∈ seen.map StoredType.id
      · rw [if_pos known]
        exact ih (numbers.skip known) room
      · have added := numbers.add known
        have count : (r.add stored).kindCount = r.kindCount + 1 := by simp [kindCount, Registry.add]
        rw [if_neg known]
        by_cases full : r.kindCount = limit
        · rw [if_pos full]
          refine .inr ⟨rfl, ?_⟩
          rw [List.map_append, List.eraseDups_append, List.length_append, ← added.kindCount_eq]
          omega
        · rw [if_neg full]
          exact ih added (by omega)

theorem build_spec (types : List ComponentType) :
    (∃ r, build types = .ok r ∧ Numbers (concretes types) r ∧ r.kindCount ≤ maxKinds) ∨
      build types = .error (.tooManyKinds (firstTypes types).length maxKinds) ∧
        maxKinds < (firstTypes types).length := by
  have spec := describe_spec types numbers_empty (Nat.zero_le maxKinds)
  rw [List.nil_append] at spec
  rcases spec with ⟨r, described, numbers, bounded⟩ | ⟨failed, many⟩
  · exact .inl ⟨r, by simp only [build, described], numbers, bounded⟩
  · exact .inr ⟨by simp only [build, failed, distinctConcrete_eq], many⟩

theorem numbers_of_build (built : build types = .ok r) : Numbers (concretes types) r := by
  rcases build_spec types with ⟨other, same, numbers, -⟩ | ⟨failed, -⟩
  · rw [built] at same
    cases same
    exact numbers
  · rw [built] at failed
    cases failed

/-! ### What a number stands for -/

theorem contains_iff : r.contains kind = true ↔ 1 ≤ kind.index ∧ kind.index ≤ r.kindCount := by
  simp [contains, Kind.isInvalid, Nat.one_le_iff_ne_zero]

theorem type?_eq_some_iff :
    r.type? kind = some stored ↔ 1 ≤ kind.index ∧ r.types[kind.index - 1]? = some stored := by
  unfold type?
  split
  next invalid =>
    have zero : kind.index = 0 := by simpa [Kind.isInvalid] using invalid
    simp [zero]
  next valid =>
    have positive : 1 ≤ kind.index := by
      simpa [Kind.isInvalid, Nat.one_le_iff_ne_zero] using valid
    simp [positive]

theorem isSome_type?_iff : (r.type? kind).isSome ↔ r.contains kind = true := by
  rw [Option.isSome_iff_exists, contains_iff]
  simp only [type?_eq_some_iff, kindCount]
  constructor
  · rintro ⟨stored, positive, found⟩
    obtain ⟨inside, -⟩ := Array.getElem?_eq_some_iff.mp found
    exact ⟨positive, by omega⟩
  · rintro ⟨positive, within⟩
    exact ⟨_, positive, Array.getElem?_eq_getElem (by omega)⟩

theorem exists_createColumn_iff :
    (∃ column, r.createColumn kind = .ok column) ↔ r.contains kind = true := by
  rw [← isSome_type?_iff]
  cases found : r.type? kind <;> simp [createColumn, found]

/-! ### Every list of descriptions -/

/-- What the registry of some descriptions answers. -/
structure Numbered (types : List ComponentType) (r : Registry) : Prop where
  -- The number of a type is its place among the types, counted from 1.
  numbers : ∀ type kind, r.kindOf? type = some kind ↔
    1 ≤ kind.index ∧ (firstTypes types)[kind.index - 1]? = some type
  inverse : ∀ type kind, r.kindOf? type = some kind ↔
    ∃ stored, r.type? kind = some stored ∧ stored.id = type
  first : ∀ kind stored, r.type? kind = some stored →
    (concretes types).find? (fun other => other.id = stored.id) = some stored
  contains : ∀ kind, r.contains kind = true ↔
    1 ≤ kind.index ∧ kind.index ≤ (firstTypes types).length
  known : ∀ kind, (r.type? kind).isSome ↔ r.contains kind = true
  column : ∀ kind, (∃ column, r.createColumn kind = .ok column) ↔ r.contains kind = true
  -- A lock on a kind is counted in a slot that counts no other.
  slot : ∀ kind, r.contains kind = true → ∀ side other l,
    ((LockTable.ofSize r.lockSlots).raise side kind).count other l =
      if side = other ∧ kind = l then 1 else 0
  kept : ∀ more r', build (types ++ more) = .ok r' → ∀ type kind,
    r.kindOf? type = some kind → r'.kindOf? type = some kind

/-- A number that was given out is kept when more types are described. -/
theorem Numbers.kept {more : List ComponentType} (numbers : Numbers (concretes types) r)
    (later : Numbers (concretes (types ++ more)) r') (found : r.kindOf? type = some kind) :
    r'.kindOf? type = some kind := by
  obtain ⟨positive, here⟩ := (numbers.kinds type kind).mp found
  obtain ⟨rest, order⟩ := prefix_firstTypes types more
  refine (later.kinds type kind).mpr ⟨positive, ?_⟩
  rw [numbers.order, ← firstTypes] at here
  obtain ⟨inside, -⟩ := List.getElem?_eq_some_iff.mp here
  rw [later.order, ← firstTypes, ← order, List.getElem?_append_left inside]
  exact here

theorem Numbers.numbered (numbers : Numbers (concretes types) r) : Numbered types r where
  numbers type kind := by
    rw [numbers.kinds, numbers.order]
    rfl
  inverse type kind := by
    rw [numbers.kinds]
    simp [type?_eq_some_iff, and_assoc]
  first kind stored found :=
    numbers.first stored (Array.mem_of_getElem? (type?_eq_some_iff.mp found).2)
  contains kind := by
    rw [contains_iff, numbers.kindCount_eq]
    rfl
  known _ := isSome_type?_iff
  column _ := exists_createColumn_iff
  slot kind inside side other l := by
    have slots : kind.index < (LockTable.ofSize r.lockSlots).size := by
      have := contains_iff.mp inside
      simp only [LockTable.size, LockTable.ofSize, Array.size_replicate, lockSlots]
      omega
    rw [LockTable.count_raise slots, LockTable.count_ofSize, Nat.zero_add]
  kept more r' built type kind := numbers.kept (numbers_of_build built)

/-- A registry is built exactly if there are numbers for all types that are described as concrete, and
then it numbers them; otherwise the error says how many there are. -/
theorem numbered_of_build (types : List ComponentType) :
    ((∃ r, build types = .ok r) ↔ (firstTypes types).length ≤ maxKinds) ∧
      (∀ r, build types = .ok r → Numbered types r) ∧
      (maxKinds < (firstTypes types).length →
        build types = .error (.tooManyKinds (firstTypes types).length maxKinds)) := by
  refine ⟨?_, fun r built => (numbers_of_build built).numbered, fun many => ?_⟩
  · rcases build_spec types with ⟨r, built, numbers, bounded⟩ | ⟨failed, many⟩
    · refine iff_of_true ⟨r, built⟩ ?_
      rwa [firstTypes, ← numbers.kindCount_eq]
    · refine iff_of_false ?_ (Nat.not_le_of_lt many)
      rintro ⟨r, built⟩
      rw [built] at failed
      cases failed
  · rcases build_spec types with ⟨r, -, numbers, bounded⟩ | ⟨failed, -⟩
    · rw [numbers.kindCount_eq] at bounded
      exact absurd bounded (Nat.not_le_of_lt many)
    · exact failed

/-- Concrete types with the keys below a bound. -/
def concreteTypes (size : Nat) : List ComponentType :=
  (List.range size).map fun key => .concrete ⟨⟨key⟩, "", []⟩

theorem firstTypes_concreteTypes (size : Nat) :
    firstTypes (concreteTypes size) = (List.range size).map TypeId.mk := by
  have ids : (concretes (concreteTypes size)).map StoredType.id = (List.range size).map TypeId.mk := by
    rw [concretes, concreteTypes, List.filterMap_map, List.map_filterMap, ← List.filterMap_eq_map]
    rfl
  rw [firstTypes, ids]
  exact eraseDups_of_nodup (List.nodup_range.map fun _ _ => TypeId.mk.inj)

/-- There are numbers for as many types as a registry can have, and an abstract one needs none. One
more concrete type is too many. -/
theorem numbered_of_concreteTypes :
    (∃ r, build (concreteTypes 65535 ++ [⟨⟨65535⟩, "", none⟩]) = .ok r ∧
        Numbered (concreteTypes 65535 ++ [⟨⟨65535⟩, "", none⟩]) r) ∧
      build (concreteTypes 65536) = .error (.tooManyKinds 65536 65535) := by
  have size (size : Nat) : (firstTypes (concreteTypes size)).length = size := by
    rw [firstTypes_concreteTypes, List.length_map, List.length_range]
  have abstracted : firstTypes (concreteTypes 65535 ++ [⟨⟨65535⟩, "", none⟩]) =
      firstTypes (concreteTypes 65535) := by
    rw [firstTypes, concretes_append]
    exact congrArg (fun seen => (seen.map StoredType.id).eraseDups) (List.append_nil _)
  constructor
  · obtain ⟨succeeds, numbered, -⟩ := numbered_of_build (concreteTypes 65535 ++ [⟨⟨65535⟩, "", none⟩])
    have full := (congrArg List.length abstracted).trans (size 65535)
    obtain ⟨r, built⟩ := succeeds.mpr (Nat.le_of_eq full)
    exact ⟨r, built, numbered r built⟩
  · obtain ⟨-, -, fails⟩ := numbered_of_build (concreteTypes 65536)
    rw [size] at fails
    exact fails (by decide)

end Registry

end EntityWorld
