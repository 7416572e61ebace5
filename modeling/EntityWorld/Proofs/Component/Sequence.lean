import EntityWorld.Component.Registry
import Mathlib.Data.List.Destutter
import Mathlib.Data.List.Nodup
import Mathlib.Data.List.Perm.Subperm

/-!
# Sequences as sets

A sequence is the one ascending list of its kinds, so lists of the same kinds give the same sequence,
and a kind has one position in it. Sorting and a binary search come to the same as inserting kinds in
order and looking through them. The sequence of some types is that of their kinds, and the first type
without a kind stands in its way. Main statement: `canonical_of_lists`.
-/
namespace EntityWorld

namespace Sequence

variable {s t : Sequence} {k lowest highest : Kind} {ids others : List Kind} {i : Nat}

theorem nodup_kinds (s : Sequence) : s.kinds.Nodup :=
  s.ascending.imp fun below same => by
    rw [same] at below
    exact Nat.lt_irrefl _ below

/-- A sequence is the one ascending list of its kinds. -/
theorem eq_of_mem_iff (same : ∀ k, k ∈ s.kinds ↔ k ∈ t.kinds) : s = t := by
  have perm : s.kinds.Perm t.kinds :=
    (List.perm_ext_iff_of_nodup s.nodup_kinds t.nodup_kinds).mpr same
  obtain ⟨kinds, ascending⟩ := s
  obtain ⟨kinds', ascending'⟩ := t
  obtain rfl : kinds = kinds' :=
    perm.eq_of_pairwise (fun _ _ _ _ below above => absurd below (Nat.lt_asymm above)) ascending
      ascending'
  rfl

theorem mem_ofList : k ∈ (ofList ids).kinds ↔ k ∈ ids := mem_normalize

theorem ofList_eq_iff : ofList ids = ofList others ↔ ∀ k, k ∈ ids ↔ k ∈ others := by
  constructor
  · intro same k
    rw [← mem_ofList, same, mem_ofList]
  · intro same
    refine eq_of_mem_iff fun k => ?_
    rw [mem_ofList, mem_ofList, same]

/-- Two kinds of which neither is above the other are one. -/
theorem eq_of_le_of_le (below : k ≤ lowest) (above : lowest ≤ k) : k = lowest :=
  Kind.ext_index (Nat.le_antisymm below above)

/-! ### Sorting -/

/-- Dropping repeats from a sorted list leaves every kind once, in ascending order. -/
theorem destutter_of_sorted {sorted : List Kind} (perm : sorted.Perm ids)
    (ordered : sorted.Pairwise (· ≤ ·)) : sorted.destutter (· ≠ ·) = (ofList ids).kinds := by
  have antisymm : Std.Antisymm (α := Kind) (· ≤ ·) := ⟨fun _ _ => eq_of_le_of_le⟩
  have same : sorted.dedup.Perm (ofList ids).kinds := by
    refine (List.perm_ext_iff_of_nodup sorted.nodup_dedup (ofList ids).nodup_kinds).mpr fun k => ?_
    rw [List.mem_dedup, perm.mem_iff, mem_ofList]
  rw [ordered.destutter_eq_dedup]
  exact same.eq_of_pairwise (fun _ _ _ _ => eq_of_le_of_le) (ordered.sublist sorted.dedup_sublist)
    ((ofList ids).ascending.imp Nat.le_of_lt)

/-- Inserting kinds one by one comes to the same as sorting them and dropping repeats. -/
theorem kinds_ofList (ids : List Kind) :
    (ofList ids).kinds = (ids.mergeSort fun a b => a ≤ b).destutter (· ≠ ·) := by
  have ordered : (ids.mergeSort fun a b => a ≤ b).Pairwise fun a b => decide (a ≤ b) = true := by
    apply List.pairwise_mergeSort
    · intro a b c first second
      exact decide_eq_true (Nat.le_trans (of_decide_eq_true first) (of_decide_eq_true second))
    · intro a b
      simpa only [Bool.or_eq_true, decide_eq_true_eq, Kind.le_iff] using Nat.le_total a.index b.index
  exact (destutter_of_sorted (List.mergeSort_perm ids _) (ordered.imp of_decide_eq_true)).symm

/-! ### The ends -/

theorem min_le (first : s.min? = some lowest) (member : k ∈ s.kinds) : lowest ≤ k := by
  obtain ⟨rest, same⟩ := List.head?_eq_some_iff.mp first
  have ascending := s.ascending
  rw [same] at member ascending
  rcases List.mem_cons.mp member with rfl | later
  · exact Nat.le_refl _
  · exact Nat.le_of_lt ((List.pairwise_cons.mp ascending).1 k later)

theorem le_max (last : s.max? = some highest) (member : k ∈ s.kinds) : k ≤ highest := by
  obtain ⟨rest, same⟩ := List.getLast?_eq_some_iff.mp last
  have ascending := s.ascending
  rw [same] at member ascending
  rcases List.mem_append.mp member with earlier | final
  · exact Nat.le_of_lt ((List.pairwise_append.mp ascending).2.2 k earlier highest
      (List.mem_singleton_self _))
  · rw [List.mem_singleton.mp final]
    exact Nat.le_refl _

theorem min_mem (first : s.min? = some lowest) : lowest ∈ s.kinds := List.mem_of_head? first

theorem max_mem (last : s.max? = some highest) : highest ∈ s.kinds := List.mem_of_getLast? last

theorem min?_eq_some_iff : s.min? = some k ↔ k ∈ s.kinds ∧ ∀ l ∈ s.kinds, k ≤ l := by
  refine ⟨fun first => ⟨min_mem first, fun l member => min_le first member⟩, ?_⟩
  rintro ⟨member, least⟩
  cases first : s.min? with
  | none => simp [List.head?_eq_none_iff.mp first] at member
  | some lowest =>
    rw [eq_of_le_of_le (least lowest (min_mem first)) (min_le first member)]

theorem max?_eq_some_iff : s.max? = some k ↔ k ∈ s.kinds ∧ ∀ l ∈ s.kinds, l ≤ k := by
  refine ⟨fun last => ⟨max_mem last, fun l member => le_max last member⟩, ?_⟩
  rintro ⟨member, greatest⟩
  cases last : s.max? with
  | none => simp [List.getLast?_eq_none_iff.mp last] at member
  | some highest =>
    rw [eq_of_le_of_le (le_max last member) (greatest highest (max_mem last))]

/-- A sequence that contains another is as long and reaches as far. -/
theorem bounds_of_subset {low high : Kind} (inside : s.kinds ⊆ t.kinds) (first : s.min? = some lowest)
    (last : s.max? = some highest) (first' : t.min? = some low) (last' : t.max? = some high) :
    s.size ≤ t.size ∧ low ≤ lowest ∧ highest ≤ high :=
  ⟨(List.subperm_of_subset s.nodup_kinds inside).length_le, min_le first' (inside (min_mem first)),
    le_max last' (inside (max_mem last))⟩

/-! ### Positions -/

/-- No kind has two places, so the first one found is the one there is. -/
theorem position?_eq_some_iff : s.position? k = some i ↔ s.kinds[i]? = some k := by
  simp only [position?, List.findIdx?_eq_some_iff_getElem, List.getElem?_eq_some_iff,
    decide_eq_true_eq]
  constructor
  · rintro ⟨inside, here, -⟩
    exact ⟨inside, here⟩
  · rintro ⟨inside, here⟩
    refine ⟨inside, here, fun j before there => ?_⟩
    have place : j = i := s.nodup_kinds.getElem_inj_iff.mp (there.trans here.symm)
    exact Nat.ne_of_lt before place

theorem position?_eq_none_iff : s.position? k = none ↔ k ∉ s.kinds := by
  simp only [position?, List.findIdx?_eq_none_iff, decide_eq_false_iff_not]
  exact ⟨fun apart member => apart k member rfl, fun absent l member same => absent (same ▸ member)⟩

theorem lt_of_lt {j : Nat} (first : s.kinds[i]? = some lowest) (second : s.kinds[j]? = some highest)
    (before : i < j) : lowest < highest := by
  obtain ⟨_, rfl⟩ := List.getElem?_eq_some_iff.mp first
  obtain ⟨_, rfl⟩ := List.getElem?_eq_some_iff.mp second
  exact List.pairwise_iff_getElem.mp s.ascending _ _ _ _ before

/-- Halves a window of places until one is left, which is where the kind is if it is anywhere. -/
def narrow (s : Sequence) (k : Kind) (base size : Nat) : Nat :=
  if 1 < size then
    let half := size / 2
    match s.kinds[base + half]? with
    | some middle =>
      if k < middle then narrow s k base (size - half)
      else narrow s k (base + half) (size - half)
    | none => base
  else base
termination_by size

/-- Binary search for a kind. -/
def search? (s : Sequence) (k : Kind) : Option Nat :=
  let place := s.narrow k 0 s.size
  if s.kinds[place]? = some k then some place else none

/-- The kind stays in the window. -/
theorem narrow_eq {base size : Nat} (here : s.kinds[i]? = some k) (after : base ≤ i)
    (before : i < base + size) (inside : base + size ≤ s.size) : s.narrow k base size = i := by
  fun_induction narrow s k base size with
  | case1 base size more half middle there below ih =>
    refine ih after ?_ (by omega)
    -- From the middle on, kinds are above it.
    by_contra beyond
    rcases Nat.eq_or_lt_of_le (show base + half ≤ i by omega) with rfl | later
    · obtain rfl := Option.some.inj (here.symm.trans there)
      exact Nat.lt_irrefl _ below
    · exact Nat.lt_asymm below (lt_of_lt there here later)
  | case2 base size more half middle there above ih =>
    refine ih ?_ (by omega) (by omega)
    by_contra earlier
    exact above (lt_of_lt here there (Nat.lt_of_not_le earlier))
  | case3 base size more half outside =>
    have short : s.size ≤ base + half := List.getElem?_eq_none_iff.mp outside
    omega
  | case4 base size one => omega

/-- The one kind that is left to look at is the only one that can be the one looked for. -/
theorem search?_eq (s : Sequence) (k : Kind) : s.search? k = s.position? k := by
  cases found : s.position? k with
  | some i =>
    have here := position?_eq_some_iff.mp found
    have inside : i < s.size := (List.getElem?_eq_some_iff.mp here).1
    have place : s.narrow k 0 s.size = i := narrow_eq here (Nat.zero_le i) (by omega) (by omega)
    simp only [search?, place, here, if_pos]
  | none =>
    have absent := position?_eq_none_iff.mp found
    exact if_neg fun here => absent (List.mem_of_getElem? here)

/-! ### Lists of kinds -/

/-- The normal form of a list of kinds. -/
structure Canonical (ids : List Kind) (s : Sequence) : Prop where
  ascending : s.kinds.Pairwise (· < ·)
  mem : ∀ k, k ∈ s.kinds ↔ k ∈ ids
  -- It is what sorting the list and dropping repeats gives, and halving finds a kind in it.
  sorted : s.kinds = (ids.mergeSort fun a b => a ≤ b).destutter (· ≠ ·)
  searched : ∀ k, s.search? k = s.position? k
  position : ∀ k i, s.position? k = some i ↔ s.kinds[i]? = some k
  absent : ∀ k, s.position? k = none ↔ k ∉ ids
  least : ∀ k, s.min? = some k ↔ k ∈ ids ∧ ∀ l ∈ ids, k ≤ l
  greatest : ∀ k, s.max? = some k ↔ k ∈ ids ∧ ∀ l ∈ ids, l ≤ k
  ends : (s.min? = none ↔ ids = []) ∧ (s.max? = none ↔ ids = [])

theorem canonical_ofList (ids : List Kind) : Canonical ids (ofList ids) where
  ascending := (ofList ids).ascending
  mem _ := mem_ofList
  sorted := kinds_ofList ids
  searched := (ofList ids).search?_eq
  position _ _ := position?_eq_some_iff
  absent k := by rw [position?_eq_none_iff, mem_ofList]
  least k := by simp only [min?_eq_some_iff, mem_ofList]
  greatest k := by simp only [max?_eq_some_iff, mem_ofList]
  ends := by
    have empty : (ofList ids).kinds = [] ↔ ids = [] := by
      simp only [List.eq_nil_iff_forall_not_mem, mem_ofList]
    exact ⟨List.head?_eq_none_iff.trans empty, List.getLast?_eq_none_iff.trans empty⟩

end Sequence

/-! ### Lists of types -/

namespace Registry

variable {r : Registry} {types others : List TypeId} {type : TypeId} {kind : Kind}

/-- The first of these types that has no kind. -/
def firstUnknown (r : Registry) (types : List TypeId) : Option TypeId :=
  types.find? fun type => (r.kindOf? type).isNone

theorem firstUnknown_eq_none_iff : r.firstUnknown types = none ↔
    ∀ type ∈ types, (r.kindOf? type).isSome := by
  simp [firstUnknown, Option.isSome_iff_ne_none]

theorem kindsOf_of_known (known : r.firstUnknown types = none) :
    r.kindsOf types = .ok (types.filterMap r.kindOf?) := by
  induction types with
  | nil => rfl
  | cons type rest ih =>
    simp only [firstUnknown_eq_none_iff, List.forall_mem_cons] at known ih
    obtain ⟨kind, found⟩ := Option.isSome_iff_exists.mp known.1
    rw [kindsOf, found, List.filterMap_cons_some found, ih known.2]
    rfl

theorem kindsOf_of_unknown (unknown : r.firstUnknown types = some type) :
    r.kindsOf types = .error (.unknownType type) := by
  induction types with
  | nil => cases unknown
  | cons head rest ih =>
    rw [firstUnknown, List.find?_cons] at unknown
    cases found : r.kindOf? head with
    | none =>
      simp only [found, Option.isNone_none, Option.some.injEq] at unknown
      rw [kindsOf, found, unknown]
    | some kind =>
      simp only [found, Option.isNone_some] at unknown
      rw [kindsOf, found, ih unknown]
      rfl

theorem kindsOf_eq_ok_iff {kinds : List Kind} : r.kindsOf types = .ok kinds ↔
    r.firstUnknown types = none ∧ kinds = types.filterMap r.kindOf? := by
  cases unknown : r.firstUnknown types with
  | none => simp [kindsOf_of_known unknown, eq_comm]
  | some type => simp [kindsOf_of_unknown unknown]

theorem kindsOf_eq_error_iff {cause : RegistryError} : r.kindsOf types = .error cause ↔
    ∃ type, r.firstUnknown types = some type ∧ cause = .unknownType type := by
  cases unknown : r.firstUnknown types with
  | none => simp [kindsOf_of_known unknown]
  | some type => simp [kindsOf_of_unknown unknown, eq_comm]

theorem sequenceOf_eq_ok_iff {s : Sequence} : r.sequenceOf types = .ok s ↔
    r.firstUnknown types = none ∧ s = .ofList (types.filterMap r.kindOf?) := by
  cases unknown : r.firstUnknown types with
  | none => simp [sequenceOf, kindsOf_of_known unknown, Except.map, eq_comm]
  | some type => simp [sequenceOf, kindsOf_of_unknown unknown, Except.map]

theorem sequenceOf_eq_error_iff {cause : RegistryError} :
    r.sequenceOf types = .error cause ↔ r.kindsOf types = .error cause := by
  cases found : r.kindsOf types <;> simp [sequenceOf, found, Except.map]

/-- The sequence of some types, or why there is none. -/
structure Sequences (r : Registry) (types : List TypeId) : Prop where
  succeeds : (∃ s, r.sequenceOf types = .ok s) ↔ ∀ type ∈ types, (r.kindOf? type).isSome
  kinds : ∀ s, r.sequenceOf types = .ok s →
    ∀ k, k ∈ s.kinds ↔ ∃ type ∈ types, r.kindOf? type = some k
  -- Neither the order of the types nor how often one is listed matters.
  same : ∀ others, (∀ type, type ∈ types ↔ type ∈ others) →
    ∀ s, r.sequenceOf types = .ok s → r.sequenceOf others = .ok s
  refused : ∀ cause, r.sequenceOf types = .error cause ↔
    ∃ type, r.firstUnknown types = some type ∧ cause = .unknownType type

theorem sequences_of_types (r : Registry) (types : List TypeId) : r.Sequences types where
  succeeds := by
    simp only [sequenceOf_eq_ok_iff, exists_and_left, exists_eq, and_true]
    exact firstUnknown_eq_none_iff
  kinds s found k := by
    obtain ⟨-, rfl⟩ := sequenceOf_eq_ok_iff.mp found
    rw [Sequence.mem_ofList, List.mem_filterMap]
  same others equal s found := by
    obtain ⟨known, rfl⟩ := sequenceOf_eq_ok_iff.mp found
    rw [firstUnknown_eq_none_iff] at known
    refine sequenceOf_eq_ok_iff.mpr ⟨?_, ?_⟩
    · exact firstUnknown_eq_none_iff.mpr fun type member => known type ((equal type).mpr member)
    · rw [Sequence.ofList_eq_iff]
      simp only [List.mem_filterMap, equal, implies_true]
  refused _ := sequenceOf_eq_error_iff.trans kindsOf_eq_error_iff

end Registry

/-- A list of kinds has one normal form, which only its set of kinds decides; so does a list of types. -/
theorem Sequence.canonical_of_lists (r : Registry) :
    (∀ ids, Canonical ids (ofList ids)) ∧
      (∀ ids others, ofList ids = ofList others ↔ ∀ k, k ∈ ids ↔ k ∈ others) ∧
      ∀ types, r.Sequences types :=
  ⟨canonical_ofList, fun _ _ => ofList_eq_iff, r.sequences_of_types⟩

end EntityWorld
