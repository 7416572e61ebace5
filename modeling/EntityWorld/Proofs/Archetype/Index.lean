import EntityWorld.Archetype.Index
import EntityWorld.Proofs.Component.Sequence
import EntityWorld.Proofs.Lists
import Mathlib.Data.List.Induction

/-!
# The index answers as a scan

A query of the index touches the rows of a few kinds; looking at the sequence of every archetype gives
the same answer, in the same order. Main statement: `find_build`.
-/
namespace EntityWorld

namespace ArchetypeIndex

variable {sequences : List Sequence} {kindCount i : Nat} {k : Kind}

/-! ### Looking at every archetype -/

/-- The sequence contains every wanted kind and no unwanted kind. -/
def matching (wanted unwanted : List Kind) (s : Sequence) : Bool :=
  wanted.all (s.kinds.contains ·) && !unwanted.any (s.kinds.contains ·)

/-- The archetypes with matching sequences, found by looking at each of them. Naming nothing finds
nothing. -/
def scan (sequences : List Sequence) (wanted unwanted : List Kind) : List ArchetypeId :=
  if wanted.isEmpty then []
  else (sequences.zipIdx.filter fun each => matching wanted unwanted each.1).map fun each => ⟨each.2⟩

theorem mem_archetypes_filter {p : Sequence → Bool} {a : ArchetypeId} :
    a ∈ ((sequences.zipIdx.filter fun each => p each.1).map fun each => (⟨each.2⟩ : ArchetypeId)) ↔
      ∃ s, sequences[a.index]? = some s ∧ p s = true := by
  obtain ⟨i⟩ := a
  simp only [List.mem_map, List.mem_filter, Prod.exists, List.mem_zipIdx_iff_getElem?]
  constructor
  · rintro ⟨s, j, both, same⟩
    cases same
    exact ⟨s, both⟩
  · rintro ⟨s, both⟩
    exact ⟨s, i, both, rfl⟩

/-- Archetypes chosen by their sequences are in the order of discovery. -/
theorem pairwise_archetypes_filter (p : Sequence → Bool) (sequences : List Sequence) :
    ((sequences.zipIdx.filter fun each => p each.1).map
      fun each => (⟨each.2⟩ : ArchetypeId)).Pairwise fun a b => a.index < b.index := by
  have ordered : sequences.zipIdx.Pairwise fun a b => a.2 < b.2 := by
    rw [← List.pairwise_map (f := Prod.snd) (R := (· < ·)), List.zipIdx_map_snd]
    exact List.pairwise_lt_range'
  exact List.pairwise_map.mpr (ordered.sublist List.filter_sublist)

/-- The entries of the archetypes that contain a kind. -/
def listing (sequences : List Sequence) (k : Kind) : List IndexEntry :=
  sequences.zipIdx.filterMap fun (s, i) => if k ∈ s.kinds then entryOf? ⟨i⟩ s else none

/-- The archetypes in discovery order, as the index is built from them. -/
def numbered (sequences : List Sequence) : List (ArchetypeId × Sequence) :=
  sequences.zipIdx.map fun (s, i) => (⟨i⟩, s)

theorem numbered_concat (sequences : List Sequence) (s : Sequence) :
    numbered (sequences ++ [s]) = numbered sequences ++ [(⟨sequences.length⟩, s)] := by
  simp [numbered, List.zipIdx_append]

theorem build_concat (sequences : List Sequence) (s : Sequence) (kindCount : Nat) :
    build kindCount (numbered (sequences ++ [s])) =
      (build kindCount (numbered sequences)).add ⟨sequences.length⟩ s := by
  simp only [build, numbered_concat, List.foldl_append, List.foldl_cons, List.foldl_nil]

theorem listing_concat (sequences : List Sequence) (s : Sequence) (k : Kind) :
    listing (sequences ++ [s]) k =
      listing sequences k ++ if k ∈ s.kinds then (entryOf? ⟨sequences.length⟩ s).toList else [] := by
  simp only [listing, List.zipIdx_append, List.filterMap_append, Nat.zero_add]
  refine congrArg _ ?_
  by_cases member : k ∈ s.kinds
  · cases entry : entryOf? ⟨sequences.length⟩ s <;> simp [member, entry]
  · simp [member]

theorem exists_entry {a : ArchetypeId} {s : Sequence} (member : k ∈ s.kinds) :
    ∃ lowest highest, s.min? = some lowest ∧ s.max? = some highest ∧
      entryOf? a s = some ⟨a, s.size, lowest, highest⟩ := by
  have nonempty : s.kinds ≠ [] := List.ne_nil_of_mem member
  have first : s.min? = some (s.kinds.head nonempty) := List.head?_eq_some_head nonempty
  have last : s.max? = some (s.kinds.getLast nonempty) := List.getLast?_eq_some_getLast nonempty
  exact ⟨_, _, first, last, by simp only [entryOf?, first, last]⟩

/-! ### What the table holds -/

/-- Changing the places of some kinds, one after another. -/
theorem getElem?_foldl_modify {α : Type} (change : α → α) (kinds : List Kind) (distinct : kinds.Nodup)
    (table : Array α) (k : Kind) :
    (kinds.foldl (fun table kind => table.modify kind.index change) table)[k.index]? =
      (table[k.index]?).map fun row => if k ∈ kinds then change row else row := by
  induction kinds generalizing table with
  | nil => simp
  | cons kind rest ih =>
    obtain ⟨fresh, distinct⟩ := List.nodup_cons.mp distinct
    rw [List.foldl_cons, ih distinct, Array.getElem?_modify]
    by_cases same : kind.index = k.index
    · obtain rfl := Kind.ext_index same
      simp only [if_true, Option.map_map, List.mem_cons, true_or, fresh, if_false]
      rfl
    · have other : k ≠ kind := fun equal => same (by rw [equal])
      simp [same, other]

/-- The row of a kind lists the archetypes that contain it. -/
theorem getElem?_build (sequences : List Sequence) (kindCount : Nat) (k : Kind) :
    (build kindCount (numbered sequences)).byKind[k.index]? =
      if k.index ≤ kindCount then some (listing sequences k) else none := by
  induction sequences using List.reverseRecOn with
  | nil =>
    simp only [build, numbered, listing, List.zipIdx_nil, List.map_nil, List.foldl_nil,
      List.filterMap_nil, Array.getElem?_replicate, Nat.lt_succ_iff]
  | append_singleton sequences s ih =>
    rw [build_concat, listing_concat, add]
    by_cases nonempty : s.kinds = []
    · -- An archetype without kinds is listed nowhere.
      have none : entryOf? ⟨sequences.length⟩ s = none := by
        simp [entryOf?, Sequence.min?, nonempty]
      simp only [none, ih, nonempty, List.not_mem_nil, if_false, List.append_nil]
    · obtain ⟨head, rest, same⟩ := List.exists_cons_of_ne_nil nonempty
      obtain ⟨lowest, highest, -, -, entry⟩ := exists_entry (a := ⟨sequences.length⟩) (s := s)
        (k := head) (by simp [same])
      simp only [entry, getElem?_foldl_modify _ s.kinds s.nodup_kinds, ih]
      by_cases below : k.index ≤ kindCount
      · by_cases member : k ∈ s.kinds <;> simp [below, member]
      · simp [below]

theorem archetypeCount_build (sequences : List Sequence) (kindCount : Nat) :
    (build kindCount (numbered sequences)).archetypeCount = sequences.length := by
  induction sequences using List.reverseRecOn with
  | nil => rfl
  | append_singleton sequences s ih =>
    rw [build_concat, add]
    split <;> simp [ih]

/-- Kinds are numbered from 1. -/
def Within (kindCount : Nat) (k : Kind) : Prop := 1 ≤ k.index ∧ k.index ≤ kindCount

theorem entries?_build (sequences : List Sequence) (kindCount : Nat) (k : Kind) :
    (build kindCount (numbered sequences)).entries? k =
      if 1 ≤ k.index ∧ k.index ≤ kindCount then some (listing sequences k) else none := by
  unfold entries?
  by_cases invalid : k.index = 0
  · simp [Kind.isInvalid, invalid]
  · have positive : 1 ≤ k.index := Nat.one_le_iff_ne_zero.mpr invalid
    rw [if_neg (by simpa [Kind.isInvalid] using invalid), getElem?_build]
    simp [positive]

/-- Nobody contains a kind without a row. -/
theorem entriesOf_build (within : ∀ s ∈ sequences, ∀ k ∈ s.kinds, Within kindCount k) (k : Kind) :
    ((build kindCount (numbered sequences)).entries? k).getD [] = listing sequences k := by
  rw [entries?_build]
  split
  · rfl
  next outside =>
    symm
    refine List.filterMap_eq_nil_iff.mpr ?_
    rintro ⟨s, i⟩ member
    exact if_neg fun inside =>
      outside (within s (List.mem_of_getElem? (List.mem_zipIdx_iff_getElem?.mp member)) k inside)

/-! ### Counting -/

/-- Each of some entries counts for its archetype, if it counts. -/
theorem getElem?_foldl_count (counts : IndexEntry → Bool) (entries : List IndexEntry)
    (hits : Array Nat) (i : Nat) :
    (entries.foldl (fun hits entry =>
        if counts entry then hits.modify entry.archetype.index (· + 1) else hits) hits)[i]? =
      (hits[i]?).map (· + entries.countP fun entry => counts entry && entry.archetype.index == i) := by
  induction entries generalizing hits with
  | nil => simp
  | cons entry rest ih =>
    rw [List.foldl_cons, ih, List.countP_cons]
    by_cases counted : counts entry = true
    · rw [if_pos counted, Array.getElem?_modify]
      by_cases same : entry.archetype.index = i
      · cases hits[i]? with
        | none => simp [same]
        | some n =>
          simp [same, counted, Nat.add_comm, Nat.add_assoc]
      · simp [same, counted]
    · simp [counted]

theorem archetype_of_entryOf? {a : ArchetypeId} {s : Sequence} {entry : IndexEntry}
    (made : entryOf? a s = some entry) : entry.archetype = a := by
  unfold entryOf? at made
  split at made
  · cases made
    rfl
  · cases made

theorem mem_listing {entry : IndexEntry} : entry ∈ listing sequences k ↔
    ∃ i s, sequences[i]? = some s ∧ k ∈ s.kinds ∧ entryOf? ⟨i⟩ s = some entry := by
  simp only [listing, List.mem_filterMap, Prod.exists, List.mem_zipIdx_iff_getElem?]
  constructor
  · rintro ⟨s, i, here, made⟩
    split at made
    next member => exact ⟨i, s, here, member, made⟩
    next => cases made
  · rintro ⟨i, s, here, member, made⟩
    exact ⟨s, i, here, by rw [if_pos member, made]⟩

/-- A kind lists each archetype that contains it once. -/
theorem countP_listing {s : Sequence} (counts : IndexEntry → Bool) (k : Kind)
    (here : sequences[i]? = some s) :
    (listing sequences k).countP (fun entry => counts entry && entry.archetype.index == i) =
      if k ∈ s.kinds ∧ (entryOf? ⟨i⟩ s).any counts then 1 else 0 := by
  induction sequences using List.reverseRecOn with
  | nil => simp at here
  | append_singleton sequences last ih =>
    rw [listing_concat, List.countP_append]
    by_cases earlier : i < sequences.length
    · rw [List.getElem?_append_left earlier] at here
      rw [ih here, Nat.add_eq_left, List.countP_eq_zero]
      intro entry member counted
      split at member
      next =>
        have same := archetype_of_entryOf? (Option.mem_toList.mp member)
        simp only [same, Bool.and_eq_true, beq_iff_eq] at counted
        exact Nat.lt_irrefl _ (counted.2 ▸ earlier)
      next => cases member
    · -- This is the last archetype, and those before it have other handles.
      obtain rfl : i = sequences.length := by
        obtain ⟨inside, -⟩ := List.getElem?_eq_some_iff.mp here
        rw [List.length_append, List.length_singleton] at inside
        omega
      obtain rfl : last = s := by simpa using here
      have before : (listing sequences k).countP
          (fun entry => counts entry && entry.archetype.index == sequences.length) = 0 := by
        refine List.countP_eq_zero.mpr fun entry member counted => ?_
        obtain ⟨j, t, there, -, made⟩ := mem_listing.mp member
        obtain ⟨inside, -⟩ := List.getElem?_eq_some_iff.mp there
        simp only [archetype_of_entryOf? made, Bool.and_eq_true, beq_iff_eq] at counted
        exact Nat.lt_irrefl _ (counted.2 ▸ inside)
      rw [before, Nat.zero_add]
      by_cases member : k ∈ last.kinds
      · obtain ⟨lowest, highest, -, -, entry⟩ := exists_entry (a := ⟨sequences.length⟩) member
        simp [member, entry]
      · simp [member]

/-- The same for the entries under some kinds, if none of them lists an archetype twice. -/
theorem getElem?_foldl_foldl_count (counts : IndexEntry → Bool) (entries : Kind → List IndexEntry)
    (lists : Kind → Bool)
    (once : ∀ k, (entries k).countP (fun entry => counts entry && entry.archetype.index == i) =
      if lists k then 1 else 0) (kinds : List Kind) (hits : Array Nat) :
    (kinds.foldl (fun hits kind => (entries kind).foldl (fun hits entry =>
        if counts entry then hits.modify entry.archetype.index (· + 1) else hits) hits) hits)[i]? =
      (hits[i]?).map (· + kinds.countP lists) := by
  induction kinds generalizing hits with
  | nil => simp
  | cons k rest ih =>
    rw [List.foldl_cons, ih, getElem?_foldl_count, once, Option.map_map, List.countP_cons]
    refine congrArg (Option.map · _) (funext fun n => ?_)
    simp only [Function.comp_apply]
    omega

/-- What turns most archetypes away before they are counted. -/
def passes (wanted : Sequence) (lowest highest : Kind) (entry : IndexEntry) : Bool :=
  wanted.size ≤ entry.kindCount ∧ entry.minKind ≤ lowest ∧ highest ≤ entry.maxKind

/-- How often an archetype is hit: once for each wanted kind that it contains, unless its size or its
bounds turn it away. -/
theorem getElem?_countHits {s : Sequence} (wanted : Sequence) (lowest highest : Kind)
    (within : ∀ s ∈ sequences, ∀ k ∈ s.kinds, Within kindCount k) (here : sequences[i]? = some s) :
    ((build kindCount (numbered sequences)).countHits wanted lowest highest)[i]? =
      some (wanted.kinds.countP fun k =>
        k ∈ s.kinds ∧ (entryOf? ⟨i⟩ s).any (passes wanted lowest highest)) := by
  obtain ⟨inside, -⟩ := List.getElem?_eq_some_iff.mp here
  have counted := getElem?_foldl_foldl_count (i := i) (passes wanted lowest highest)
    (fun k => ((build kindCount (numbered sequences)).entries? k).getD [])
    (fun k => k ∈ s.kinds ∧ (entryOf? ⟨i⟩ s).any (passes wanted lowest highest))
    (fun k => by simp only [entriesOf_build within, countP_listing _ k here, decide_eq_true_iff])
    wanted.kinds (Array.replicate (build kindCount (numbered sequences)).archetypeCount 0)
  simp only [passes, decide_eq_true_iff] at counted
  simp only [countHits]
  refine counted.trans ?_
  simp [archetypeCount_build, inside]

/-- An archetype is hit by every wanted kind exactly if it contains all of them. -/
theorem countHits_eq_iff {s wanted : Sequence} {lowest highest : Kind}
    (within : ∀ s ∈ sequences, ∀ k ∈ s.kinds, Within kindCount k) (here : sequences[i]? = some s)
    (first : wanted.min? = some lowest) (last : wanted.max? = some highest) :
    ((build kindCount (numbered sequences)).countHits wanted lowest highest)[i]? = some wanted.size ↔
      ∀ k ∈ wanted.kinds, k ∈ s.kinds := by
  rw [getElem?_countHits wanted lowest highest within here, Option.some.injEq, Sequence.size,
    List.countP_eq_length]
  simp only [decide_eq_true_iff]
  refine ⟨fun all k member => (all k member).1, fun all k member => ⟨all k member, ?_⟩⟩
  obtain ⟨low, high, first', last', entry⟩ := exists_entry (a := ⟨i⟩) (all k member)
  rw [entry, Option.any_some]
  exact decide_eq_true (Sequence.bounds_of_subset all first last first' last')

/-! ### Marking -/

theorem getElem?_foldl_mark (entries : List IndexEntry) (marks : Array Bool) (i : Nat) :
    (entries.foldl (fun marks entry => marks.modify entry.archetype.index fun _ => true) marks)[i]? =
      (marks[i]?).map (· || entries.any fun entry => entry.archetype.index == i) := by
  induction entries generalizing marks with
  | nil => simp
  | cons entry rest ih =>
    rw [List.foldl_cons, ih, Array.getElem?_modify, List.any_cons]
    by_cases same : entry.archetype.index = i
    · cases marks[i]? <;> simp [same]
    · simp [beq_false_of_ne same, same]

theorem getElem?_foldl_foldl_mark (entries : Kind → List IndexEntry) (kinds : List Kind)
    (marks : Array Bool) (i : Nat) :
    (kinds.foldl (fun marks kind => (entries kind).foldl (fun marks entry =>
        marks.modify entry.archetype.index fun _ => true) marks) marks)[i]? =
      (marks[i]?).map (· || kinds.any fun k =>
        (entries k).any fun entry => entry.archetype.index == i) := by
  induction kinds generalizing marks with
  | nil => simp
  | cons k rest ih =>
    rw [List.foldl_cons, ih, getElem?_foldl_mark, Option.map_map, List.any_cons]
    refine congrArg (Option.map · _) (funext fun marked => ?_)
    rw [Function.comp_apply, Bool.or_assoc]

theorem any_listing {s : Sequence} (k : Kind) (here : sequences[i]? = some s) :
    ((listing sequences k).any fun entry => entry.archetype.index == i) = s.kinds.contains k := by
  refine Bool.eq_iff_iff.mpr ?_
  simp only [List.any_eq_true, mem_listing, beq_iff_eq, List.contains_iff_mem]
  constructor
  · rintro ⟨entry, ⟨j, t, there, member, made⟩, same⟩
    rw [archetype_of_entryOf? made] at same
    subst same
    obtain rfl := Option.some.inj (here.symm.trans there)
    exact member
  · intro member
    obtain ⟨lowest, highest, -, -, entry⟩ := exists_entry (a := ⟨i⟩) member
    exact ⟨_, ⟨i, s, here, member, entry⟩, rfl⟩

/-- Marked are the archetypes that contain an unwanted kind. -/
theorem getElem?_markExcluded {s : Sequence} (unwanted : List Kind)
    (within : ∀ s ∈ sequences, ∀ k ∈ s.kinds, Within kindCount k) (here : sequences[i]? = some s) :
    ((build kindCount (numbered sequences)).markExcluded unwanted)[i]? =
      some (unwanted.any (s.kinds.contains ·)) := by
  obtain ⟨inside, -⟩ := List.getElem?_eq_some_iff.mp here
  have marked := getElem?_foldl_foldl_mark
    (fun k => ((build kindCount (numbered sequences)).entries? k).getD []) unwanted
    (Array.replicate (build kindCount (numbered sequences)).archetypeCount false) i
  simp only [entriesOf_build within, any_listing _ here] at marked
  refine Eq.trans ?_ (marked.trans ?_)
  · simp only [markExcluded, ← entriesOf_build within]
    rfl
  · simp [archetypeCount_build, inside]

/-! ### Queries -/

theorem map_archetype_listing (sequences : List Sequence) (k : Kind) :
    (listing sequences k).map IndexEntry.archetype =
      (sequences.zipIdx.filter fun each => k ∈ each.1.kinds).map fun each => ⟨each.2⟩ := by
  rw [listing, List.map_filterMap, ← List.filterMap_eq_map, List.filterMap_filter]
  refine List.filterMap_congr fun each _ => ?_
  by_cases member : k ∈ each.1.kinds
  · obtain ⟨lowest, highest, -, -, entry⟩ := exists_entry (a := ⟨each.2⟩) member
    simp [member, entry]
  · simp [member]

theorem matching_iff {wanted unwanted : List Kind} {s : Sequence} : matching wanted unwanted s = true ↔
    (∀ k ∈ wanted, k ∈ s.kinds) ∧ ∀ k ∈ unwanted, k ∉ s.kinds := by
  simp [matching]

/-- A query of the index answers as a look at every archetype. -/
theorem find_build (within : ∀ s ∈ sequences, ∀ k ∈ s.kinds, Within kindCount k)
    (wanted unwanted : List Kind) :
    (build kindCount (numbered sequences)).find wanted unwanted = scan sequences wanted unwanted := by
  have member (k : Kind) : k ∈ (Sequence.ofList wanted).kinds ↔ k ∈ wanted := Sequence.mem_normalize
  cases wanted with
  | nil => rfl
  | cons k rest =>
    have nonempty : (Sequence.ofList (k :: rest)).kinds ≠ [] :=
      List.ne_nil_of_mem ((member k).mpr List.mem_cons_self)
    obtain ⟨lowest, first⟩ : ∃ lowest, (Sequence.ofList (k :: rest)).min? = some lowest :=
      ⟨_, List.head?_eq_some_head nonempty⟩
    obtain ⟨highest, last⟩ : ∃ highest, (Sequence.ofList (k :: rest)).max? = some highest :=
      ⟨_, List.getLast?_eq_some_getLast nonempty⟩
    simp only [find, first, last, scan, List.isEmpty_cons, Bool.false_eq_true, if_false]
    split
    next unknown =>
      -- Nobody contains a kind without a row.
      obtain ⟨other, there, absent⟩ := List.any_eq_true.mp unknown
      rw [entries?_build] at absent
      symm
      refine List.map_eq_nil_iff.mpr (List.filter_eq_nil_iff.mpr ?_)
      rintro ⟨s, i⟩ listed matches_
      have inside := (matching_iff.mp matches_).1 other ((member other).mp there)
      have known := within s (List.mem_of_getElem? (List.mem_zipIdx_iff_getElem?.mp listed)) other inside
      rw [if_pos ⟨known.1, known.2⟩] at absent
      cases absent
    next known =>
      change (((((build kindCount (numbered sequences)).entries? lowest).getD []).map
        IndexEntry.archetype).filter _) = _
      rw [entriesOf_build within, map_archetype_listing, List.filter_map, List.filter_filter]
      refine congrArg _ (List.filter_congr fun each listed => Bool.eq_iff_iff.mpr ?_)
      obtain ⟨s, i⟩ := each
      have here : sequences[i]? = some s := List.mem_zipIdx_iff_getElem?.mp listed
      simp only [Function.comp_apply, getElem?_markExcluded unwanted within here, Bool.and_eq_true,
        decide_eq_true_iff, countHits_eq_iff within here first last, matching_iff, member]
      simp only [Option.some.injEq, List.any_eq_false, List.contains_iff_mem]
      constructor
      · rintro ⟨⟨all, none⟩, -⟩
        exact ⟨all, none⟩
      · rintro ⟨all, none⟩
        exact ⟨⟨all, none⟩, all lowest ((member lowest).mp (Sequence.min_mem first))⟩

end ArchetypeIndex

end EntityWorld
