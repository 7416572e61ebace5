import EntityWorld.Proofs.Archetype.Collection
import EntityWorld.Proofs.Component.Sequence

/-!
# Registered kinds

Every kind that the registry gives out has a type, so a collection can be bound to every sequence of
registered kinds.
-/
namespace EntityWorld.Registry

variable {r r' : Registry}

/-- The kinds that types have are numbered from 1 to the number of types. -/
def Sound (r : Registry) : Prop :=
  ∀ (key : Nat) (k : Kind), r.byType[key]? = some k → 1 ≤ k.index ∧ k.index ≤ r.types.size

theorem sound_empty : empty.Sound := by
  simp [Sound, empty]

theorem sound_add (sound : r.Sound) (type : StoredType) : (r.add type).Sound := by
  intro key k found
  simp only [add] at found ⊢
  rw [getElem?_insert_nat] at found
  rw [Array.size_push]
  split at found
  · cases found
    simp only
    omega
  · have := sound key k found
    omega

theorem sound_describe {limit : Nat} {types : List ComponentType} (sound : r.Sound)
    (described : describe limit r types = some r') : r'.Sound := by
  induction types generalizing r with
  | nil =>
    cases described
    exact sound
  | cons type rest ih =>
    simp only [describe] at described
    split at described
    · exact ih sound described
    next stored _ =>
      split at described
      · exact ih sound described
      · split at described
        · cases described
        · exact ih (sound_add sound stored) described

theorem sound_build {types : List ComponentType} (built : build types = .ok r) : r.Sound := by
  unfold build at built
  split at built
  next described =>
    cases built
    exact sound_describe sound_empty described
  · cases built

theorem Sound.type?_isSome (sound : r.Sound) {type : TypeId} {k : Kind}
    (found : r.kindOf? type = some k) : (r.type? k).isSome := by
  have bounds := sound type.key k found
  have valid : ¬ k.isInvalid = true := by
    simp only [Kind.isInvalid, beq_iff_eq]
    omega
  rw [type?, if_neg valid, Array.getElem?_eq_getElem (by omega)]
  rfl

theorem Sound.known_of_kindsOf (sound : r.Sound) {types : List TypeId} {kinds : List Kind}
    (found : r.kindsOf types = .ok kinds) : ∀ k ∈ kinds, (r.type? k).isSome := by
  obtain ⟨-, rfl⟩ := kindsOf_eq_ok_iff.mp found
  intro k member
  obtain ⟨type, -, named⟩ := List.mem_filterMap.mp member
  exact sound.type?_isSome named

/-- A collection can be bound to the sequence of some registered types. -/
theorem Sound.bindable (sound : r.Sound) {types : List TypeId} {sequence : Sequence}
    (found : r.sequenceOf types = .ok sequence) (nonempty : sequence.isEmpty = false) :
    ∃ c, Collection.unbound.bind r sequence = .ok c := by
  obtain ⟨known, rfl⟩ := sequenceOf_eq_ok_iff.mp found
  exact Collection.bind_of_known nonempty fun k member =>
    sound.known_of_kindsOf (kindsOf_of_known known) k (Sequence.mem_ofList.mp member)

end EntityWorld.Registry
