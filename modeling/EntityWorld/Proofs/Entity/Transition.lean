import EntityWorld.Entity.Id

/-!
# Steps of a life state

Writing a life state over itself changes nothing and writing it over another is checked, so a checked
change goes through exactly along `LifeState.Reaches`, and then it is the unchecked one.
-/
namespace EntityWorld

namespace LifeState

/-- A life state may be written over itself or over one that it is a step from. -/
def Reaches (s t : LifeState) : Prop := s = t ∨ s.canBecome t = true

instance (s t : LifeState) : Decidable (s.Reaches t) :=
  inferInstanceAs (Decidable (s = t ∨ s.canBecome t = true))

theorem ne_of_canBecome {s t : LifeState} (step : s.canBecome t = true) : s ≠ t := by
  rintro rfl
  cases s <;> cases step

end LifeState

namespace EntityId

variable {id next : EntityId} {target : LifeState}

theorem withLife_life (id : EntityId) : id.withLife id.life = id :=
  ext_fields (by simp) (by simp) (by simp)

theorem withLife_withLife (id : EntityId) (a b : LifeState) :
    (id.withLife a).withLife b = id.withLife b :=
  ext_fields (by simp) (by simp) (by simp)

theorem transition_eq (id : EntityId) (target : LifeState) : id.transition target =
    if id.life.Reaches target then .ok (id.withLife target) else .error ⟨id.life, target⟩ := by
  by_cases same : id.life = target
  · subst same
    rw [transition, if_pos rfl, if_pos (.inl rfl), withLife_life]
  · rw [transition, if_neg same]
    simp only [LifeState.Reaches, same, false_or]

theorem transition_eq_ok_iff :
    id.transition target = .ok next ↔ id.life.Reaches target ∧ next = id.withLife target := by
  rw [transition_eq]
  split
  next allowed => simp [allowed, eq_comm]
  next blocked => simp [blocked]

theorem transition_eq_error_iff {cause : IllegalTransition} : id.transition target = .error cause ↔
    ¬ id.life.Reaches target ∧ cause = ⟨id.life, target⟩ := by
  rw [transition_eq]
  split
  next allowed => simp [allowed]
  next blocked => simp [blocked, eq_comm]

theorem transition_of_canBecome (step : id.life.canBecome target = true) :
    id.transition target = .ok (id.withLife target) :=
  transition_eq_ok_iff.mpr ⟨.inr step, rfl⟩

theorem transition_of_reaches (allowed : id.life.Reaches target) :
    ∃ next, id.transition target = .ok next :=
  ⟨_, transition_eq_ok_iff.mpr ⟨allowed, rfl⟩⟩

theorem transition_of_not_reaches (blocked : ¬ id.life.Reaches target) :
    id.transition target = .error ⟨id.life, target⟩ :=
  transition_eq_error_iff.mpr ⟨blocked, rfl⟩

/-- The life state may be written, so the check of it passes. -/
theorem check_of_reaches (allowed : id.life.Reaches next.life) :
    ∃ checked, (if id.lifeDiffers next then id.transition next.life else .ok id) = .ok checked := by
  split
  · exact transition_of_reaches allowed
  · exact ⟨id, rfl⟩

theorem check_of_not_reaches (blocked : ¬ id.life.Reaches next.life) :
    (if id.lifeDiffers next then id.transition next.life else .ok id) =
      .error ⟨id.life, next.life⟩ := by
  have differs : id.lifeDiffers next = true := by
    simpa [lifeDiffers] using fun same => blocked (.inl same)
  rw [if_pos differs]
  exact transition_of_not_reaches blocked

end EntityId

end EntityWorld
