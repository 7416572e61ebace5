import EntityWorld.Fence.Scheduler
import EntityWorld.Proofs.Lists

/-!
# The order of fences

Whatever fences are asked for, the order begins with Register, and Register and Unregister are in it
once. Main statement: `Scheduler.planned_finalize`.
-/
namespace EntityWorld

variable {r : FenceRequest} {order order' : List FenceId}

/-- A request that `Scheduler.refusal?` lets through, as far as the built-in fences go. -/
structure FenceRequest.Fair (r : FenceRequest) : Prop where
  foreign : r.fence.isBuiltin = false
  inside : ¬ (r.anchor = .before ∧ r.target = .register)

/-- The first fence is Register, and neither Register nor Unregister comes again. -/
structure Planned (order : List FenceId) : Prop where
  first : order.head? = some .register
  register : order.count .register = 1
  unregister : order.count .unregister = 1

theorem Planned.mem (planned : Planned order) :
    FenceId.register ∈ order ∧ FenceId.unregister ∈ order := by
  rw [← List.count_pos_iff, ← List.count_pos_iff, planned.register, planned.unregister]
  exact ⟨Nat.one_pos, Nat.one_pos⟩

/-- A fence that is in the order once does not come again. -/
theorem not_mem_of_suffix {fence : FenceId} {left : List FenceId} (once : order.count fence = 1)
    (suffix : fence :: left <:+ order) : fence ∉ left := by
  intro again
  have count := suffix.sublist.count_le fence
  rw [List.count_cons_self, once] at count
  have := List.count_pos_iff.mpr again
  omega

/-- When Unregister is next, Register has passed. -/
theorem Planned.register_not_mem {left : List FenceId} (planned : Planned order)
    (suffix : .unregister :: left <:+ order) : FenceId.register ∉ FenceId.unregister :: left := by
  cases order with
  | nil => cases List.suffix_nil.mp suffix
  | cons first rest =>
    obtain rfl : first = .register := Option.some.inj planned.first
    rcases List.suffix_cons_iff.mp suffix with whole | later
    · exact absurd (List.head_eq_of_cons_eq whole) (by decide)
    · intro again
      exact not_mem_of_suffix planned.register (List.suffix_refl _) (later.subset again)

theorem planned_builtins : Planned FenceId.builtins where
  first := rfl
  register := by decide
  unregister := by decide

namespace FenceRequest

theorem perm_of_placeIn? (placed : r.placeIn? order = some order') :
    order'.Perm (r.fence :: order) := by
  induction order generalizing order' with
  | nil => cases placed
  | cons head rest ih =>
    simp only [placeIn?] at placed
    split at placed
    · split at placed
      all_goals cases placed
      · exact .refl _
      · exact .swap r.fence head rest
    · obtain ⟨rest', inner, rfl⟩ := Option.map_eq_some_iff.mp placed
      exact ((ih inner).cons head).trans (.swap r.fence head rest)

theorem head?_of_placeIn? (fair : r.Fair) (first : order.head? = some .register)
    (placed : r.placeIn? order = some order') : order'.head? = some .register := by
  cases order with
  | nil => cases placed
  | cons head rest =>
    obtain rfl : head = .register := Option.some.inj first
    simp only [placeIn?] at placed
    split at placed
    next target =>
      split at placed
      next before => exact absurd ⟨before, target.symm⟩ fair.inside
      next =>
        cases placed
        rfl
    next =>
      obtain ⟨rest', inner, rfl⟩ := Option.map_eq_some_iff.mp placed
      rfl

end FenceRequest

theorem Planned.placeIn? (planned : Planned order) (fair : r.Fair)
    (placed : r.placeIn? order = some order') : Planned order' := by
  have perm := FenceRequest.perm_of_placeIn? placed
  -- The new fence is none of the built-in ones, so these are counted as before.
  have same {f : FenceId} (builtin : f.isBuiltin = true) : order'.count f = order.count f := by
    rw [perm.count_eq, List.count_cons_of_ne]
    rintro rfl
    rw [fair.foreign] at builtin
    cases builtin
  exact ⟨FenceRequest.head?_of_placeIn? fair planned.first placed,
    by rw [same (by decide), planned.register], by rw [same (by decide), planned.unregister]⟩

theorem Planned.placePass {requests : List FenceRequest} (fair : ∀ r ∈ requests, r.Fair)
    (planned : Planned order) :
    Planned (placePass order requests).1 ∧ ∀ r ∈ (EntityWorld.placePass order requests).2, r.Fair := by
  induction requests generalizing order with
  | nil => exact ⟨planned, nofun⟩
  | cons r rest ih =>
    have fairRest : ∀ r ∈ rest, r.Fair := fun r member => fair r (List.mem_cons_of_mem _ member)
    simp only [EntityWorld.placePass]
    split
    next order' placed => exact ih fairRest (planned.placeIn? (fair r List.mem_cons_self) placed)
    next =>
      obtain ⟨planned', fairLeft⟩ := ih fairRest planned
      refine ⟨planned', fun other member => ?_⟩
      rcases List.mem_cons.mp member with rfl | later
      · exact fair other List.mem_cons_self
      · exact fairLeft other later

theorem Planned.placeAll {requests : List FenceRequest} (fuel : Nat) (fair : ∀ r ∈ requests, r.Fair)
    (planned : Planned order) : Planned (placeAll fuel order requests).1 := by
  induction fuel generalizing order requests with
  | zero => exact planned
  | succ fuel ih =>
    have pass := planned.placePass fair
    simp only [EntityWorld.placeAll]
    cases outcome : EntityWorld.placePass order requests with
    | mk order' left =>
      rw [outcome] at pass
      cases left with
      | nil => exact pass.1
      | cons r rest =>
        simp only
        split
        · exact pass.1
        · exact ih pass.2 pass.1

theorem planned_fenceOrder {requests : List FenceRequest} (fair : ∀ r ∈ requests, r.Fair)
    (placed : fenceOrder requests = .ok order) : Planned order := by
  have all := planned_builtins.placeAll requests.length fair
  unfold fenceOrder at placed
  split at placed
  next order' outcome =>
    rw [outcome] at all
    split at placed
    · cases placed
    · cases placed
      exact all
  next => cases placed

namespace Scheduler

variable {σ : Type} {s : Scheduler σ}

theorem fair_of_refusal? (accepted : s.refusal? r = none) : r.Fair := by
  unfold refusal? at accepted
  split at accepted
  · cases accepted
  · split at accepted
    · cases accepted
    next known =>
      split at accepted
      · cases accepted
      next inside =>
        refine ⟨?_, inside⟩
        simp only [Bool.or_eq_true, not_or] at known
        exact Bool.eq_false_iff.mpr known.1

/-- A request is refused or it is fair. -/
theorem fair_request (fair : ∀ r ∈ s.requests, r.Fair) (r : FenceRequest) :
    ∀ other ∈ (s.request r).2.requests, other.Fair := by
  unfold request
  split
  · exact fair
  · split
    · exact fair
    next accepted =>
      intro other member
      rcases List.mem_append.mp member with old | new
      · exact fair other old
      · rw [List.mem_singleton.mp new]
        exact fair_of_refusal? accepted

theorem order_mk_empty (s : Scheduler σ) (order : List FenceId) (phase : Phase) :
    ({ s with requests := [], fences := order.map Fence.empty, phase } : Scheduler σ).order =
      order := by
  rw [Scheduler.order, List.map_map]
  exact List.map_id order

/-- The order that is frozen is a good one, and updates are accepted from then on. -/
theorem planned_finalize {scheduler : Scheduler σ} (fair : ∀ r ∈ s.requests, r.Fair)
    (frozen : s.finalize.value = (.ok (), scheduler)) :
    Planned scheduler.order ∧ scheduler.phase = .acceptingUpdates := by
  unfold finalize at frozen
  split at frozen
  · cases frozen
  · simp only [Logged.value_within] at frozen
    split at frozen
    next cause failed =>
      exfalso
      split at frozen <;> cases frozen
    next order placed =>
      cases frozen
      refine ⟨?_, rfl⟩
      rw [order_mk_empty]
      exact planned_fenceOrder fair placed

theorem exists_fence? {fence : FenceId} (member : fence ∈ s.order) :
    ∃ slot, s.fence? fence = some slot := by
  obtain ⟨f, inside, same⟩ := List.mem_map.mp member
  exact Option.isSome_iff_exists.mp (List.find?_isSome.mpr ⟨f, inside, by simpa using same⟩)

/-! ### After that the order stays -/

/-- The same fences in the same order, and the same phase. -/
structure SamePlan (s t : Scheduler σ) : Prop where
  order : t.order = s.order
  phase : t.phase = s.phase

theorem SamePlan.trans {s t u : Scheduler σ} (first : SamePlan s t) (second : SamePlan t u) :
    SamePlan s u :=
  ⟨second.order.trans first.order, second.phase.trans first.phase⟩

/-- Whatever changes at a fence, the fence stays where it is. -/
theorem samePlan_modify (s : Scheduler σ) (place : Nat) (change : Fence σ → Fence σ)
    (same : ∀ f, (change f).id = f.id) :
    SamePlan s { s with fences := s.fences.modify place change } where
  order := map_modify_of_eq same s.fences place
  phase := rfl

theorem samePlan_modifyFence (s : Scheduler σ) (fence : FenceId) (change : Fence σ → Fence σ)
    (same : ∀ f, (change f).id = f.id) : SamePlan s (s.modifyFence fence change) := by
  unfold Scheduler.modifyFence
  split
  · exact ⟨rfl, rfl⟩
  next place _ => exact samePlan_modify s place change same

theorem samePlan_spend (s : Scheduler σ) (fence : FenceId) : SamePlan s (s.spend fence) :=
  samePlan_modifyFence s fence _ fun _ => rfl

theorem samePlan_discardOneShots (s : Scheduler σ) : SamePlan s s.discardOneShots.2 where
  order := by
    simp only [discardOneShots, order, List.map_map]
    rfl
  phase := rfl

theorem openDeclarations_eq {scheduler : Scheduler σ}
    (opened : s.openDeclarations = (.ok (), scheduler)) :
    scheduler = { s with phase := .acceptingUpdates } := by
  unfold openDeclarations at opened
  split at opened
  · cases opened
  · cases opened
    rfl

theorem openDeclarations_spec {scheduler : Scheduler σ}
    (opened : s.openDeclarations = (.ok (), scheduler)) :
    scheduler.order = s.order ∧ scheduler.phase = .acceptingUpdates := by
  rw [openDeclarations_eq opened]
  exact ⟨rfl, rfl⟩

theorem beginPass_spec {scheduler : Scheduler σ} {frame : Nat}
    (begun : s.beginPass = (.ok frame, scheduler)) :
    scheduler.order = s.order ∧ scheduler.phase = .running := by
  unfold beginPass at begun
  split at begun
  · cases begun
  · cases begun
    exact ⟨rfl, rfl⟩

theorem frame_of_beginPass {scheduler : Scheduler σ} {frame : Nat}
    (begun : s.beginPass = (.ok frame, scheduler)) : scheduler.frame = frame := by
  unfold beginPass at begun
  split at begun
  · cases begun
  · cases begun
    rfl

theorem openDeclarations_of_phase (phase : s.phase = .acceptingUpdates ∨ s.phase = .steady) :
    ∃ scheduler, s.openDeclarations = (.ok (), scheduler) := by
  have allowed : s.expectPhase [.acceptingUpdates, .steady] "open_declarations" = .ok () :=
    if_pos (by simpa using phase)
  simp only [openDeclarations, allowed]
  exact ⟨_, rfl⟩

theorem beginPass_of_phase (phase : s.phase = .acceptingUpdates) :
    ∃ frame scheduler, s.beginPass = (.ok frame, scheduler) := by
  have allowed : s.expectPhase [.acceptingUpdates, .steady] "begin_pass" = .ok () :=
    if_pos (by simp [phase])
  simp only [beginPass, allowed]
  exact ⟨_, _, rfl⟩

theorem order_endPass (s : Scheduler σ) : s.endPass.order = s.order := by
  unfold endPass
  split <;> rfl

end Scheduler

end EntityWorld
