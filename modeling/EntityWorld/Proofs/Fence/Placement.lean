import EntityWorld.Proofs.Fence.Order
import Mathlib.Data.List.Nodup

/-!
# Placing the requested fences

The loop of passes without the bound on how many there are, what a pass places and leaves, and what
fences are asked for before the order is frozen. Main statements: `settles_placeAll`,
`Settles.unknown`, `Scheduler.registering_spec`.
-/
namespace EntityWorld

variable {r : FenceRequest} {order order' : List FenceId}
  {requests placed left : List FenceRequest}

/-! ### One request -/

namespace FenceRequest

theorem placeIn?_eq_none_iff : r.placeIn? order = none ↔ r.target ∉ order := by
  induction order with
  | nil => simp [placeIn?]
  | cons head rest ih =>
    simp only [placeIn?]
    split
    next target => cases r.anchor <;> simp [target]
    next other => simp [ih, Ne.symm other]

theorem target_mem_of_placeIn? (placed : r.placeIn? order = some order') : r.target ∈ order := by
  refine Classical.not_not.mp fun absent => ?_
  cases (placeIn?_eq_none_iff.mpr absent).symm.trans placed

/-- The fence is somewhere on the side of its target that was asked for. -/
def OnSide (r : FenceRequest) (order : List FenceId) : Prop :=
  match r.anchor with
  | .before => [r.fence, r.target].Sublist order
  | .after => [r.target, r.fence].Sublist order

theorem OnSide.mono (side : r.OnSide order) (grown : order.Sublist order') : r.OnSide order' := by
  unfold OnSide at side ⊢
  split at side
  all_goals exact side.trans grown

theorem OnSide.mem (side : r.OnSide order) : r.fence ∈ order ∧ r.target ∈ order := by
  unfold OnSide at side
  split at side
  all_goals exact ⟨side.subset (by simp), side.subset (by simp)⟩

theorem sublist_of_placeIn? (placed : r.placeIn? order = some order') : order.Sublist order' := by
  induction order generalizing order' with
  | nil => cases placed
  | cons head rest ih =>
    simp only [placeIn?] at placed
    split at placed
    · split at placed
      all_goals cases placed
      · exact List.sublist_cons_self r.fence _
      · exact (List.sublist_cons_self r.fence rest).cons_cons head
    · obtain ⟨rest', inner, rfl⟩ := Option.map_eq_some_iff.mp placed
      exact (ih inner).cons_cons head

theorem onSide_of_placeIn? (placed : r.placeIn? order = some order') : r.OnSide order' := by
  induction order generalizing order' with
  | nil => cases placed
  | cons head rest ih =>
    simp only [placeIn?] at placed
    split at placed
    next target =>
      subst target
      cases anchor : r.anchor with
      | before =>
        simp only [anchor] at placed
        cases placed
        simp [OnSide, anchor]
      | after =>
        simp only [anchor] at placed
        cases placed
        simp [OnSide, anchor]
    next =>
      obtain ⟨rest', inner, rfl⟩ := Option.map_eq_some_iff.mp placed
      exact (ih inner).mono (List.sublist_cons_self head rest')

/-- As no fence comes twice, which of two comes first can be told from their places. -/
theorem idxOf?_lt_of_sublist {f g : FenceId} (distinct : order.Nodup)
    (both : [f, g].Sublist order) :
    ∃ i j, order.idxOf? f = some i ∧ order.idxOf? g = some j ∧ i < j := by
  induction order with
  | nil => cases both
  | cons head rest ih =>
    obtain ⟨fresh, distinct⟩ := List.nodup_cons.mp distinct
    have other {fence : FenceId} (later : fence ∈ rest) : (head == fence) = false := by
      rw [beq_eq_false_iff_ne]
      rintro rfl
      exact fresh later
    cases both with
    | cons _ inner =>
      obtain ⟨i, j, hi, hj, less⟩ := ih distinct inner
      have hf := other (inner.subset List.mem_cons_self)
      have hg := other (inner.subset (List.mem_cons_of_mem _ List.mem_cons_self))
      exact ⟨i + 1, j + 1, by simp [List.idxOf?_cons, hf, hi], by simp [List.idxOf?_cons, hg, hj],
        by omega⟩
    | cons_cons _ inner =>
      have later : g ∈ rest := List.singleton_sublist.mp inner
      obtain ⟨j, hj⟩ := Option.isSome_iff_exists.mp (List.isSome_idxOf?.mpr later)
      exact ⟨0, j + 1, by simp [List.idxOf?_cons], by simp [List.idxOf?_cons, other later, hj],
        by omega⟩

theorem isHonoured_of_onSide (distinct : order.Nodup) (side : r.OnSide order) :
    r.isHonoured order = true := by
  unfold OnSide at side
  unfold isHonoured
  split at side
  next before =>
    obtain ⟨i, j, hi, hj, less⟩ := idxOf?_lt_of_sublist distinct side
    simp [before, hi, hj, less]
  next after =>
    obtain ⟨i, j, hi, hj, less⟩ := idxOf?_lt_of_sublist distinct side
    simp [after, hi, hj, less]

end FenceRequest

/-! ### One pass -/

/-- A pass over the requests, which in the order they were made are placed or left. -/
inductive Pass : List FenceId → List FenceRequest → List FenceRequest → List FenceRequest →
    List FenceId → Prop
  | done {order : List FenceId} : Pass order [] [] [] order
  | placed {order next order' : List FenceId} {r : FenceRequest}
      {requests placed left : List FenceRequest} (place : r.placeIn? order = some next)
      (rest : Pass next requests placed left order') :
      Pass order (r :: requests) (r :: placed) left order'
  | left {order order' : List FenceId} {r : FenceRequest}
      {requests placed left : List FenceRequest} (unknown : r.target ∉ order)
      (rest : Pass order requests placed left order') :
      Pass order (r :: requests) placed (r :: left) order'

theorem pass_placePass (order : List FenceId) (requests : List FenceRequest) :
    ∃ placed, Pass order requests placed (placePass order requests).2
      (placePass order requests).1 := by
  induction requests generalizing order with
  | nil => exact ⟨[], .done⟩
  | cons r rest ih =>
    simp only [placePass]
    split
    next next place =>
      obtain ⟨placed, pass⟩ := ih next
      exact ⟨r :: placed, .placed place pass⟩
    next unplaced =>
      obtain ⟨placed, pass⟩ := ih order
      exact ⟨placed, .left (FenceRequest.placeIn?_eq_none_iff.mp unplaced) pass⟩

namespace Pass

theorem perm (pass : Pass order requests placed left order') : (placed ++ left).Perm requests := by
  induction pass with
  | done => exact .refl _
  | placed _ _ ih => exact ih.cons _
  | left _ _ ih => exact List.perm_middle.trans (ih.cons _)

theorem sublist_left (pass : Pass order requests placed left order') : left.Sublist requests := by
  induction pass with
  | done => exact .refl _
  | placed _ _ ih => exact ih.cons _
  | left _ _ ih => exact ih.cons_cons _

theorem sublist_placed (pass : Pass order requests placed left order') :
    placed.Sublist requests := by
  induction pass with
  | done => exact .refl _
  | placed _ _ ih => exact ih.cons_cons _
  | left _ _ ih => exact ih.cons _

theorem sublist_order (pass : Pass order requests placed left order') : order.Sublist order' := by
  induction pass with
  | done => exact .refl _
  | placed place _ ih => exact (FenceRequest.sublist_of_placeIn? place).trans ih
  | left _ _ ih => exact ih

theorem perm_order (pass : Pass order requests placed left order') :
    order'.Perm (order ++ placed.map FenceRequest.fence) := by
  induction pass with
  | done => simp
  | placed place _ ih =>
    refine ih.trans (((FenceRequest.perm_of_placeIn? place).append_right _).trans ?_)
    exact List.perm_middle.symm
  | left _ _ ih => exact ih

theorem onSide (pass : Pass order requests placed left order') :
    ∀ r ∈ placed, r.OnSide order' := by
  induction pass with
  | done => exact nofun
  | placed place rest ih =>
    intro r member
    rcases List.mem_cons.mp member with rfl | later
    · exact (FenceRequest.onSide_of_placeIn? place).mono rest.sublist_order
    · exact ih r later
  | left _ _ ih => exact ih

/-- A pass that leaves every request has found none of the targets. -/
theorem stuck (pass : Pass order requests placed left order')
    (same : left.length = requests.length) :
    left = requests ∧ order' = order ∧ ∀ r ∈ requests, r.target ∉ order := by
  induction pass with
  | done => exact ⟨rfl, rfl, nofun⟩
  | placed _ rest ih =>
    have := rest.sublist_left.length_le
    rw [List.length_cons] at same
    omega
  | left unknown _ ih =>
    obtain ⟨rfl, rfl, others⟩ := ih (by simpa using same)
    refine ⟨rfl, rfl, fun r member => ?_⟩
    rcases List.mem_cons.mp member with rfl | later
    · exact unknown
    · exact others r later

end Pass

/-! ### The loop of passes -/

/-- The loop ends: nothing is left, or a pass places nothing. -/
inductive Settles : List FenceId → List FenceRequest → List FenceId × List FenceRequest → Prop
  | placed {order : List FenceId} : Settles order [] (order, [])
  | stuck {order order' : List FenceId} {requests left : List FenceRequest} (some : requests ≠ [])
      (pass : placePass order requests = (order', left)) (same : left.length = requests.length) :
      Settles order requests (order', left)
  | again {order order' : List FenceId} {requests left : List FenceRequest}
      {result : List FenceId × List FenceRequest} (some : requests ≠ [])
      (pass : placePass order requests = (order', left)) (less : left.length ≠ requests.length)
      (later : Settles order' left result) : Settles order requests result

/-- As many passes as there are requests are enough for the loop to end. -/
theorem settles_placeAll {fuel : Nat} (enough : requests.length ≤ fuel) :
    Settles order requests (placeAll fuel order requests) := by
  induction fuel generalizing order requests with
  | zero =>
    obtain rfl : requests = [] := List.length_eq_zero_iff.mp (by omega)
    exact .placed
  | succ fuel ih =>
    obtain ⟨placed, pass⟩ := pass_placePass order requests
    have shorter := pass.sublist_left.length_le
    rcases requests.eq_nil_or_concat with rfl | ⟨_, _, filled⟩
    · exact .placed
    have some : requests ≠ [] := by simp [filled]
    simp only [placeAll]
    split
    next order' outcome =>
      exact .again some outcome (Nat.ne_of_lt (List.length_pos_iff.mpr some)) .placed
    next order' left' _ outcome =>
      split
      next same => exact .stuck some outcome same
      next less =>
        rw [outcome] at shorter
        exact .again some outcome less (ih (by simp only at shorter; omega))

namespace Settles

variable {result : List FenceId × List FenceRequest}

/-- What every pass keeps, the loop keeps. -/
theorem preserves (Inv : List FenceId → List FenceRequest → Prop)
    (step : ∀ {order requests placed left order'}, Pass order requests placed left order' →
      Inv order requests → Inv order' left)
    (settles : Settles order requests result) (initially : Inv order requests) :
    Inv result.1 result.2 := by
  have pass_spec {order order' : List FenceId} {requests left : List FenceRequest}
      (outcome : placePass order requests = (order', left)) (before : Inv order requests) :
      Inv order' left := by
    obtain ⟨placed, pass⟩ := pass_placePass order requests
    rw [outcome] at pass
    exact step pass before
  induction settles with
  | placed => exact initially
  | stuck _ outcome _ => exact pass_spec outcome initially
  | again _ outcome _ _ ih => exact ih (pass_spec outcome initially)

theorem unique {result' : List FenceId × List FenceRequest} (settles : Settles order requests result)
    (settles' : Settles order requests result') : result = result' := by
  induction settles with
  | placed =>
    cases settles' with
    | placed => rfl
    | stuck some => exact absurd rfl some
    | again some => exact absurd rfl some
  | stuck some outcome same =>
    cases settles' with
    | placed => exact absurd rfl some
    | stuck _ outcome' => rw [← outcome, ← outcome']
    | again _ outcome' less =>
      cases outcome.symm.trans outcome'
      exact absurd same less
  | again some outcome less _ ih =>
    cases settles' with
    | placed => exact absurd rfl some
    | stuck _ outcome' same =>
      cases outcome.symm.trans outcome'
      exact absurd same less
    | again _ outcome' _ later =>
      cases outcome.symm.trans outcome'
      exact ih later

/-- What is left when the loop ends is beside fences that were not placed. -/
theorem unknown (settles : Settles order requests result) :
    ∀ r ∈ result.2, r.target ∉ result.1 := by
  induction settles with
  | placed => exact nofun
  | @stuck order order' requests left some outcome same =>
    obtain ⟨placed, pass⟩ := pass_placePass order requests
    rw [outcome] at pass
    obtain ⟨rfl, rfl, unknown⟩ := pass.stuck same
    exact unknown
  | again _ _ _ _ ih => exact ih

end Settles

/-! ### What is asked for -/

/-- Requests that are accepted one after another. -/
structure Registrable (requests : List FenceRequest) : Prop where
  distinct : (requests.map FenceRequest.fence).Nodup
  fair : ∀ r ∈ requests, r.Fair
  apart : ∀ r ∈ requests, r.fence ≠ r.target
  within : ∀ r ∈ requests, ¬ (r.anchor = .after ∧ r.target = .unregister)

theorem registrable_nil : Registrable [] where
  distinct := .nil
  fair := nofun
  apart := nofun
  within := nofun

/-- No requested fence is a built-in one, so no fence comes twice. -/
theorem Registrable.nodup (registrable : Registrable requests) :
    (FenceId.builtins ++ requests.map FenceRequest.fence).Nodup := by
  refine List.Nodup.append (by decide) registrable.distinct fun fence builtin asked => ?_
  obtain ⟨r, member, rfl⟩ := List.mem_map.mp asked
  have foreign := (registrable.fair r member).foreign
  rw [FenceId.isBuiltin, List.contains_eq_mem, decide_eq_false_iff_not] at foreign
  exact foreign builtin

namespace Scheduler

variable {σ : Type} {s t : Scheduler σ} {config : WorldConfig} {kindCount : Nat}

/-- A scheduler that nothing was asked of yet. -/
def fresh (config : WorldConfig) (kindCount : Nat) : Scheduler σ :=
  (new config kindCount).beginRegistration.2

/-- A scheduler while fences are asked for. An attempt to freeze the order may have failed. -/
inductive Registering (config : WorldConfig) (kindCount : Nat) : Scheduler σ → Prop
  | begun : Registering config kindCount (fresh config kindCount)
  | requested {s : Scheduler σ} (r : FenceRequest) (before : Registering config kindCount s) :
      Registering config kindCount (s.request r).2
  | failed {s t : Scheduler σ} {cause : FenceError} (before : Registering config kindCount s)
      (failed : s.finalize.value = (.error cause, t)) : Registering config kindCount t

theorem registrable_of_refusal? (accepted : s.refusal? r = none)
    (registrable : Registrable s.requests) : Registrable (s.requests ++ [r]) := by
  have fair := fair_of_refusal? accepted
  have apart : r.fence ≠ r.target := by
    intro same
    simp [refusal?, same] at accepted
  have fresh : ∀ other ∈ s.requests, other.fence ≠ r.fence := by
    intro other member same
    have known : (s.requests.any fun other => decide (other.fence = r.fence)) = true :=
      List.any_eq_true.mpr ⟨other, member, by simpa using same⟩
    simp [refusal?, apart, known] at accepted
  have within : ¬ (r.anchor = .after ∧ r.target = .unregister) := by
    rintro ⟨after, last⟩
    unfold refusal? at accepted
    split at accepted
    · cases accepted
    split at accepted
    · cases accepted
    simp [after, last] at accepted
  have both {P : FenceRequest → Prop} (old : ∀ r ∈ s.requests, P r) (new : P r) :
      ∀ other ∈ s.requests ++ [r], P other := by
    intro other member
    rcases List.mem_append.mp member with known | last
    · exact old other known
    · rwa [List.mem_singleton.mp last]
  exact
    { distinct := by
        rw [List.map_append, List.nodup_append]
        refine ⟨registrable.distinct, by simp, ?_⟩
        simpa using fresh
      fair := both registrable.fair fair
      apart := both registrable.apart apart
      within := both registrable.within within }

theorem finalize_value (phase : s.phase = .acceptingFences) :
    s.finalize.value = match fenceOrder s.requests with
      | .error cause => (.error cause, { s with requests := [], fences := builtinFences })
      | .ok order => (.ok (), { s with
          requests := [], fences := order.map Fence.empty, phase := .acceptingUpdates }) := by
  have allowed : s.expectPhase [.acceptingFences] "finalize" = .ok () := if_pos (by simp [phase])
  simp only [finalize, allowed, Logged.value_within]
  cases fenceOrder s.requests with
  | error cause => cases cause <;> rfl
  | ok order => rfl

/-- Apart from its requests, it is as it was when registration began. -/
theorem registering_spec (registering : Registering config kindCount s) :
    s = { fresh config kindCount with requests := s.requests } ∧ Registrable s.requests := by
  induction registering with
  | begun => exact ⟨rfl, registrable_nil⟩
  | @requested s r _ ih =>
    obtain ⟨same, registrable⟩ := ih
    unfold request
    split
    · exact ⟨same, registrable⟩
    · split
      · exact ⟨same, registrable⟩
      next accepted => exact ⟨by rw [same], registrable_of_refusal? accepted registrable⟩
  | @failed s t cause _ failed ih =>
    obtain ⟨same, -⟩ := ih
    have phase : s.phase = .acceptingFences := by rw [same]; rfl
    rw [finalize_value phase] at failed
    split at failed
    · cases failed
      exact ⟨by rw [same]; rfl, registrable_nil⟩
    · cases failed

end Scheduler

end EntityWorld
