import EntityWorld.World.Lifecycle

/-!
# Overwriting entities

Priorities, destroy requests and the boundaries of fences overwrite entities, and they do it with two
operations only: one for entities in rows and one for entities that wait. What both operations keep,
all of them keep.
-/
namespace EntityWorld

variable {σ : Type} {w : World σ}

/-- Overwriting entities keeps this. -/
structure Overwritable (P : Shared σ → Prop) : Prop where
  stored : ∀ s id next, P s → P { s with store := (s.store.update id next).2 }
  waiting : ∀ s raw change, P s → P (s.modifyDeferred raw change)

namespace Overwritable

variable {P : Shared σ → Prop} (kept : Overwritable P)
include kept

theorem setLife (current : EntityId) (target : LifeState) (initial : P w.shared) :
    P (w.setLife current target).value.2.shared := by
  unfold World.setLife
  split
  · exact initial
  next next _ =>
    have after := kept.stored w.shared current next initial
    match updated : w.shared.store.update current next with
    | (.ok (), store) | (.error cause, store) =>
      rw [updated] at after
      exact after

theorem setPriority (id : EntityId) (p : Priority) (initial : P w.shared) :
    P (w.setPriority id p).2.shared := by
  unfold World.setPriority
  split
  next current found =>
    have after := kept.stored w.shared current (current.withPriority p) initial
    match updated : w.shared.store.update current (current.withPriority p) with
    | (.ok (), store) | (.error cause, store) =>
      rw [updated] at after
      simpa only [updated] using after
  next absent =>
    split
    next => exact initial
    next entry waits => exact kept.waiting w.shared id.raw (fun id => id.withPriority p) initial

theorem applyDestroy (id : EntityId) (initial : P w.shared) :
    P (w.applyDestroy id).value.2.shared := by
  unfold World.applyDestroy
  split
  next current found =>
    split
    next able =>
      have after := kept.setLife current .unregister initial
      simp only [Logged.value_bind]
      match outcome : (w.setLife current .unregister).value with
      | (.error fault, w') | (.ok (), w') => rwa [outcome] at after
    next unable => exact initial
  next notStored =>
    split
    next => exact initial
    next entry waits =>
      split
      next able => exact kept.waiting w.shared id.raw (fun id => id.withLife .unregister) initial
      next unable => exact initial

theorem destroy (id : EntityId) (initial : P w.shared) : P (w.destroy id).value.2.shared := by
  have after := kept.applyDestroy id initial
  simp only [World.destroy, Logged.value_bind]
  match outcome : (w.applyDestroy id).value with
  | (.error fault, w') => rwa [outcome] at after
  | (.ok .unknown, w') | (.ok .unregistered, w') | (.ok .noEffect, w') => rwa [outcome] at after

theorem applyDestroys (requests : List EntityId) (count : Nat) (initial : P w.shared) :
    P (World.applyDestroys requests count w).value.2.shared := by
  induction requests generalizing w count with
  | nil => exact initial
  | cons id rest ih =>
    have after := kept.applyDestroy id initial
    simp only [World.applyDestroys, Logged.value_bind]
    match outcome : (w.applyDestroy id).value with
    | (.error fault, w') => rwa [outcome] at after
    | (.ok .unknown, w') | (.ok .unregistered, w') | (.ok .noEffect, w') =>
      rw [outcome] at after
      exact ih _ after

theorem advance (source target : LifeState) (listed : List Nat) (count : Nat) (initial : P w.shared) :
    P (World.advance source target listed count w).value.2.shared := by
  induction listed generalizing w count with
  | nil => exact initial
  | cons raw rest ih =>
    simp only [World.advance]
    split
    next => exact ih _ initial
    next current found =>
      split
      next due =>
        have after := kept.setLife current target initial
        simp only [Logged.value_bind]
        match outcome : (w.setLife current target).value with
        | (.error fault, w') => rwa [outcome] at after
        | (.ok (), w') =>
          rw [outcome] at after
          exact ih _ after
      next => exact ih _ initial

/-- A boundary takes the requests first. -/
theorem applyBoundary (fence : FenceId) (life : LifecycleReport)
    (initial : P { w.shared with destroys := [] }) :
    P (w.applyBoundary fence life).value.2.shared := by
  have after := kept.applyDestroys (w := { w with shared.destroys := [] }) w.shared.destroys
    life.unregistered initial
  simp only [World.applyBoundary, Logged.value_bind]
  match outcome : (World.applyDestroys w.shared.destroys life.unregistered
      { w with shared.destroys := [] }).value with
  | (.error fault, w') => rwa [outcome] at after
  | (.ok count, w') =>
    rw [outcome] at after
    dsimp only
    split
    · exact kept.advance _ _ _ _ after
    · split
      · exact kept.advance _ _ _ _ after
      · exact after

end Overwritable

end EntityWorld
