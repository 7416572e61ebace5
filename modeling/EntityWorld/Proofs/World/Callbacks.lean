import EntityWorld.Proofs.Fence.Order
import EntityWorld.Proofs.Shared
import EntityWorld.Proofs.World.Machine

/-!
# What user code can do to a world

Updates can only add entities; systems that rebind or declare can only change the memory and, while
declaring, what is scheduled. So user code never touches an entity that is there.
-/
namespace EntityWorld

variable {σ : Type} {s t : Shared σ} {w w' : World σ}

/-! ### Updates -/

/-- What every command preserves, and every change of the locks, the updates of a fence preserve. -/
theorem FenceRun.preserves {P : Shared σ → Prop}
    (kept : ∀ command s, P s → P (Access.perform command s).value.2)
    (locked : ∀ s locks, P s → P { s with locks }) {scheduler : Scheduler σ} {fence : FenceId}
    (ran : FenceRun scheduler fence s t) (initial : P s) : P t := by
  have tasks (frame tasks : Nat) (u : Update σ) (left : List Nat) {s : Shared σ} (initial : P s) :
      P (Scheduler.runTasks fence frame tasks u left s).value := by
    induction left generalizing s with
    | nil => exact initial
    | cons task rest ih =>
      exact ih (Program.run_preserves (fun command _ s => kept command s)
        (Program.only_true (u.program fence frame task tasks)) initial)
  have serial (updates : List (Update σ)) {s : Shared σ} (initial : P s) :
      P (scheduler.runSerial fence updates s).value := by
    induction updates generalizing s with
    | nil => exact initial
    | cons u rest ih =>
      simp only [Scheduler.runSerial, Logged.value_bind]
      exact ih (tasks _ _ u _ initial)
  cases ran with
  | @intro slot alone concurrent b t moves running found due batch run closed =>
    refine run.preserves (P := fun t => P t.shared) (fun s move t step held => ?_) (serial alone initial)
    -- Moves of the frame thread change nothing but the locks.
    cases step with
    | commanded at_ => exact kept _ _ held
    | refused | admitted | misused | finished | unheld => exact locked _ _ held
    | passed | scanned | sent | launched | counted | unowed | drained | took | signalled => exact held

theorem FenceRun.grows {scheduler : Scheduler σ} {fence : FenceId} (ran : FenceRun scheduler fence s t)
    (sound : s.Sound) : Shared.Grows s t :=
  ran.preserves (P := Shared.Grows s)
    (fun command _ grown => grown.trans (Shared.grows_perform grown.sound command))
    (fun _ _ grown => grown.trans (.of_keeps grown.sound (.refl grown.sound.store) rfl rfl rfl))
    (.refl sound)

/-! ### Systems -/

namespace World

open Scheduler (SamePlan samePlan_modify samePlan_modifyFence)

theorem rebind_spec (systems : List (System σ)) (w : World σ) :
    ∃ memory, (rebind systems w).value = { w with shared.memory := memory } := by
  induction systems generalizing w with
  | nil => exact ⟨w.shared.memory, rfl⟩
  | cons system rest ih =>
    -- Each query leaves everything but the memory alone, so the whole program does.
    have only : ∃ memory, (system.rebind.run performQuery w).value.2 =
        { w with shared.memory := memory } := by
      refine Program.run_preserves (P := fun w' => ∃ memory, w' = { w with shared.memory := memory })
        (fun command _ w' kept => ?_) (Program.only_true system.rebind) ⟨w.shared.memory, rfl⟩
      obtain ⟨memory, rfl⟩ := kept
      cases command with
      | exchange change => exact ⟨_, rfl⟩
      | _ => exact ⟨memory, rfl⟩
    obtain ⟨memory, first⟩ := only
    obtain ⟨memory', done⟩ := ih { w with shared.memory := memory }
    exact ⟨memory', by simp only [rebind, Logged.value_bind, first, done]⟩

/-- Refreshing changes the index only. -/
theorem refreshIndex_eq (s : Store) (kindCount : Nat) :
    ∃ index dirty, (s.refreshIndex kindCount).value.2 = { s with index, dirty } := by
  unfold Store.refreshIndex
  split
  · exact ⟨_, false, rfl⟩
  · exact ⟨s.index, s.dirty, rfl⟩

/-- A world changes the memory too if systems want to remember something. -/
theorem refresh_value (w : World σ) :
    ∃ memory, w.refresh.value.2 = { w with
        shared.store := (w.shared.store.refreshIndex w.shared.registry.kindCount).value.2
        shared.memory := memory } ∧
      ((∀ v, (rebind w.systems v).value = v) → memory = w.shared.memory) := by
  obtain ⟨memory, rebound⟩ := rebind_spec w.systems { w with
    shared.store := (w.shared.store.refreshIndex w.shared.registry.kindCount).value.2 }
  simp only [refresh, Logged.value_bind]
  split
  next =>
    refine ⟨memory, rebound, fun still => ?_⟩
    exact congrArg (fun v : World σ => v.shared.memory) (rebound.symm.trans (still _))
  next => exact ⟨w.shared.memory, rfl, fun _ => rfl⟩

theorem refresh_eq (w : World σ) :
    ∃ index dirty memory, w.refresh.value.2 = { w with
        shared.store := { w.shared.store with index, dirty }
        shared.memory := memory } ∧
      ((∀ v, (rebind w.systems v).value = v) → memory = w.shared.memory) := by
  obtain ⟨index, dirty, refreshed⟩ := refreshIndex_eq w.shared.store w.shared.registry.kindCount
  obtain ⟨memory, same, still⟩ := refresh_value w
  exact ⟨index, dirty, memory, by rw [same, refreshed], still⟩

/-- When a world starts, its fences are in order too. -/
theorem freeze_eq (frozen : w.freeze.value = (.ok (), w')) :
    ∃ scheduler index dirty memory, w.scheduler.finalize.value = (.ok (), scheduler) ∧
      w' = { w with
        scheduler
        shared.store := { w.shared.store with index, dirty }
        shared.memory := memory } ∧
      ((∀ v, (rebind w.systems v).value = v) → memory = w.shared.memory) := by
  simp only [freeze, Logged.value_bind] at frozen
  match outcome : w.scheduler.finalize.value with
  | (.error cause, scheduler) =>
    rw [outcome] at frozen
    cases frozen
  | (.ok (), scheduler) =>
    obtain ⟨index, dirty, refreshed⟩ := refreshIndex_eq w.shared.store w.shared.registry.kindCount
    obtain ⟨memory, rebound⟩ := rebind_spec w.systems
      { w with scheduler, shared.store := { w.shared.store with index, dirty } }
    simp only [outcome, Logged.value_bind, refreshed, rebound, Logged.value_pure] at frozen
    cases frozen
    refine ⟨scheduler, index, dirty, memory, rfl, rfl, fun still => ?_⟩
    exact congrArg (fun v : World σ => v.shared.memory) (rebound.symm.trans (still _))

theorem samePlan_perform (command : Declaration.Request σ) (w : World σ) :
    ∃ memory scheduler, (performDeclaration command w).value.2 =
      { w with shared.memory := memory, scheduler } ∧ SamePlan w.scheduler scheduler := by
  cases command with
  | schedule update =>
    refine ⟨w.shared.memory, _, rfl, ?_⟩
    unfold Scheduler.schedule
    split
    · exact ⟨rfl, rfl⟩
    · obtain ⟨order, phase⟩ := samePlan_modifyFence w.scheduler update.fence
        (fun f => { f with oneShots := f.oneShots ++ [⟨update, w.scheduler.nextSequence⟩] })
        fun _ => rfl
      exact ⟨order, phase⟩
  | start update =>
    refine ⟨w.shared.memory, _, rfl, ?_⟩
    unfold Scheduler.startConstant
    split
    · exact ⟨rfl, rfl⟩
    · obtain ⟨order, phase⟩ := samePlan_modifyFence w.scheduler update.fence
        (fun f => { f with constants := f.constants ++ [⟨update, w.scheduler.nextSequence⟩] })
        fun _ => rfl
      exact ⟨order, phase⟩
  | stop name =>
    refine ⟨w.shared.memory, _, rfl, ?_⟩
    unfold Scheduler.stopConstant
    split
    · exact ⟨rfl, rfl⟩
    · split
      · exact ⟨rfl, rfl⟩
      next place _ =>
        exact samePlan_modify w.scheduler place
          (fun f => { f with constants := f.constants.eraseP fun d => d.update.name == name })
          fun _ => rfl
  | exchange change => exact ⟨_, w.scheduler, rfl, rfl, rfl⟩
  | has | kindOf | frame => exact ⟨w.shared.memory, w.scheduler, rfl, rfl, rfl⟩

theorem declare_spec (systems : List (System σ)) (w : World σ) :
    ∃ memory scheduler, (declare systems w).value.2 = { w with shared.memory := memory, scheduler } ∧
      SamePlan w.scheduler scheduler := by
  induction systems generalizing w with
  | nil => exact ⟨w.shared.memory, w.scheduler, rfl, rfl, rfl⟩
  | cons system rest ih =>
    -- What every declaration keeps, one system keeps; the first that fails is the last.
    obtain ⟨memory, scheduler, ran, same⟩ : ∃ memory scheduler,
        (system.declare.run performDeclaration w).value.2 =
          { w with shared.memory := memory, scheduler } ∧
          SamePlan w.scheduler scheduler := by
      refine Program.run_preserves
        (P := fun w' => ∃ memory scheduler, w' = { w with shared.memory := memory, scheduler } ∧
          SamePlan w.scheduler scheduler)
        (fun command _ w' kept => ?_) (Program.only_true system.declare)
        ⟨w.shared.memory, w.scheduler, rfl, rfl, rfl⟩
      obtain ⟨memory, scheduler, rfl, same⟩ := kept
      obtain ⟨memory', scheduler', done, same'⟩ :=
        samePlan_perform command { w with shared.memory := memory, scheduler }
      exact ⟨memory', scheduler', done, same.trans same'⟩
    simp only [declare, Logged.value_bind]
    cases outcome : (system.declare.run performDeclaration w).value with
    | mk result w' =>
      rw [outcome] at ran
      simp only at ran
      subst ran
      match result with
      | .error cause => exact ⟨memory, scheduler, rfl, same⟩
      | .ok () =>
        obtain ⟨memory', scheduler', done, same'⟩ := ih { w with shared.memory := memory, scheduler }
        exact ⟨memory', scheduler', done, same.trans same'⟩

theorem eq_of_declare {systems : List (System σ)} {result : Except (String × WorldError) Unit}
    (ran : (declare systems w).value = (result, w')) : ∃ memory scheduler,
      w' = { w with shared.memory := memory, scheduler } ∧ SamePlan w.scheduler scheduler := by
  obtain ⟨memory, scheduler, done, same⟩ := declare_spec systems w
  rw [ran] at done
  exact ⟨memory, scheduler, done, same⟩

theorem declare_append (first second : List (System σ)) (w : World σ) :
    (declare (first ++ second) w).value =
      match (declare first w).value with
      | (.error failure, w) => (.error failure, w)
      | (.ok (), w) => (declare second w).value := by
  induction first generalizing w with
  | nil => rfl
  | cons system rest ih =>
    simp only [List.cons_append, declare, Logged.value_bind]
    match (system.declare.run performDeclaration w).value with
    | (.error cause, w') => rfl
    | (.ok (), w') => exact ih w'

end World

end EntityWorld
