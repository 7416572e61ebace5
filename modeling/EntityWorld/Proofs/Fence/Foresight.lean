import EntityWorld.Proofs.Fence.Replay
import EntityWorld.Proofs.Foresight

/-!
# Fences with foresight

The updates of a fence hear the same, move by move, whether collections are made early or late. Main
statement: `Ahead.replayFence`.
-/
namespace EntityWorld.Shared

open Scheduler (runTasks heardTasks)
open Batch (Move)

variable {σ : Type} {ids : List DefinitionId} {names : List Sequence} {s t : Shared σ}
  {fence : FenceId} {frame tasks : Nat}

/-! ### What a fence discovers -/

theorem discovered_runTasks (u : Update σ) (left : List Nat) (s : Shared σ) :
    s.discovered <+: (runTasks fence frame tasks u left s).value.discovered := by
  induction left generalizing s with
  | nil => exact List.prefix_refl _
  | cons task rest ih =>
    simp only [runTasks, Logged.value_bind]
    exact (discovered_run s _).trans (ih _)

theorem discovered_runSerial (scheduler : Scheduler σ) (updates : List (Update σ)) (s : Shared σ) :
    s.discovered <+: (scheduler.runSerial fence updates s).value.discovered := by
  induction updates generalizing s with
  | nil => exact List.prefix_refl _
  | cons u rest ih =>
    simp only [Scheduler.runSerial, Logged.value_bind]
    exact (discovered_runTasks u _ s).trans (ih _)

theorem discovered_replay {b : Batch σ} {moves : List Move} {x y : Batch.State σ}
    (made : b.replay? x moves = some y) : x.shared.discovered <+: y.shared.discovered := by
  induction moves generalizing x with
  | nil =>
    cases made
    exact List.prefix_refl _
  | cons move rest ih =>
    obtain ⟨next, first, tail⟩ := Option.bind_eq_some_iff.mp made
    refine List.IsPrefix.trans ?_ (ih tail)
    cases Batch.step?_beside rfl first with
    | quiet _ _ _ shared =>
      rw [shared]
      exact List.prefix_refl _
    | commanded command _ _ shared =>
      rw [shared]
      exact x.shared.discovered_perform command

/-! ### What updates hear -/

theorem Ahead.runTasks {u : Update σ} {left : List Nat} (ahead : Ahead ids names s t)
    (blind : ∀ h ∈ heardTasks fence frame tasks u left s, h.Blind ids)
    (order : (runTasks fence frame tasks u left s).value.discovered <+: names) :
    heardTasks fence frame tasks u left t = heardTasks fence frame tasks u left s ∧
      Ahead ids names (Scheduler.runTasks fence frame tasks u left s).value
        (Scheduler.runTasks fence frame tasks u left t).value := by
  induction left generalizing s t with
  | nil => exact ⟨rfl, ahead⟩
  | cons task rest ih =>
    simp only [heardTasks, List.mem_append] at blind
    simp only [Scheduler.runTasks, Logged.value_bind] at order ⊢
    obtain ⟨-, heard, ahead'⟩ := ahead.run (fun h member => blind h (.inl member))
      ((discovered_runTasks _ _ _).trans order)
    obtain ⟨heard', ended⟩ := ih ahead' (fun h member => blind h (.inr member)) order
    exact ⟨by simp only [heardTasks, heard, heard'], ended⟩

theorem Ahead.runSerial {scheduler : Scheduler σ} {updates : List (Update σ)}
    (ahead : Ahead ids names s t)
    (blind : ∀ h ∈ scheduler.heardSerial fence updates s, h.Blind ids)
    (order : (scheduler.runSerial fence updates s).value.discovered <+: names) :
    scheduler.heardSerial fence updates t = scheduler.heardSerial fence updates s ∧
      Ahead ids names (scheduler.runSerial fence updates s).value
        (scheduler.runSerial fence updates t).value := by
  induction updates generalizing s t with
  | nil => exact ⟨rfl, ahead⟩
  | cons u rest ih =>
    simp only [Scheduler.heardSerial, List.mem_append] at blind
    simp only [Scheduler.runSerial, Logged.value_bind] at order ⊢
    obtain ⟨heard, ahead'⟩ := ahead.runTasks (fun h member => blind h (.inl member))
      ((discovered_runSerial _ _ _).trans order)
    obtain ⟨heard', ended⟩ := ih ahead' (fun h member => blind h (.inr member)) order
    exact ⟨by simp only [Scheduler.heardSerial, heard, heard'], ended⟩

/-- The batch in one world makes the moves that it makes in the other. -/
theorem Ahead.replay {b : Batch σ} {moves : List Move} {x y : Batch.State σ}
    (ahead : Ahead ids names x.shared t) (made : b.replay? x moves = some y)
    (blind : ∀ h ∈ b.heard x moves, h.Blind ids) (order : y.shared.discovered <+: names) :
    ∃ u, b.replay? { x with shared := t } moves = some { y with shared := u } ∧
      b.heard { x with shared := t } moves = b.heard x moves ∧ Ahead ids names y.shared u := by
  induction moves generalizing x t with
  | nil =>
    cases made
    exact ⟨t, rfl, rfl, ahead⟩
  | cons move rest ih =>
    obtain ⟨next, first, tail⟩ := Option.bind_eq_some_iff.mp made
    have order' := (discovered_replay tail).trans order
    simp only [Batch.heard, first, Option.elim_some, List.mem_append] at blind
    -- One move keeps the second world ahead, and the induction does the rest.
    obtain ⟨u, next', beside, same, hears, after⟩ : ∃ u next',
        b.step? { x with shared := t } move = some next' ∧
          next'.value = { next.value with shared := u } ∧
          Batch.heardAt { x with shared := t } move = Batch.heardAt x move ∧
          Ahead ids names next.value.shared u := by
      cases Batch.step?_beside ahead.locks first with
      | quiet locks silent silent' shared beside =>
        obtain ⟨next', beside, same⟩ := Option.map_eq_some_iff.mp beside
        refine ⟨_, next', beside, same, silent'.trans silent.symm, ?_⟩
        rw [shared]
        exact ahead.of_locks locks
      | commanded command hears hears' shared beside =>
        rw [hears] at blind
        rw [shared] at order'
        obtain ⟨answer, after⟩ := ahead.perform command
          (blind _ (.inl (List.mem_singleton_self _))) order'
        obtain ⟨next', beside, same⟩ := Option.map_eq_some_iff.mp (beside answer)
        refine ⟨_, next', beside, same, by rw [hears, hears', answer], ?_⟩
        rw [shared]
        exact after
    obtain ⟨v, made', heard, ended⟩ := ih after tail fun h member => blind h (.inr member)
    rw [← same] at made' heard
    refine ⟨v, ?_, ?_, ended⟩
    · simp only [Batch.replay?, beside, Option.bind_some, made']
    · simp only [Batch.heard, beside, first, Option.elim_some, hears, heard]

/-- A whole fence. -/
theorem Ahead.replayFence {scheduler : Scheduler σ} {moves : List Move} {s' : Shared σ}
    {heard : List (Heard (Access.interface σ))} (ahead : Ahead ids names s t)
    (ran : scheduler.replayFence? fence moves s = some (heard, s'))
    (blind : ∀ h ∈ heard, h.Blind ids) (order : s'.discovered <+: names) :
    ∃ t', scheduler.replayFence? fence moves t = some (heard, t') ∧ Ahead ids names s' t' := by
  cases Scheduler.replayFence?_eq_some_iff.mp ran with
  | @intro slot serial concurrent y running found due made closed =>
    simp only [List.mem_append] at blind
    obtain ⟨heardSerial, after⟩ := ahead.runSerial (fun h member => blind h (.inl member))
      ((discovered_replay made).trans order)
    obtain ⟨u, made', heardBatch, ended⟩ :=
      after.replay made (fun h member => blind h (.inr member)) order
    have replayed := Scheduler.Replayed.intro running found due made' closed
    refine ⟨u, Scheduler.replayFence?_eq_some_iff.mpr ?_, ended⟩
    rw [← heardSerial, ← heardBatch]
    exact replayed

end EntityWorld.Shared
