import EntityWorld.Proofs.Fence.Replay

/-!
# What holds of every answer

What commands and changes of the locks do one by one, the updates of a fence do at every point of it,
whatever moves the workers make. So an invariant that they keep holds there, and what it means for an
answer holds of everything that is heard. Main statements: `Composes.midway` and `Says.midway`.
-/
namespace EntityWorld

open Scheduler (runTasks heardTasks)
open Batch (Move)

variable {σ : Type}

/-- What is heard in a fence up to a point, and what is shared there: the serial updates have run, and then
these moves have been made, be they all or not. -/
inductive Scheduler.Midway (s : Scheduler σ) (fence : FenceId) (moves : List Move) (shared : Shared σ) :
    List (Heard (Access.interface σ)) → Shared σ → Prop where
  | intro {slot : Fence σ} {serial concurrent : List (Update σ)} {t : Batch.State σ}
      (running : s.phase = .running) (found : s.fence? fence = some slot)
      (due : slot.due.partition (fun u => u.mode.isSerial) = (serial, concurrent))
      (made : (s.batch fence concurrent).replay?
        ((s.batch fence concurrent).start (s.runSerial fence serial shared).value) moves = some t) :
      Midway s fence moves shared (s.heardSerial fence serial shared ++
        (s.batch fence concurrent).heard
          ((s.batch fence concurrent).start (s.runSerial fence serial shared).value) moves) t.shared

/-- A fence that has run is at its end. -/
theorem Scheduler.Replayed.midway {s : Scheduler σ} {fence : FenceId} {moves : List Move}
    {shared t : Shared σ} {heard : List (Heard (Access.interface σ))}
    (replayed : Replayed s fence moves shared heard t) : s.Midway fence moves shared heard t := by
  cases replayed with
  | intro running found due made closed => exact .intro running found due made

/-- A relation between states, and what is heard on the way from one to the other, that commands are in
and that goes on from state to state. -/
structure Composes {I : Interface} {S : Type} (handle : Handler I S)
    (R : S → List (Heard I) → S → Prop) : Prop where
  refl : ∀ s, R s [] s
  trans : ∀ {s t u : S} {heard later : List (Heard I)}, R s heard t → R t later u → R s (heard ++ later) u
  command : ∀ command s, R s [⟨command, (handle command s).value.1⟩] (handle command s).value.2

namespace Composes

theorem run {I : Interface} {S α : Type} {handle : Handler I S} {R : S → List (Heard I) → S → Prop}
    (composes : Composes handle R) (program : Program I α) (s : S) :
    R s (program.heard handle s) (program.run handle s).value.2 := by
  induction program generalizing s with
  | done value => exact composes.refl s
  | call command next ih => exact composes.trans (composes.command command s) (ih _ _)

variable {R : Shared σ → List (Heard (Access.interface σ)) → Shared σ → Prop} {fence : FenceId}
  (composes : Composes (Access.perform (σ := σ)) R)
include composes

theorem runTasks (fence : FenceId) (frame tasks : Nat) (u : Update σ) (left : List Nat) (s : Shared σ) :
    R s (heardTasks fence frame tasks u left s)
      (Scheduler.runTasks fence frame tasks u left s).value := by
  induction left generalizing s with
  | nil => exact composes.refl s
  | cons task rest ih => exact composes.trans (composes.run (u.program fence frame task tasks) s) (ih _)

theorem runSerial (fence : FenceId) (scheduler : Scheduler σ) (updates : List (Update σ))
    (s : Shared σ) :
    R s (scheduler.heardSerial fence updates s) (scheduler.runSerial fence updates s).value := by
  induction updates generalizing s with
  | nil => exact composes.refl s
  | cons u rest ih =>
    simp only [Scheduler.runSerial, Logged.value_bind]
    exact composes.trans (composes.runTasks fence scheduler.frame (u.mode.taskCount scheduler.tasks) u
      (List.range (u.mode.taskCount scheduler.tasks)) s) (ih _)

variable (locked : ∀ s locks, R s [] { s with locks })
include locked

theorem replay {b : Batch σ} {moves : List Move} {x y : Batch.State σ}
    (made : b.replay? x moves = some y) : R x.shared (b.heard x moves) y.shared := by
  induction moves generalizing x with
  | nil =>
    cases made
    exact composes.refl _
  | cons move rest ih =>
    obtain ⟨next, first, tail⟩ := Option.bind_eq_some_iff.mp made
    -- A move is silent, or it is one command with its answer.
    have now : R x.shared (Batch.heardAt x move) next.value.shared := by
      cases Batch.step?_beside rfl first with
      | quiet locks silent _ shared =>
        rw [silent, shared]
        exact locked x.shared locks
      | commanded command hears _ shared =>
        rw [hears, shared]
        exact composes.command command x.shared
    simp only [Batch.heard, first, Option.elim_some]
    exact composes.trans now (ih tail)

/-- Up to any point in a fence. -/
theorem midway {scheduler : Scheduler σ} {moves : List Move} {s t : Shared σ}
    {heard : List (Heard (Access.interface σ))} (ran : scheduler.Midway fence moves s heard t) :
    R s heard t := by
  cases ran with
  | @intro slot serial concurrent y running found due made =>
    exact composes.trans (composes.runSerial fence scheduler serial s) (composes.replay locked made)

end Composes

/-- An invariant, and what holds of answers under it. -/
structure Says {I : Interface} {S : Type} (handle : Handler I S) (P : S → Prop) (Q : Heard I → Prop) :
    Prop where
  kept : ∀ command s, P s → P (handle command s).value.2
  holds : ∀ command s, P s → Q ⟨command, (handle command s).value.1⟩

namespace Says

theorem composes {I : Interface} {S : Type} {handle : Handler I S} {P : S → Prop} {Q : Heard I → Prop}
    (invariant : Says handle P Q) :
    Composes handle fun s heard t => P s → (∀ h ∈ heard, Q h) ∧ P t where
  refl := fun s initial => ⟨nofun, initial⟩
  trans := by
    intro s t u heard later first second initial
    obtain ⟨now, between⟩ := first initial
    obtain ⟨after, ended⟩ := second between
    exact ⟨List.forall_mem_append.mpr ⟨now, after⟩, ended⟩
  command := by
    intro command s initial
    exact ⟨List.forall_mem_singleton.mpr (invariant.holds command s initial),
      invariant.kept command s initial⟩

theorem run {I : Interface} {S α : Type} {handle : Handler I S} {P : S → Prop} {Q : Heard I → Prop}
    (invariant : Says handle P Q) (program : Program I α) {s : S} (initial : P s) :
    (∀ h ∈ program.heard handle s, Q h) ∧ P (program.run handle s).value.2 :=
  invariant.composes.run program s initial

/-- Up to any point in a fence. -/
theorem midway {P : Shared σ → Prop} {Q : Heard (Access.interface σ) → Prop} {fence : FenceId}
    (invariant : Says (Access.perform (σ := σ)) P Q) (locked : ∀ s locks, P s → P { s with locks })
    {scheduler : Scheduler σ} {moves : List Move} {s t : Shared σ}
    {heard : List (Heard (Access.interface σ))} (ran : scheduler.Midway fence moves s heard t)
    (initial : P s) : (∀ h ∈ heard, Q h) ∧ P t :=
  invariant.composes.midway (fun s locks held => ⟨nofun, locked s locks held⟩) ran initial

end Says

end EntityWorld
