import EntityWorld.Proofs.Fence.Numbers
import EntityWorld.Proofs.Fence.Standing
import EntityWorld.Proofs.World.Start

/-!
# What systems declare

Systems reach the fences through their declarations only, so these decide what a frame finds there.
Between frames nothing is left of what was declared for one of them. Main statements:
`scheduler_declare`, `discardOneShots_declare` and `orderly_of_reaches`.
-/
namespace EntityWorld

variable {σ : Type}

namespace Declaration.Request

/-- Is about updates that are declared. -/
def declares : Declaration.Request σ → Bool
  | .schedule _ | .start _ | .stop _ => true
  | .has _ | .kindOf _ | .frame | .exchange _ => false

/-- What a request does to the fences. -/
def enter (s : Scheduler σ) : Declaration.Request σ → Scheduler σ
  | .schedule update => (s.schedule update).value.2
  | .start update => (s.startConstant update).value.2
  | .stop name => (s.stopConstant name).value.2
  | .has _ | .kindOf _ | .frame | .exchange _ => s

end Declaration.Request

namespace Scheduler

open Declaration (Request)

variable {s : Scheduler σ} {since delay : Nat}

theorem later_enter (s : Scheduler σ) (request : Request σ) : Later s (request.enter s) := by
  cases request with
  | schedule update => exact later_schedule s update
  | start update => exact later_startConstant s update
  | stop name => exact later_stopConstant s name
  | _ => exact .refl s

theorem later_foldl_enter (requests : List (Request σ)) (s : Scheduler σ) :
    Later s (requests.foldl Request.enter s) := by
  induction requests generalizing s with
  | nil => exact .refl s
  | cons request rest ih => exact (later_enter s request).trans (ih _)

theorem enter_postpone (late : since ≤ s.nextSequence) (request : Request σ) :
    request.enter (s.postpone since delay) = (request.enter s).postpone since delay := by
  cases request with
  | schedule update => exact congrArg Prod.snd (schedule_postpone late update)
  | start update => exact congrArg Prod.snd (startConstant_postpone late update)
  | stop name => exact congrArg Prod.snd (stopConstant_postpone name)
  | _ => rfl

/-- The same declarations come to the same where numbers were left out before. -/
theorem foldl_enter_postpone (late : since ≤ s.nextSequence) (requests : List (Request σ)) :
    requests.foldl Request.enter (s.postpone since delay) =
      (requests.foldl Request.enter s).postpone since delay := by
  induction requests generalizing s with
  | nil => rfl
  | cons request rest ih =>
    rw [List.foldl_cons, enter_postpone late, List.foldl_cons]
    exact ih (Nat.le_trans late (later_enter s request).numbers)

/-- Where numbers were left out before the declarations, the pass begins with the same ones left out. -/
theorem begun_postpone {number : Nat} (numbered : s.Numbered) (more : s.nextSequence ≤ number)
    (requests : List (Request σ)) :
    (requests.foldl Request.enter
        { s with phase := .acceptingUpdates, nextSequence := number }).beginPass.2 =
      (requests.foldl Request.enter { s with phase := .acceptingUpdates }).beginPass.2.postpone
        s.nextSequence (number - s.nextSequence) := by
  have opened : ({ s with phase := .acceptingUpdates, nextSequence := number } : Scheduler σ) =
      ({ s with phase := .acceptingUpdates } : Scheduler σ).postpone s.nextSequence
        (number - s.nextSequence) := by
    have same : ({ s with phase := .acceptingUpdates } : Scheduler σ).postpone s.nextSequence
        (number - s.nextSequence) =
          { s with
            phase := .acceptingUpdates
            nextSequence := s.nextSequence + (number - s.nextSequence) } :=
      postpone_of_numbered numbered
    rw [same, Nat.add_sub_of_le more]
  have late : s.nextSequence ≤ ({ s with phase := .acceptingUpdates } : Scheduler σ).nextSequence :=
    Nat.le_refl _
  rw [opened, foldl_enter_postpone late, beginPass_postpone]

end Scheduler

/-- The fences that may hold one-shots, but for those that are being declared. -/
def Moment.unspent : Moment σ → List FenceId
  | .resting _ | .declaring _ => []
  | .passing _ left | .leaving _ _ left => left

namespace World

variable {w w' w₀ : World σ} {m m' : Moment σ}

/-! ### What systems hear -/

/-- What systems hear while they declare, one after another, up to the first that fails. -/
def heardDeclaring : List (System σ) → World σ → List (Heard (Declaration.interface σ))
  | [], _ => []
  | system :: rest, w =>
    system.declare.heard performDeclaration w ++
      match (system.declare.run performDeclaration w).value with
      | (.error _, _) => []
      | (.ok (), w) => heardDeclaring rest w

/-- The requests of systems that are about updates. -/
def declarations (systems : List (System σ)) (w : World σ) : List (Declaration.Request σ) :=
  ((heardDeclaring systems w).map Heard.command).filter Declaration.Request.declares

/-- What every command that is given preserves, declaring preserves. -/
theorem declare_preserves {P : World σ → Prop} {systems : List (System σ)}
    (kept : ∀ command v, ⟨command, (performDeclaration command v).value.1⟩ ∈ heardDeclaring systems w →
      P v → P (performDeclaration command v).value.2)
    (initial : P w) : P (declare systems w).value.2 := by
  induction systems generalizing w with
  | nil => exact initial
  | cons system rest ih =>
    have ran : P (system.declare.run performDeclaration w).value.2 :=
      Program.run_preserves_heard
        (fun command v given => kept command v (List.mem_append_left _ given)) initial
    simp only [declare, Logged.value_bind]
    simp only [heardDeclaring] at kept
    rcases outcome : (system.declare.run performDeclaration w).value with ⟨cause | ok, after⟩
    · rw [outcome] at ran
      exact ran
    · rw [outcome] at ran
      simp only [outcome] at kept
      exact ih (fun command v given => kept command v (List.mem_append_right _ given)) ran

theorem scheduler_performDeclaration (command : Declaration.Request σ) (w : World σ) :
    (performDeclaration command w).value.2.scheduler = command.enter w.scheduler := by
  cases command <;> rfl

theorem scheduler_run {α : Type} (program : Program (Declaration.interface σ) α) (w : World σ) :
    (program.run performDeclaration w).value.2.scheduler =
      ((program.heard performDeclaration w).map Heard.command).foldl Declaration.Request.enter
        w.scheduler := by
  induction program generalizing w with
  | done => rfl
  | call command next ih =>
    rw [Program.value_run_call, ih, scheduler_performDeclaration]
    rfl

/-- The declarations are all that counts for the fences. -/
theorem scheduler_declare (systems : List (System σ)) (w : World σ) :
    (declare systems w).value.2.scheduler =
      (declarations systems w).foldl Declaration.Request.enter w.scheduler := by
  have others : (fun (s : Scheduler σ) request =>
      if Declaration.Request.declares request then request.enter s else s) =
        Declaration.Request.enter := by
    funext s request
    cases request <;> rfl
  rw [declarations, List.foldl_filter, others]
  induction systems generalizing w with
  | nil => rfl
  | cons system rest ih =>
    simp only [declare, Logged.value_bind, heardDeclaring, List.map_append, List.foldl_append]
    rw [← scheduler_run]
    rcases (system.declare.run performDeclaration w).value with ⟨cause | ok, after⟩
    · rfl
    · exact ih after

/-- Every request to start or to stop a constant update was refused. -/
def KeepsConstants (heard : List (Heard (Declaration.interface σ))) : Prop :=
  (∀ update, ⟨.start update, .ok ()⟩ ∉ heard) ∧ ∀ name, ⟨.stop name, .ok ()⟩ ∉ heard

/-- Unless constant updates are started or stopped, discarding takes all declarations back. -/
theorem discardOneShots_declare {systems : List (System σ)}
    (kept : KeepsConstants (heardDeclaring systems w)) :
    (declare systems w).value.2.scheduler.discardOneShots.2 =
      { w.scheduler.discardOneShots.2 with
        nextSequence := (declare systems w).value.2.scheduler.nextSequence } := by
  refine declare_preserves (P := fun v => v.scheduler.discardOneShots.2 =
    { w.scheduler.discardOneShots.2 with nextSequence := v.scheduler.nextSequence })
    (fun command v given same => ?_) rfl
  cases command with
  | schedule update =>
    have discarded := v.scheduler.discardOneShots_schedule update
    rw [same] at discarded
    exact discarded
  | start update =>
    have answer : (performDeclaration (.start update) v).value.1 =
        (v.scheduler.startConstant update).value.1.mapError WorldError.fence := rfl
    cases outcome : (v.scheduler.startConstant update).value.1 with
    | ok =>
      rw [answer, outcome] at given
      exact absurd given (kept.1 update)
    | error cause =>
      have idle : (performDeclaration (.start update) v).value.2.scheduler = v.scheduler :=
        Scheduler.startConstant_of_error outcome
      rwa [idle]
  | stop name =>
    have answer : (performDeclaration (.stop name) v).value.1 =
        (v.scheduler.stopConstant name).value.1.mapError WorldError.fence := rfl
    cases outcome : (v.scheduler.stopConstant name).value.1 with
    | ok =>
      rw [answer, outcome] at given
      exact absurd given (kept.2 name)
    | error cause =>
      have idle : (performDeclaration (.stop name) v).value.2.scheduler = v.scheduler :=
        Scheduler.stopConstant_of_error outcome
      rwa [idle]
  | _ => exact same

theorem later_declare (systems : List (System σ)) (w : World σ) :
    Scheduler.Later w.scheduler (declare systems w).value.2.scheduler := by
  rw [scheduler_declare]
  exact Scheduler.later_foldl_enter _ _

/-! ### What steps do to the fences -/

/-- What a step makes of the scheduler. -/
inductive Rescheduled : Moment σ → Moment σ → Prop where
  | still {w v : World σ} (same : v.scheduler = w.scheduler) : Rescheduled (.resting w) (.resting v)
  | opened {w v : World σ} (same : v.scheduler = w.scheduler.openDeclarations.2) :
      Rescheduled (.resting w) (.declaring v)
  | abandoned {w v : World σ} {s : Scheduler σ} (later : Scheduler.Later w.scheduler s)
      (same : v.scheduler = s.discardOneShots.2) : Rescheduled (.declaring w) (.resting v)
  | declared {w v : World σ} {s : Scheduler σ} (later : Scheduler.Later w.scheduler s)
      (same : v.scheduler = s) : Rescheduled (.declaring w) (.passing v v.fenceOrder)
  | executed {w v : World σ} {fence : FenceId} {left : List FenceId}
      (same : v.scheduler = w.scheduler.spend fence) :
      Rescheduled (.passing w (fence :: left)) (.leaving v fence left)
  | bounded {w v : World σ} {fence : FenceId} {left : List FenceId}
      (same : v.scheduler = w.scheduler) : Rescheduled (.leaving w fence left) (.passing v left)
  | finished {w v : World σ} (same : v.scheduler = w.scheduler.endPass) :
      Rescheduled (.passing w []) (.resting v)

theorem Step.rescheduled {what : Happening} (step : Step m what m') (sound : m.world.shared.Sound) :
    Rescheduled m m' := by
  cases step with
  | created | createdWith | loaded | accessed => exact .still rfl
  | destroyed w id =>
    obtain ⟨t, new, same, -⟩ := destroy_spec (w := w) sound id
    rw [same]
    exact .still rfl
  | prioritised w id p =>
    rcases setPriority_spec (w := w) sound id p with same | ⟨x, t, same, -⟩
    all_goals
      rw [same]
      exact .still rfl
  | @attempted w w' report scheduler committed opened =>
    obtain ⟨t, rfl, -⟩ := committed_of_commit (w := w) sound committed
    obtain ⟨index, dirty, memory, refreshed, -⟩ := refresh_eq (oweChanges { w with shared := t } report)
    rw [refreshed] at opened
    exact .opened (congrArg Prod.snd opened).symm
  | @abandoned w w' culprit cause frame failed =>
    have later := later_declare w.systems w
    rw [failed] at later
    exact .abandoned later rfl
  | @declared w w' frame scheduler declared begun =>
    have later := (later_declare w.systems w).trans (Scheduler.later_beginPass _)
    rw [declared, begun] at later
    exact .declared later rfl
  | executed => exact .executed rfl
  | @bounded w w' fence left life life' applied =>
    obtain ⟨new, bounded⟩ := bounded_of_applyBoundary (w := w) sound applied
    exact .bounded bounded.scheduler
  | finished => exact .finished rfl

theorem Rescheduled.later (rescheduled : Rescheduled m m') :
    Scheduler.Later m.world.scheduler m'.world.scheduler := by
  cases rescheduled with
  | still same | bounded same =>
    exact .of_fences (congrArg Scheduler.fences same) (congrArg Scheduler.nextSequence same)
  | @opened w v same =>
    change Scheduler.Later w.scheduler v.scheduler
    rw [same]
    exact Scheduler.later_openDeclarations w.scheduler
  | @abandoned w v s later same =>
    change Scheduler.Later w.scheduler v.scheduler
    rw [same]
    exact later.trans (Scheduler.later_discardOneShots s)
  | @declared w v s later same =>
    change Scheduler.Later w.scheduler v.scheduler
    rwa [same]
  | @executed w v fence left same =>
    change Scheduler.Later w.scheduler v.scheduler
    rw [same]
    exact Scheduler.later_spend w.scheduler fence
  | @finished w v same =>
    change Scheduler.Later w.scheduler v.scheduler
    rw [same]
    exact Scheduler.later_endPass w.scheduler

/-! ### Where one-shots wait -/

/-- No fence comes twice, every number in use was given, and one-shots do not outlast their fence. -/
structure Orderly (m : Moment σ) : Prop where
  once : m.world.fenceOrder.Nodup
  numbered : m.world.scheduler.Numbered
  spent : ∀ f ∈ m.world.scheduler.fences, f.id ∉ m.unspent → f.oneShots = []

theorem Orderly.step {what : Happening} (orderly : Orderly m) (settled : Settled m)
    (step : Step m what m') : Orderly m' := by
  have rescheduled := step.rescheduled settled.sound
  have order := ((step.effect settled.sound).placed settled.placed).1
  refine ⟨order ▸ orderly.once, rescheduled.later.numbered orderly.numbered, ?_⟩
  cases rescheduled with
  | @still w v same | @bounded w v fence left same =>
    intro f member
    exact orderly.spent f (congrArg Scheduler.fences same ▸ member)
  | @opened w v same =>
    intro f member
    have fences : v.scheduler.fences = w.scheduler.fences := by
      rw [same, Scheduler.openDeclarations]
      split <;> rfl
    exact orderly.spent f (fences ▸ member)
  | @abandoned w v s later same =>
    intro f member _
    change f ∈ v.scheduler.fences at member
    rw [same] at member
    obtain ⟨g, -, rfl⟩ := List.mem_map.mp member
    rfl
  | declared later same =>
    intro f member elsewhere
    exact absurd (List.mem_map_of_mem member) elsewhere
  | @executed w v fence left same =>
    intro f member elsewhere
    change f ∈ v.scheduler.fences at member
    have once : w.scheduler.order.Nodup := orderly.once
    rw [same, Scheduler.spend, Scheduler.modifyFence_eq once] at member
    obtain ⟨g, there, rfl⟩ := List.mem_map.mp member
    by_cases here : g.id = fence
    · rw [if_pos here]
    · rw [if_neg here] at elsewhere ⊢
      exact orderly.spent g there (List.not_mem_cons_of_ne_of_not_mem here elsewhere)
  | @finished w v same =>
    intro f member
    have fences : v.scheduler.fences = w.scheduler.fences := by
      rw [same, Scheduler.endPass]
      split <;> rfl
    exact orderly.spent f (fences ▸ member)

/-- Systems ask for fences, and for nothing else of the scheduler, while a world is built. -/
theorem registering_setUp {config : WorldConfig} {kindCount : Nat} (systems : List (System σ))
    (registering : Scheduler.Registering config kindCount w.scheduler) :
    Scheduler.Registering config kindCount (setUp systems w).value.2.scheduler := by
  induction systems generalizing w with
  | nil => exact registering
  | cons system rest ih =>
    have ran : Scheduler.Registering config kindCount
        (system.setUp.run performSetup w).value.2.scheduler := by
      refine Program.run_preserves
        (P := fun w : World σ => Scheduler.Registering config kindCount w.scheduler)
        (fun command _ w registering => ?_) (Program.only_true system.setUp) registering
      cases command with
      | fence request => exact .requested request registering
      | _ => exact registering
    simp only [setUp, Logged.value_bind]
    rcases outcome : (system.setUp.run performSetup w).value with ⟨cause | ok, after⟩
    · rw [outcome] at ran
      exact ran
    · rw [outcome] at ran
      exact ih ran

/-- A new world holds no declarations. -/
theorem holds_of_new {config : WorldConfig} {types : List ComponentType} {systems : List (System σ)}
    {before : σ} (built : (World.new config types systems before).value = .ok w) :
    Scheduler.Holds w.scheduler [] w.scheduler := by
  obtain ⟨registry, w₁, -, done, frozen⟩ := setUp_of_new built
  obtain ⟨scheduler, index, dirty, memory, finalized, rfl, -⟩ := freeze_eq frozen
  have registering : Scheduler.Registering config registry.kindCount
      (setUp systems (unstarted config registry systems before)).value.2.scheduler :=
    registering_setUp systems .begun
  rw [done] at registering
  exact Scheduler.holds_of_registering registering finalized

theorem idle_of_new {config : WorldConfig} {types : List ComponentType} {systems : List (System σ)}
    {memory : σ} (built : (World.new config types systems memory).value = .ok w) :
    ∀ f ∈ w.scheduler.fences, f.oneShots = [] ∧ f.constants = [] := by
  intro f member
  rw [(holds_of_new built).fences] at member
  obtain ⟨fence, -, rfl⟩ := List.mem_map.mp member
  exact ⟨rfl, rfl⟩

theorem orderly_of_reaches {config : WorldConfig} {types : List ComponentType}
    {systems : List (System σ)} {memory : σ} {past : List (Passage σ)}
    (built : (World.new config types systems memory).value = .ok w₀) (reached : Reaches w₀ past m) :
    Orderly m := by
  have started := started_of_new built
  have holds := holds_of_new built
  induction reached with
  | start =>
    have empty := idle_of_new built
    refine ⟨holds.distinct, fun f member d held => ?_, fun f member _ => (empty f member).1⟩
    rw [(empty f member).1, (empty f member).2] at held
    cases held
  | step reached step ih => exact ih.step (settled_of_reaches started reached) step

end World

end EntityWorld
