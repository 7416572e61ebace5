import EntityWorld.Proofs.Fence.Replay

/-!
# Asking a world

A run as a list of what a world is asked for: public calls, and the stages of frames, where a fence is
told the moves that are made. What the world answers and where it stands then depends on nothing else,
and every step is the answer to something that can be asked. Main statement: `exists_serve?_iff`.
-/
namespace EntityWorld

variable {σ : Type}

inductive Ask (σ : Type) : Type 1 where
  | create (d : DefinitionId)
  | createWith (types : List TypeId)
  | destroy (id : EntityId)
  | setPriority (id : EntityId) (p : Priority)
  | setDefinitionState (d : DefinitionId) (state : LoadState)
  | access {α : Type} (program : Program (Access.interface σ) α)
  -- The first two steps of a frame.
  | attempt
  | declare
  -- The updates of the next fence, with the moves of the frame thread and the workers.
  | execute (moves : List Batch.Move)
  -- The boundary of the fence that was executed, with the changes that are counted already.
  | bound (life : LifecycleReport)
  | finish

/-- What a world answers, with all that callbacks hear in the meantime. -/
def Ask.Answer : Ask σ → Type
  | .create _ | .createWith _ | .setPriority _ _ => Except WorldError EntityId
  | .destroy _ => Except (Failure WorldError) Unit
  | .setDefinitionState _ _ => Except WorldError Unit
  | .access (α := α) _ => List (Heard (Access.interface σ)) × α
  | .attempt => CommitReport
  -- The system that failed to declare, if one did.
  | .declare => Option (String × WorldError)
  | .execute _ => List (Heard (Access.interface σ))
  | .bound _ => LifecycleReport
  | .finish => Unit

/-- What was asked, and what the world answered. -/
structure Dealing (σ : Type) : Type 1 where
  ask : Ask σ
  answer : ask.Answer

/-- A dealing, and where the world stands after it. -/
structure Turn (σ : Type) : Type 1 where
  dealing : Dealing σ
  after : Moment σ

namespace Moment

/-- What a world does when it is asked, if it can be asked this where it stands. -/
def serve? : (ask : Ask σ) → Moment σ → Option (ask.Answer × Moment σ)
  | .create d, .resting w => some ((w.create d).1, .resting (w.create d).2)
  | .createWith types, .resting w => some ((w.createWith types).1, .resting (w.createWith types).2)
  | .destroy id, .resting w => some ((w.destroy id).value.1, .resting (w.destroy id).value.2)
  | .setPriority id p, .resting w => some ((w.setPriority id p).1, .resting (w.setPriority id p).2)
  | .setDefinitionState d state, .resting w =>
    some ((w.setDefinitionState d state).1, .resting (w.setDefinitionState d state).2)
  | .access program, .resting w =>
    some ((program.heard Access.perform w.shared, (w.access program).value.1),
      .resting (w.access program).value.2)
  | .attempt, .resting w =>
    match w.commit.value with
    | (.error _, _) => none
    | (.ok report, w) =>
      match w.refresh.value.2.scheduler.openDeclarations with
      | (.error _, _) => none
      | (.ok (), scheduler) => some (report, .declaring { w.refresh.value.2 with scheduler })
  | .declare, .declaring w =>
    match (World.declare w.systems w).value with
    | (.error (culprit, cause), w') =>
      some (some (culprit, cause), .resting (w'.abandon (w.frame + 1) culprit cause).value)
    | (.ok (), w') =>
      match w'.scheduler.beginPass with
      | (.error _, _) => none
      | (.ok _, scheduler) => some (none, .passing { w' with scheduler } scheduler.order)
  | .execute moves, .passing w (fence :: left) =>
    (w.scheduler.replayFence? fence moves w.shared).map fun (heard, shared) =>
      (heard, .leaving { w with scheduler := w.scheduler.spend fence, shared } fence left)
  | .bound life, .leaving w fence left =>
    match (w.applyBoundary fence life).value with
    | (.error _, _) => none
    | (.ok life, w) => some (life, .passing w left)
  | .finish, .passing w [] => some ((), .resting { w with scheduler := w.scheduler.endPass })
  | _, _ => none

/-- Asks for one thing after another: the turns that are taken, and where the world stands in the
end. -/
def play? : List (Ask σ) → Moment σ → Option (List (Turn σ) × Moment σ)
  | [], m => some ([], m)
  | ask :: rest, m =>
    (m.serve? ask).bind fun (answer, next) =>
      (next.play? rest).map fun (turns, last) => (⟨⟨ask, answer⟩, next⟩ :: turns, last)

end Moment

namespace World

variable {m m' : Moment σ} {ask : Ask σ} {answer : ask.Answer}

/-- What a world does when it is asked, case by case. -/
inductive Served : Moment σ → (ask : Ask σ) → ask.Answer → Moment σ → Prop where
  | created (w : World σ) (d : DefinitionId) :
      Served (.resting w) (.create d) (w.create d).1 (.resting (w.create d).2)
  | createdWith (w : World σ) (types : List TypeId) :
      Served (.resting w) (.createWith types) (w.createWith types).1 (.resting (w.createWith types).2)
  | destroyed (w : World σ) (id : EntityId) :
      Served (.resting w) (.destroy id) (w.destroy id).value.1 (.resting (w.destroy id).value.2)
  | prioritised (w : World σ) (id : EntityId) (p : Priority) :
      Served (.resting w) (.setPriority id p) (w.setPriority id p).1 (.resting (w.setPriority id p).2)
  | loaded (w : World σ) (d : DefinitionId) (state : LoadState) :
      Served (.resting w) (.setDefinitionState d state) (w.setDefinitionState d state).1
        (.resting (w.setDefinitionState d state).2)
  | accessed {α : Type} (w : World σ) (program : Program (Access.interface σ) α) :
      Served (.resting w) (.access program)
        (program.heard Access.perform w.shared, (w.access program).value.1)
        (.resting (w.access program).value.2)
  | attempted {w w' : World σ} {report : CommitReport} {scheduler : Scheduler σ}
      (committed : w.commit.value = (.ok report, w'))
      (opened : w'.refresh.value.2.scheduler.openDeclarations = (.ok (), scheduler)) :
      Served (.resting w) .attempt report (.declaring { w'.refresh.value.2 with scheduler })
  | abandoned {w w' : World σ} {culprit : String} {cause : WorldError}
      (failed : (declare w.systems w).value = (.error (culprit, cause), w')) :
      Served (.declaring w) .declare (some (culprit, cause))
        (.resting (w'.abandon (w.frame + 1) culprit cause).value)
  | declared {w w' : World σ} {frame : Nat} {scheduler : Scheduler σ}
      (declared : (declare w.systems w).value = (.ok (), w'))
      (begun : w'.scheduler.beginPass = (.ok frame, scheduler)) :
      Served (.declaring w) .declare none (.passing { w' with scheduler } scheduler.order)
  | executed {w : World σ} {fence : FenceId} {left : List FenceId} {moves : List Batch.Move}
      {heard : List (Heard (Access.interface σ))} {shared : Shared σ}
      (ran : w.scheduler.replayFence? fence moves w.shared = some (heard, shared)) :
      Served (.passing w (fence :: left)) (.execute moves) heard
        (.leaving { w with scheduler := w.scheduler.spend fence, shared } fence left)
  | bounded {w w' : World σ} {fence : FenceId} {left : List FenceId} {life life' : LifecycleReport}
      (applied : (w.applyBoundary fence life).value = (.ok life', w')) :
      Served (.leaving w fence left) (.bound life) life' (.passing w' left)
  | finished (w : World σ) :
      Served (.passing w []) .finish () (.resting { w with scheduler := w.scheduler.endPass })

theorem served_of_serve? (served : m.serve? ask = some (answer, m')) : Served m ask answer m' := by
  unfold Moment.serve? at served
  split at served
  next d w =>
    cases served
    exact .created w d
  next types w =>
    cases served
    exact .createdWith w types
  next id w =>
    cases served
    exact .destroyed w id
  next id p w =>
    cases served
    exact .prioritised w id p
  next d state w =>
    cases served
    exact .loaded w d state
  next program w =>
    cases served
    exact .accessed w program
  next w =>
    split at served
    next => cases served
    next report w' committed =>
      split at served
      next => cases served
      next scheduler opened =>
        cases served
        exact .attempted committed opened
  next w =>
    split at served
    next culprit cause w' failed =>
      cases served
      exact .abandoned failed
    next w' declared =>
      split at served
      next => cases served
      next frame scheduler begun =>
        cases served
        exact .declared declared begun
  next moves w fence left =>
    obtain ⟨⟨heard, shared⟩, ran, same⟩ := Option.map_eq_some_iff.mp served
    cases same
    exact .executed ran
  next life w fence left =>
    split at served
    next => cases served
    next life' w' applied =>
      cases served
      exact .bounded applied
  next w =>
    cases served
    exact .finished w
  next => cases served

theorem serve?_eq_some_iff : m.serve? ask = some (answer, m') ↔ Served m ask answer m' := by
  refine ⟨served_of_serve?, fun served => ?_⟩
  cases served with
  | attempted committed opened => simp only [Moment.serve?, committed, opened]
  | abandoned failed => simp only [Moment.serve?, failed]
  | declared declared begun => simp only [Moment.serve?, declared, begun]
  | executed ran => simp only [Moment.serve?, ran, Option.map_some]
  | bounded applied => simp only [Moment.serve?, applied]
  | _ => rfl

theorem Served.step (served : Served m ask answer m') : ∃ what, Step m what m' := by
  cases served with
  | created w d => exact ⟨_, .created w d⟩
  | createdWith w types => exact ⟨_, .createdWith w types⟩
  | destroyed w id => exact ⟨_, .destroyed w id⟩
  | prioritised w id p => exact ⟨_, .prioritised w id p⟩
  | loaded w d state => exact ⟨_, .loaded w d state⟩
  | accessed w program => exact ⟨_, .accessed w program⟩
  | attempted committed opened => exact ⟨_, .attempted committed opened⟩
  | @abandoned w w' culprit cause failed => exact ⟨_, .abandoned (w.frame + 1) failed⟩
  | declared declared begun => exact ⟨_, .declared declared begun⟩
  | executed ran => exact ⟨_, .executed (Scheduler.exists_replayFence?_iff.mp ⟨_, _, ran⟩)⟩
  | bounded applied => exact ⟨_, .bounded applied⟩
  | finished w => exact ⟨_, .finished w⟩

/-- Steps are what can be asked for. -/
theorem exists_serve?_iff :
    (∃ (ask : Ask σ) (answer : ask.Answer), m.serve? ask = some (answer, m')) ↔
      ∃ what, Step m what m' := by
  constructor
  · rintro ⟨ask, answer, served⟩
    exact (served_of_serve? served).step
  · rintro ⟨what, step⟩
    simp only [serve?_eq_some_iff]
    cases step with
    | created w d => exact ⟨_, _, .created w d⟩
    | createdWith w types => exact ⟨_, _, .createdWith w types⟩
    | destroyed w id => exact ⟨_, _, .destroyed w id⟩
    | prioritised w id p => exact ⟨_, _, .prioritised w id p⟩
    | loaded w d state => exact ⟨_, _, .loaded w d state⟩
    | accessed w program => exact ⟨_, _, .accessed w program⟩
    | attempted committed opened => exact ⟨_, _, .attempted committed opened⟩
    -- The number of the frame is for the log.
    | abandoned frame failed => exact ⟨_, _, .abandoned failed⟩
    | declared declared begun => exact ⟨_, _, .declared declared begun⟩
    | executed ran =>
      obtain ⟨moves, heard, ran⟩ := Scheduler.exists_replayFence?_iff.mpr ran
      exact ⟨_, _, .executed ran⟩
    | bounded applied => exact ⟨_, _, .bounded applied⟩
    | finished w => exact ⟨_, _, .finished w⟩

/-! ### Runs -/

theorem play?_cons_iff {rest : List (Ask σ)} {turns : List (Turn σ)} :
    m.play? (ask :: rest) = some (turns, m') ↔ ∃ answer next later,
      m.serve? ask = some (answer, next) ∧ next.play? rest = some (later, m') ∧
        turns = ⟨⟨ask, answer⟩, next⟩ :: later := by
  constructor
  · intro played
    obtain ⟨⟨answer, next⟩, served, played⟩ := Option.bind_eq_some_iff.mp played
    obtain ⟨⟨later, last⟩, played, same⟩ := Option.map_eq_some_iff.mp played
    cases same
    exact ⟨answer, next, later, served, played, rfl⟩
  · rintro ⟨answer, next, later, served, played, rfl⟩
    simp only [Moment.play?, served, Option.bind_some, played, Option.map_some]

theorem play?_concat {asks : List (Ask σ)} {turns : List (Turn σ)} {n : Moment σ}
    (played : m.play? asks = some (turns, n)) (served : n.serve? ask = some (answer, m')) :
    m.play? (asks ++ [ask]) = some (turns ++ [⟨⟨ask, answer⟩, m'⟩], m') := by
  induction asks generalizing m turns with
  | nil =>
    cases played
    exact play?_cons_iff.mpr ⟨answer, m', [], served, rfl, rfl⟩
  | cons first rest ih =>
    obtain ⟨answer, next, later, first, tail, rfl⟩ := play?_cons_iff.mp played
    exact play?_cons_iff.mpr ⟨answer, next, _, first, ih tail, rfl⟩

/-- Whatever has happened to a world, it may have been asked for. -/
theorem play?_of_reaches {w₀ : World σ} {past : List (Passage σ)} (reached : Reaches w₀ past m) :
    ∃ asks turns, Moment.play? asks (.resting w₀) = some (turns, m) ∧
      turns.map Turn.after = past.map Passage.after := by
  induction reached with
  | start => exact ⟨[], [], rfl, rfl⟩
  | step _ step ih =>
    obtain ⟨asks, turns, played, same⟩ := ih
    obtain ⟨ask, answer, served⟩ := exists_serve?_iff.mpr ⟨_, step⟩
    exact ⟨_, _, play?_concat played served, by simp [same]⟩

end World

end EntityWorld
