import EntityWorld.Proofs.Program
import EntityWorld.Proofs.World.Machine

/-!
# Replaying fences

The moves of the frame thread and the workers decide what the updates of a fence do, so a fence that has
run can be run again, move by move, and beside it another one on other data. Main statements:
`exists_replayFence?_iff` and `step?_beside`.
-/
namespace EntityWorld

variable {σ : Type}

namespace Batch

variable {b : Batch σ} {s t : State σ} {move : Move} {moves rest : List Move}

theorem replay?_append (b : Batch σ) (s : State σ) (moves rest : List Move) :
    b.replay? s (moves ++ rest) = (b.replay? s moves).bind fun t => b.replay? t rest := by
  induction moves generalizing s with
  | nil => rfl
  | cons move moves ih =>
    simp only [List.cons_append, replay?, Option.bind_assoc, ih]

theorem replay?_of_run {trace : List (State σ × Move)} (run : Run b s trace t) :
    b.replay? s (trace.map Prod.snd) = some t := by
  induction run with
  | refl => rfl
  | step run made ih =>
    rw [List.map_append, replay?_append, ih]
    simp only [List.map_cons, List.map_nil, replay?, Option.bind_some, made]

/-! ### What updates hear -/

/-- The command that is given with a move, and its answer. -/
def heardAt (s : State σ) : Move → List (Heard (Access.interface σ))
  | .frame | .take => []
  | .work worker =>
    match s.running[worker]? with
    | some (_, .call command _) => [⟨command, (Access.perform command s.shared).value.1⟩]
    | _ => []

/-- What the updates of a batch hear. -/
def heard (b : Batch σ) (s : State σ) : List Move → List (Heard (Access.interface σ))
  | [] => []
  | move :: rest => heardAt s move ++ (b.step? s move).elim [] fun next => b.heard next.value rest

theorem heard_append (made : b.replay? s moves = some t) (rest : List Move) :
    b.heard s (moves ++ rest) = b.heard s moves ++ b.heard t rest := by
  induction moves generalizing s with
  | nil =>
    cases made
    rfl
  | cons move moves ih =>
    obtain ⟨next, first, tail⟩ := Option.bind_eq_some_iff.mp made
    simp only [List.cons_append, heard, first, Option.elim_some, ih tail, List.append_assoc]

/-- A run that goes on with one more move. -/
theorem heard_step {trace : List (State σ × Move)} {next : Logged (State σ)} (run : Run b s trace t)
    (made : b.step? t move = some next) :
    b.heard s ((trace ++ [(t, move)]).map Prod.snd) =
      b.heard s (trace.map Prod.snd) ++ heardAt t move := by
  rw [List.map_append, heard_append (replay?_of_run run)]
  simp [heard, made]

/-! ### Running beside -/

private theorem consider_beside (place : Nat) {u : Shared σ} (locks : u.locks = s.shared.locks) :
    ∃ locks, (b.consider place s).value.shared = { s.shared with locks } ∧
      (b.consider place { s with shared := u }).value =
        { (b.consider place s).value with shared := { u with locks } } := by
  unfold consider
  match b.updates[place]?, s.stages[place]? with
  | none, _ | some _, none | some _, some (.inFlight _) | some _, some .finished =>
    exact ⟨s.shared.locks, rfl, by rw [← locks]; rfl⟩
  | some v, some .waiting =>
    dsimp only
    split
    next room =>
      simp only [Logged.value_bind, locks]
      match (v.takeLocks s.shared.locks).value with
      | (.error misuse, locks) | (.ok true, locks) | (.ok false, locks) => exact ⟨locks, rfl, rfl⟩
    next full => exact ⟨s.shared.locks, rfl, by rw [← locks]; rfl⟩

private theorem settle_beside (place : Nat) {u : Shared σ} (locks : u.locks = s.shared.locks) :
    ∃ locks, (b.settle place s).value.shared = { s.shared with locks } ∧
      (b.settle place { s with shared := u }).value =
        { (b.settle place s).value with shared := { u with locks } } := by
  unfold settle
  match b.updates[place]?, s.stages[place]? with
  | none, _ | some _, none | some _, some .waiting | some _, some (.inFlight 0)
  | some _, some .finished =>
    exact ⟨s.shared.locks, rfl, by rw [← locks]; rfl⟩
  | some v, some (.inFlight (remaining + 1)) =>
    dsimp only
    split
    next more => exact ⟨s.shared.locks, rfl, by rw [← locks]; rfl⟩
    next last =>
      simp only [Logged.value_bind, locks]
      match (v.returnLocks s.shared.locks).value with
      | (.error misuse, locks) | (.ok (), locks) => exact ⟨locks, rfl, rfl⟩

/-- The same move on other data. -/
inductive Beside (b : Batch σ) (s : State σ) (u : Shared σ) (move : Move) (next : State σ) : Prop where
  -- All but commands concern nothing that is shared but the locks.
  | quiet (locks : LockTable) (silent : heardAt s move = [])
      (silent' : heardAt { s with shared := u } move = []) (shared : next.shared = { s.shared with locks })
      (made : (b.step? { s with shared := u } move).map Logged.value =
        some { next with shared := { u with locks } })
  | commanded (command : Access.Request σ)
      (hears : heardAt s move = [⟨command, (Access.perform command s.shared).value.1⟩])
      (hears' : heardAt { s with shared := u } move =
        [⟨command, (Access.perform command u).value.1⟩])
      (shared : next.shared = (Access.perform command s.shared).value.2)
      (made : (Access.perform command u).value.1 = (Access.perform command s.shared).value.1 →
        (b.step? { s with shared := u } move).map Logged.value =
          some { next with shared := (Access.perform command u).value.2 })

/-- A move that leaves even the locks alone. -/
private theorem Beside.of_still {u : Shared σ} {next : State σ} (locks : u.locks = s.shared.locks)
    (silent : heardAt s move = []) (silent' : heardAt { s with shared := u } move = [])
    (shared : next.shared = s.shared)
    (made : (b.step? { s with shared := u } move).map Logged.value = some { next with shared := u }) :
    Beside b s u move next := by
  refine .quiet s.shared.locks silent silent' shared ?_
  rw [made, ← locks]

theorem step?_beside {u : Shared σ} {next : Logged (State σ)} (locks : u.locks = s.shared.locks)
    (made : b.step? s move = some next) : Beside b s u move next.value := by
  cases move with
  | frame =>
    simp only [step?, frameStep?] at made
    split at made
    next place at_ =>
      split at made
      next inside =>
        cases made
        obtain ⟨locks, shared, same⟩ := consider_beside (b := b) place locks
        have beside : b.step? { s with shared := u } .frame =
            some (b.consider place { s with shared := u }) := by
          simp only [step?, frameStep?, at_, if_pos inside]
        exact .quiet locks rfl rfl shared (by rw [beside, Option.map_some, same])
      next past =>
        cases made
        refine .of_still locks rfl rfl rfl ?_
        simp only [step?, frameStep?, at_, if_neg past, Option.map_some, Logged.value_pure]
        rfl
    next place task at_ =>
      cases made
      refine .of_still locks rfl rfl ?_ ?_
      · simp only [Logged.value_pure, send]
        split <;> rfl
      · simp only [step?, frameStep?, at_, Option.map_some, Logged.value_pure, send]
        split <;> rfl
    next at_ =>
      split at made
      · cases made
      next place signals signalled =>
        cases made
        obtain ⟨locks, shared, same⟩ := settle_beside (b := b) place
          (s := { s with control := .draining, signals }) locks
        have beside : b.step? { s with shared := u } .frame =
            some (b.settle place { s with control := .draining, signals, shared := u }) := by
          simp only [step?, frameStep?, at_, signalled]
        exact .quiet locks rfl rfl shared (by rw [beside, Option.map_some, same])
    next at_ =>
      split at made
      next empty =>
        cases made
        refine .of_still locks rfl rfl rfl ?_
        simp only [step?, frameStep?, at_, empty, Option.map_some, Logged.value_pure]
        rfl
      next place signals signalled =>
        cases made
        obtain ⟨locks, shared, same⟩ := settle_beside (b := b) place
          (s := { s with signals }) locks
        have beside : b.step? { s with shared := u } .frame =
            some (b.settle place { s with signals, shared := u }) := by
          simp only [step?, frameStep?, at_, signalled]
        exact .quiet locks rfl rfl shared (by rw [beside, Option.map_some, same])
    · cases made
    · cases made
  | take =>
    simp only [step?, takeStep?] at made
    split at made
    · cases made
    next job queue queued =>
      split at made
      next idle =>
        cases made
        refine .of_still locks rfl rfl rfl ?_
        simp only [step?, takeStep?, queued, if_pos idle, Option.map_some, Logged.value_pure]
      next => cases made
  | work worker =>
    simp only [step?, workStep?] at made
    split at made
    · cases made
    next job at_ =>
      cases made
      refine .of_still locks ?_ ?_ rfl ?_
      · simp only [heardAt, at_]
      · simp only [heardAt, at_]
      · simp only [step?, workStep?, at_, Option.map_some, Logged.value_pure]
    next job command next at_ =>
      cases made
      refine .commanded command ?_ ?_ rfl fun answer => ?_
      · simp only [heardAt, at_]
      · simp only [heardAt, at_]
      · simp only [step?, workStep?, at_, Option.map_some, Logged.value_pure, answer]

end Batch

/-! ### Fences -/

namespace Scheduler

open Batch (Move)

variable {s : Scheduler σ} {fence : FenceId} {shared t : Shared σ}

/-- What the sub-tasks of an update hear when they are run one after another. -/
def heardTasks (fence : FenceId) (frame tasks : Nat) (u : Update σ) :
    List Nat → Shared σ → List (Heard (Access.interface σ))
  | [], _ => []
  | task :: rest, shared =>
    let program := u.program fence frame task tasks
    program.heard Access.perform shared ++
      heardTasks fence frame tasks u rest (program.run Access.perform shared).value.2

/-- What the serial updates of a fence hear. -/
def heardSerial (s : Scheduler σ) (fence : FenceId) :
    List (Update σ) → Shared σ → List (Heard (Access.interface σ))
  | [], _ => []
  | u :: rest, shared =>
    let tasks := u.mode.taskCount s.tasks
    heardTasks fence s.frame tasks u (List.range tasks) shared ++
      s.heardSerial fence rest (runTasks fence s.frame tasks u (List.range tasks) shared).value

/-- Runs the updates of a fence with these moves, if all of them can be made and are all there are.
Answers what the updates hear. -/
def replayFence? (s : Scheduler σ) (fence : FenceId) (moves : List Move) (shared : Shared σ) :
    Option (List (Heard (Access.interface σ)) × Shared σ) :=
  if s.phase = .running then do
    let slot ← s.fence? fence
    let (serial, concurrent) := slot.due.partition fun u => u.mode.isSerial
    let b := s.batch fence concurrent
    let start := b.start (s.runSerial fence serial shared).value
    let t ← b.replay? start moves
    if t.control = .closed then
      some (s.heardSerial fence serial shared ++ b.heard start moves, t.shared)
    else none
  else none

/-- What it means that a fence can be run with these moves. -/
inductive Replayed (s : Scheduler σ) (fence : FenceId) (moves : List Move) (shared : Shared σ) :
    List (Heard (Access.interface σ)) → Shared σ → Prop where
  | intro {slot : Fence σ} {serial concurrent : List (Update σ)} {t : Batch.State σ}
      (running : s.phase = .running) (found : s.fence? fence = some slot)
      (due : slot.due.partition (fun u => u.mode.isSerial) = (serial, concurrent))
      (made : (s.batch fence concurrent).replay?
        ((s.batch fence concurrent).start (s.runSerial fence serial shared).value) moves = some t)
      (closed : t.control = .closed) :
      Replayed s fence moves shared (s.heardSerial fence serial shared ++
        (s.batch fence concurrent).heard
          ((s.batch fence concurrent).start (s.runSerial fence serial shared).value) moves) t.shared

theorem replayFence?_eq_some_iff {moves : List Move} {heard : List (Heard (Access.interface σ))} :
    s.replayFence? fence moves shared = some (heard, t) ↔ Replayed s fence moves shared heard t := by
  constructor
  · intro ran
    unfold replayFence? at ran
    split at ran
    next running =>
      obtain ⟨slot, found, ran⟩ := Option.bind_eq_some_iff.mp ran
      obtain ⟨t, made, ran⟩ := Option.bind_eq_some_iff.mp ran
      split at ran
      next closed =>
        cases ran
        exact .intro running found rfl made closed
      next => cases ran
    next => cases ran
  · intro replayed
    cases replayed with
    | @intro slot serial concurrent t running found due made closed =>
      simp only [replayFence?, if_pos running, found, due, Option.bind_eq_bind, Option.bind_some, made,
        if_pos closed]

/-- Moves are all that is needed to run a fence again. -/
theorem exists_replayFence?_iff :
    (∃ moves heard, s.replayFence? fence moves shared = some (heard, t)) ↔ FenceRun s fence shared t := by
  simp only [replayFence?_eq_some_iff]
  constructor
  · rintro ⟨moves, heard, replayed⟩
    cases replayed with
    | intro running found due made closed =>
      obtain ⟨trace, -, run⟩ := Batch.run_of_replay? made
      exact .intro running found due rfl run closed
  · intro ran
    cases ran with
    | intro running found due batch run closed =>
      subst batch
      exact ⟨_, _, .intro running found due (Batch.replay?_of_run run) closed⟩

end Scheduler

end EntityWorld
