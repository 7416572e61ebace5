import EntityWorld.Proofs.Fence.Rounds
import EntityWorld.Proofs.World.Start

/-!
# Frames are steps

A frame that ends without a fault is a list of steps, from rest to rest: the last one finishes or
abandons it. So what holds wherever steps lead holds after every frame. Main statement:
`reaches_of_runFrame`.
-/
namespace EntityWorld

variable {σ : Type}

/-- The updates of a fence, run as the frame thread runs them, are one of the runs there are. -/
theorem Scheduler.fenceRun_of_runFence {s s' : Scheduler σ} {fence : FenceId} {elapsed : Duration}
    {shared shared' : Shared σ} {report : FenceReport}
    (ran : (s.runFence fence elapsed shared).value = (.ok report, s', shared')) :
    s' = s.spend fence ∧ FenceRun s fence shared shared' := by
  unfold runFence at ran
  split at ran
  · cases ran
  · cases ran
  next slot phase found =>
    have running : s.phase = .running := by
      simp only [expectPhase] at phase
      split at phase
      next member => simpa using member
      · cases phase
    simp only [Logged.value_within, Logged.value_bind] at ran
    cases outcome : ((s.batch fence (slot.due.partition fun u => u.mode.isSerial).2).run
        (s.runSerial fence (slot.due.partition fun u => u.mode.isSerial).1 shared).value).value with
    | mk result after =>
      rw [outcome] at ran
      match result with
      | .error fault => cases ran
      | .ok retries =>
        obtain ⟨moves, t, run, closed, -, rfl⟩ := Batch.closed_of_run outcome
        simp only [Logged.value_ite, Logged.value_bind, Logged.value_pure, ite_self] at ran
        cases ran
        exact ⟨rfl, .intro running found rfl rfl run closed⟩

/-- Where a fence can be run, only a fault keeps it from answering. -/
theorem Scheduler.runFence_fault {s s' : Scheduler σ} {fence : FenceId} {elapsed : Duration}
    {shared shared' : Shared σ} {failure : Failure FenceError} (running : s.phase = .running)
    (member : fence ∈ s.order)
    (ran : (s.runFence fence elapsed shared).value = (.error failure, s', shared')) :
    ∃ fault, failure = .fault fault := by
  have phase : s.expectPhase [.running] "run_fence" = .ok () := by
    simp [expectPhase, running]
  obtain ⟨slot, found⟩ := exists_fence? member
  simp only [runFence, phase, found, Logged.value_within, Logged.value_bind] at ran
  split at ran
  next fault shared outcome =>
    cases ran
    exact ⟨fault, rfl⟩
  next retries shared outcome =>
    simp only [Logged.value_ite, Logged.value_bind, Logged.value_pure, ite_self] at ran
    cases ran

namespace World

variable {w w₀ w' : World σ} {past : List (Passage σ)}

/-- What executing the next fence, and then those that are left, comes to. -/
inductive Executed (w : World σ) (timing : Timing) (fence : FenceId) (left : List FenceId)
    (reports : List FenceReport) (life : LifecycleReport) :
    Except (Failure FenceError) (List FenceReport × LifecycleReport) → World σ → Prop where
  | broken {fault : Fault} {scheduler : Scheduler σ} {shared : Shared σ}
      (ran : (w.scheduler.runFence fence (timing.fence fence) w.shared).value =
        (.error (.fault fault), scheduler, shared)) :
      Executed w timing fence left reports life (.error (.fault fault)) { w with scheduler, shared }
  | passed {report : FenceReport} {shared : Shared σ} {life' : LifecycleReport} {v w' : World σ}
      {result : Except (Failure FenceError) (List FenceReport × LifecycleReport)}
      (ran : FenceRun w.scheduler fence w.shared shared)
      (applied : (World.applyBoundary { w with scheduler := w.scheduler.spend fence, shared } fence
        life).value = (.ok life', v))
      (rest : (executeFences timing left (reports ++ [report]) life' v).value = (result, w')) :
      Executed w timing fence left reports life result w'

theorem executed_of_executeFences {timing : Timing} {fence : FenceId} {left : List FenceId}
    {reports : List FenceReport} {life : LifecycleReport}
    {result : Except (Failure FenceError) (List FenceReport × LifecycleReport)}
    (settled : Settled (.passing w (fence :: left)))
    (ran : (executeFences timing (fence :: left) reports life w).value = (result, w')) :
    Executed w timing fence left reports life result w' := by
  obtain ⟨running, suffix⟩ := settled.placed
  simp only [executeFences, Logged.value_bind] at ran
  rcases outcome : (w.scheduler.runFence fence (timing.fence fence) w.shared).value with
    ⟨failure | report, scheduler, shared⟩
  · -- The fence is one of the order and the pass is running, so this is a fault.
    obtain ⟨fault, rfl⟩ := Scheduler.runFence_fault running (suffix.subset List.mem_cons_self) outcome
    rw [outcome] at ran
    cases ran
    exact .broken outcome
  · rw [outcome] at ran
    obtain ⟨rfl, executed⟩ := Scheduler.fenceRun_of_runFence outcome
    obtain ⟨life', v, new, applied, -⟩ :=
      applyBoundary_spec (settled.step (.executed executed)).sound fence life
    simp only [Moment.world] at applied
    simp only [Logged.value_bind, applied] at ran
    exact .passed executed applied ran

/-- Executing the fences that are left passes all of them. -/
theorem reaches_of_executeFences {timing : Timing} {left : List FenceId} {reports : List FenceReport}
    {life : LifecycleReport} {result : Except (Failure FenceError) (List FenceReport × LifecycleReport)}
    (settled : Settled (.resting w₀)) (reached : Reaches w₀ past (.passing w left))
    (ran : (executeFences timing left reports life w).value = (result, w')) :
    (∃ fault, result = .error (.fault fault)) ∨
      ∃ answer more, result = .ok answer ∧ Reaches w₀ (past ++ more) (.passing w' []) := by
  -- By induction on the fences that are left; each is one step for its updates and one for its boundary.
  induction left generalizing w past reports life with
  | nil =>
    cases ran
    exact .inr ⟨_, [], rfl, by rwa [List.append_nil]⟩
  | cons fence rest ih =>
    cases executed_of_executeFences (reached.settled settled) ran with
    | broken => exact .inl ⟨_, rfl⟩
    | passed executed applied tail =>
      rcases ih ((reached.step (.executed executed)).step (.bounded applied)) tail with
        fault | ⟨answer, more, same, reached'⟩
      · exact .inl fault
      · rw [List.append_assoc, List.append_assoc] at reached'
        exact .inr ⟨answer, _, same, reached'⟩

/-- The last step of a frame with this answer. -/
def ending : Except (Failure WorldError) FrameReport → Happening
  | .ok _ => .finished
  | .error _ => .abandoned

/-- Declaring leaves the phase alone, so the pass can begin. -/
theorem exists_beginPass {systems : List (System σ)} (settled : Settled (.declaring w))
    (declared : (declare systems w).value = (.ok (), w')) :
    ∃ frame scheduler, w'.scheduler.beginPass = (.ok frame, scheduler) := by
  obtain ⟨memory, scheduler, rfl, same⟩ := eq_of_declare declared
  exact Scheduler.beginPass_of_phase (same.phase.trans settled.placed)

/-- What a frame comes to from the declarations on. -/
inductive Played (w : World σ) (timing : Timing) (commit : CommitReport) (rebuilt : Bool) :
    Except (Failure WorldError) FrameReport → World σ → Prop where
  | abandoned {culprit : String} {cause : WorldError} {v : World σ}
      (failed : (declare w.systems w).value = (.error (culprit, cause), v)) :
      Played w timing commit rebuilt (.error (.error cause))
        (v.abandon (w.frame + 1) culprit cause).value
  | broken {v w' : World σ} {frame : Nat} {begun : Scheduler σ} {fault : Fault}
      (declared : (declare w.systems w).value = (.ok (), v))
      (begins : v.scheduler.beginPass = (.ok frame, begun))
      (passed : (executeFences timing begun.order [] .none { v with scheduler := begun }).value =
        (.error (.fault fault), w')) :
      Played w timing commit rebuilt (.error (.fault fault)) w'
  | completed {v u : World σ} {frame : Nat} {begun : Scheduler σ} {fences : List FenceReport}
      {life : LifecycleReport} (declared : (declare w.systems w).value = (.ok (), v))
      (begins : v.scheduler.beginPass = (.ok frame, begun))
      (passed : (executeFences timing begun.order [] .none { v with scheduler := begun }).value =
        (.ok (fences, life), u)) :
      Played w timing commit rebuilt
        (.ok { frame
               migrated := commit.migrated.size
               removed := commit.removed.size
               indexRebuilt := rebuilt
               pass := ⟨frame, fences⟩
               lifecycle := life
               elapsed := timing.frame })
        { u with scheduler := u.scheduler.endPass }

theorem played_of_playFrame {timing : Timing} {commit : CommitReport} {rebuilt : Bool}
    {result : Except (Failure WorldError) FrameReport} (settled : Settled (.resting w₀))
    (reached : Reaches w₀ past (.declaring w))
    (ran : (w.playFrame timing commit rebuilt).value = (result, w')) :
    Played w timing commit rebuilt result w' := by
  simp only [playFrame, Logged.value_bind] at ran
  rcases outcome : (declare w.systems w).value with ⟨⟨culprit, cause⟩ | ok, v⟩
  · rw [outcome] at ran
    cases ran
    exact .abandoned outcome
  · obtain ⟨frame, begun, begins⟩ := exists_beginPass (reached.settled settled) outcome
    simp only [outcome, Logged.value_bind, execute, begins] at ran
    rcases passed : (executeFences timing begun.order [] .none { v with scheduler := begun }).value with
      ⟨failure | ⟨fences, life⟩, u⟩
    · -- Once the pass has begun, only a fault can end it.
      rw [passed] at ran
      rcases reaches_of_executeFences settled (reached.step (.declared outcome begins)) passed with
        ⟨fault, same⟩ | ⟨answer, -, same, -⟩
      · cases same
        cases ran
        exact .broken outcome begins passed
      · cases same
    · rw [passed] at ran
      cases ran
      exact .completed outcome begins passed

/-- What a frame does from the declarations on. -/
private theorem reaches_of_playFrame {timing : Timing} {commit : CommitReport} {rebuilt : Bool}
    {result : Except (Failure WorldError) FrameReport} (settled : Settled (.resting w₀))
    (reached : Reaches w₀ past (.declaring w))
    (ran : (w.playFrame timing commit rebuilt).value = (result, w')) :
    (∃ fault, result = .error (.fault fault)) ∨
      ∃ more, Reaches w₀ (past ++ more) (.resting w') ∧
        more.getLast?.map Passage.what = some (ending result) := by
  cases played_of_playFrame settled reached ran with
  | abandoned failed => exact .inr ⟨_, reached.step (.abandoned _ failed), rfl⟩
  | broken => exact .inl ⟨_, rfl⟩
  | @completed v u frame begun fences life declared begins passed =>
    rcases reaches_of_executeFences settled (reached.step (.declared declared begins)) passed with
      ⟨fault, same⟩ | ⟨answer, more, -, reached'⟩
    · cases same
    · have finished := reached'.step (.finished u)
      rw [List.append_assoc, List.append_assoc] at finished
      exact .inr ⟨_, finished, by rw [← List.append_assoc, List.getLast?_concat]; rfl⟩

/-- The first two steps of a frame go through. -/
theorem runFrame_eq (settled : Settled (.resting w)) : ∃ report w₁ scheduler,
    w.commit.value = (.ok report, w₁) ∧
      w₁.refresh.value.2.scheduler.openDeclarations = (.ok (), scheduler) ∧
        ∀ timing, (w.runFrame timing).value =
          (playFrame { w₁.refresh.value.2 with scheduler } timing report w₁.refresh.value.1).value := by
  obtain ⟨report, t, committed, -, -, done⟩ := commit_spec settled.sound
  simp only [Moment.world] at committed
  obtain ⟨u, refreshed, -⟩ := refresh_spec (w := oweChanges { w with shared := t } report) done.sound
  obtain ⟨scheduler, opened⟩ := Scheduler.openDeclarations_of_phase settled.placed
  have opened' : (oweChanges { w with shared := t } report).refresh.value.2.scheduler.openDeclarations =
      (.ok (), scheduler) := by
    rw [refreshed]
    exact opened
  refine ⟨report, _, scheduler, committed, opened', fun timing => ?_⟩
  simp only [runFrame, Logged.value_within, Logged.value_bind, committed, opened']

/-- A frame that ends without a fault is a list of steps; if it answers an error it was abandoned. -/
theorem reaches_of_runFrame {timing : Timing} {result : Except (Failure WorldError) FrameReport}
    (settled : Settled (.resting w₀)) (reached : Reaches w₀ past (.resting w))
    (ran : (w.runFrame timing).value = (result, w')) :
    (∃ fault, result = .error (.fault fault)) ∨
      ∃ more, Reaches w₀ (past ++ more) (.resting w') ∧
        more.getLast?.map Passage.what = some (ending result) := by
  obtain ⟨report, w₁, scheduler, committed, opened, same⟩ :=
    runFrame_eq (reached.settled settled)
  have reached₁ := reached.step (.attempted committed opened)
  rw [same] at ran
  rcases reaches_of_playFrame settled reached₁ ran with fault | ⟨more, reached₂, last⟩
  · exact .inl fault
  · rw [List.append_assoc] at reached₂
    refine .inr ⟨_, reached₂, ?_⟩
    cases more with
    | nil => cases last
    | cons => simpa using last

theorem settled_of_runFrame {timing : Timing} {result : Except (Failure WorldError) FrameReport}
    (settled : Settled (.resting w)) (ran : (w.runFrame timing).value = (result, w'))
    (ended : ∀ fault, result ≠ .error (.fault fault)) : Settled (.resting w') := by
  rcases reaches_of_runFrame settled .start ran with ⟨fault, same⟩ | ⟨more, reached, -⟩
  · exact absurd same (ended fault)
  · exact reached.settled settled

/-! ### Sessions -/

/-- A public call. -/
inductive Call (σ : Type) where
  | create (definition : DefinitionId)
  | createWith (types : List TypeId)
  | destroy (id : EntityId)
  | setPriority (id : EntityId) (priority : Priority)
  | setDefinitionState (definition : DefinitionId) (state : LoadState)
  | access (program : Program (Access.interface σ) Unit)
  | runFrame (timing : Timing)

/-- The world after a call, unless a fault ended it. -/
def Call.make? (w : World σ) : Call σ → Option (World σ)
  | .create d => some (w.create d).2
  | .createWith types => some (w.createWith types).2
  | .destroy id => some (w.destroy id).value.2
  | .setPriority id p => some (w.setPriority id p).2
  | .setDefinitionState d state => some (w.setDefinitionState d state).2
  | .access program => some (w.access program).value.2
  | .runFrame timing =>
    match (w.runFrame timing).value with
    | (.error (.fault _), _) => none
    | (.error (.error _), w) | (.ok _, w) => some w

/-- The calls that are made from the construction of a world on. -/
def session? (config : WorldConfig) (types : List ComponentType) (systems : List (System σ))
    (memory : σ)
    (calls : List (Call σ)) : Option (World σ) :=
  match (World.new config types systems memory).value with
  | .error _ => none
  | .ok w => calls.foldlM Call.make? w

theorem new_of_session? {config : WorldConfig} {types : List ComponentType} {systems : List (System σ)}
    {memory : σ} (made : session? config types systems memory [] = some w) :
    (World.new config types systems memory).value = .ok w := by
  unfold session? at made
  split at made
  · cases made
  next built =>
    cases made
    exact built

theorem reaches_of_call (settled : Settled (.resting w₀)) (reached : Reaches w₀ past (.resting w))
    (call : Call σ) (made : call.make? w = some w') : ∃ more, Reaches w₀ (past ++ more) (.resting w') := by
  cases call with
  | create d =>
    cases made
    exact ⟨_, reached.step (.created w d)⟩
  | createWith types =>
    cases made
    exact ⟨_, reached.step (.createdWith w types)⟩
  | destroy id =>
    cases made
    exact ⟨_, reached.step (.destroyed w id)⟩
  | setPriority id p =>
    cases made
    exact ⟨_, reached.step (.prioritised w id p)⟩
  | setDefinitionState d state =>
    cases made
    exact ⟨_, reached.step (.loaded w d state)⟩
  | access program =>
    cases made
    exact ⟨_, reached.step (.accessed w program)⟩
  | runFrame timing =>
    simp only [Call.make?] at made
    cases ran : (w.runFrame timing).value with
    | mk result after =>
      rw [ran] at made
      rcases reaches_of_runFrame settled reached ran with ⟨fault, rfl⟩ | ⟨more, reached', -⟩
      · cases made
      · refine ⟨more, ?_⟩
        match result with
        | .error (.fault fault) => cases made
        | .error (.error cause) =>
          cases made
          exact reached'
        | .ok report =>
          cases made
          exact reached'

theorem reaches_of_session? {config : WorldConfig} {types : List ComponentType}
    {systems : List (System σ)}
    {memory : σ} {calls : List (Call σ)} (made : session? config types systems memory calls = some w) :
    ∃ w₀ past, (World.new config types systems memory).value = .ok w₀ ∧
      Reaches w₀ past (.resting w) := by
  unfold session? at made
  split at made
  · cases made
  next w₀ built =>
    have all (calls : List (Call σ)) {v : World σ} {past : List (Passage σ)}
        (reached : Reaches w₀ past (.resting v)) (made : calls.foldlM Call.make? v = some w) :
        ∃ past, Reaches w₀ past (.resting w) := by
      induction calls generalizing v past with
      | nil =>
        cases made
        exact ⟨past, reached⟩
      | cons call rest ih =>
        rw [List.foldlM_cons] at made
        obtain ⟨next, first, tail⟩ := Option.bind_eq_some_iff.mp made
        obtain ⟨more, reached'⟩ := reaches_of_call (started_of_new built).settled reached call first
        exact ih reached' tail
    obtain ⟨past, reached⟩ := all calls .start made
    exact ⟨w₀, past, built, reached⟩

/-! ### Two entities are destroyed -/

/-- Creates an entity and asks for the destruction of another. -/
def replaceSecond : Update Nat where
  name := "replaceSecond"
  mode := .concurrent
  reads := []
  writes := [⟨1⟩]
  body _ := do
    let _ ← Access.createWith [⟨1⟩]
    Access.destroy (.ofRaw 2)

/-- Fails to declare in the first attempt at a frame, and declares an update in the second. -/
def failsFirst : System Nat where
  name := "failsFirst"
  setUp := return .ok ()
  declare := do
    match ← Declaration.exchange (· + 1) with
    | 0 => return .error (.unknownDefinition ⟨0⟩)
    | 1 => Declaration.schedule replaceSecond
    | _ => return .ok ()

def ageNameTypes : List ComponentType := [⟨⟨1⟩, "Age", some [0]⟩, ⟨⟨2⟩, "Name", some [0, 0]⟩]

/-- The first of these frames is abandoned; the first entity is destroyed by a call and the second by an
update. -/
def twoDestroyedCalls : List (Call Nat) :=
  [.createWith [⟨1⟩], .createWith [⟨1⟩], .runFrame .zero, .destroy (.ofRaw 1), .runFrame .zero]

def twoDestroyed (more : List (Call Nat)) : Option (World Nat) :=
  session? .singleThreaded ageNameTypes [failsFirst] 0 (twoDestroyedCalls ++ more)

end World

end EntityWorld
