import EntityWorld.Proofs.Fence.Standing

/-!
# When what is declared is run

An execution of a fence calls the callbacks of what stands there, and nothing else, and a pass executes
every fence once, in their order. Main statement: `Scheduler.obeys_of_history`.
-/
namespace EntityWorld.Scheduler

variable {σ : Type} {s s₀ s' : Scheduler σ} {past : List (Entry σ)}

/-! ### What executions call -/

/-- What stands on a fence, serial or concurrent. -/
def standingAt (past : List (Entry σ)) (fence : FenceId) (serial : Bool) : List (Declared σ) :=
  (standing past).filter fun d => d.update.fence = fence && d.update.mode.isSerial == serial

/-- An execution calls the callbacks of what stands on the fence: first the serial ones in the order
they were declared, each with its sub-tasks in order, and then the concurrent ones. -/
structure Runs (tasks : Nat) (past : List (Entry σ)) (fence : FenceId)
    (serial concurrent : List (Callback σ)) : Prop where
  stands : ∀ d, d ∈ standing past ↔ Stands past d
  once : (standing past).Nodup
  inOrder : (standing past).Sublist (past.flatMap Entry.declares)
  serial : serial = (standingAt past fence true).flatMap (·.callbacks tasks)
  concurrent : concurrent.Perm ((standingAt past fence false).flatMap (·.callbacks tasks))

theorem Holds.serial_eq (holds : Holds s₀ (standing past) s) (fence : FenceId) :
    (slotOf (standing past) fence).serial =
      (standingAt past fence true).map Declared.toScheduledUpdate := by
  rw [Fence.serial, holds.queue_eq, List.filter_map, List.filter_filter]
  refine congrArg _ (List.filter_congr fun d _ => ?_)
  simp [Bool.and_comm]

theorem Holds.concurrent_eq (holds : Holds s₀ (standing past) s) (fence : FenceId) :
    (slotOf (standing past) fence).concurrent =
      (standingAt past fence false).map Declared.toScheduledUpdate := by
  rw [Fence.concurrent, holds.queue_eq, List.filter_map, List.filter_filter]
  refine congrArg _ (List.filter_congr fun d _ => ?_)
  simp [Bool.and_comm]

theorem Holds.runs (holds : Holds s₀ (standing past) s) {fence : FenceId} {shared shared' : Shared σ}
    {serial concurrent : List (Callback σ)} (fits : s.Fits shared)
    (executed : Executes s fence shared serial concurrent shared') :
    Runs s₀.tasks past fence serial concurrent ∧ s.Fits shared' := by
  obtain ⟨slot, -, found, rfl, called, fits'⟩ := executed.called holds.admissible fits
  obtain rfl := holds.fence?_eq found
  rw [holds.concurrent_eq, holds.tasks, List.flatMap_map] at called
  rw [holds.serial_eq, holds.tasks, List.flatMap_map]
  exact ⟨{
    stands := fun d => mem_standing_iff
    once := holds.ascending.imp fun less same => Nat.ne_of_lt less (congrArg (fun d : Declared σ => d.sequence) same)
    inOrder := standing_sublist past
    serial := rfl
    concurrent := called }, fits'⟩

/-! ### Passes -/

/-- No fence has more concurrent jobs than can be counted. -/
def Countable (tasks : Nat) (past : List (Entry σ)) : Prop :=
  ∀ fence, total ((standingAt past fence false).map fun d => d.update.mode.taskCount tasks) < wordBound

theorem Countable.spare {tasks : Nat} (countable : Countable tasks past) {entry : Entry σ}
    (nothing : entry.declares = []) : Countable tasks (past ++ [entry]) := by
  intro fence
  refine Nat.lt_of_le_of_lt ?_ (countable fence)
  rw [standingAt, standing_concat, nothing, List.append_nil]
  exact total_sublist ((List.filter_sublist.filter _).map _)

/-- Executions, as entries. -/
def entriesOf (runs : List (FenceId × List (Callback σ) × List (Callback σ))) : List (Entry σ) :=
  runs.map fun (fence, serial, concurrent) => .ran fence serial concurrent

theorem History.runFences (start : Holds s₀ [] s₀) (history : History s₀ past s) (timing : Timing)
    (left : List FenceId) (reports : List FenceReport) {shared : Shared σ}
    (running : s.phase = .running) (fits : s.Fits shared) (inside : ∀ fence ∈ left, fence ∈ s₀.order)
    (countable : Countable s₀.tasks past) : ∃ more s' shared' runs,
      (runFences timing left reports s shared).value = (.ok (reports ++ more), s', shared') ∧
        more.map FenceReport.fence = left ∧ runs.map Prod.fst = left ∧ s'.phase = .running ∧
        History s₀ (past ++ entriesOf runs) s' := by
  induction left generalizing past s reports shared with
  | nil => exact ⟨[], s, shared, [], by simp [Scheduler.runFences], rfl, rfl, running, by
      simpa [entriesOf] using history⟩
  | cons fence rest ih =>
    have holds := history.holds start
    have known : fence ∈ s.order := holds.order ▸ inside fence List.mem_cons_self
    obtain ⟨slot, found⟩ := exists_fence? known
    have few : total (slot.concurrent.map fun d => d.update.mode.taskCount s.tasks) < wordBound := by
      rw [holds.fence?_eq found, holds.concurrent_eq, holds.tasks, List.map_map]
      exact countable fence
    obtain ⟨report, serial, concurrent, shared₁, ran, same, executed⟩ :=
      executes_of_fits running found holds.admissible fits holds.staffed few (timing.fence fence)
    have history₁ := history.call (.ran fits executed)
    have fits₁ : (s.spend fence).Fits shared₁ := by
      rw [holds.spend_eq fence serial concurrent]
      obtain ⟨-, slots, idle⟩ := holds.runs fits executed
      exact ⟨slots, idle⟩
    obtain ⟨more, s', shared', runs, ran', reported, executed', running', history'⟩ :=
      ih history₁ (reports ++ [report]) ((samePlan_spend s fence).phase.trans running) fits₁
        (fun other later => inside other (List.mem_cons_of_mem _ later)) (countable.spare rfl)
    refine ⟨report :: more, s', shared', (fence, serial, concurrent) :: runs, ?_, ?_, ?_, running', ?_⟩
    · rw [Scheduler.runFences, Logged.value_bind, ran]
      simpa using ran'
    · rw [List.map_cons, same, reported]
    · rw [List.map_cons, executed']
    · simpa [entriesOf] using history'

theorem History.runPass (start : Holds s₀ [] s₀) (history : History s₀ past s) (timing : Timing)
    {shared : Shared σ} (ready : s.phase = .acceptingUpdates ∨ s.phase = .steady)
    (fits : s.Fits shared) (countable : Countable s₀.tasks past) : ∃ reports s' shared' runs,
      (s.runPass timing shared).value = (.ok ⟨s.frame + 1, reports⟩, s', shared') ∧
        reports.map FenceReport.fence = s₀.order ∧ runs.map Prod.fst = s₀.order ∧
        s'.phase = .steady ∧
        History s₀ (past ++ .other :: entriesOf runs ++ [.other]) s' := by
  have begun : s.beginPass =
      (.ok (s.frame + 1), { s with phase := .running, frame := s.frame + 1 }) := by
    have allowed : s.expectPhase [.acceptingUpdates, .steady] "begin_pass" = .ok () :=
      if_pos (by simpa using ready)
    rw [beginPass, allowed]
  have history₁ := history.call (.begun s)
  rw [begun] at history₁
  have holds₁ := history₁.holds start
  obtain ⟨reports, s₂, shared₂, runs, ran, reported, executed, running, history₂⟩ :=
    history₁.runFences start timing s₀.order [] rfl ⟨fits.slots, fits.idle⟩
      (fun _ member => member) (countable.spare rfl)
  refine ⟨reports, s₂.endPass, shared₂, runs, ?_, reported, executed, ?_, ?_⟩
  · simp only [Scheduler.runPass, begun, Logged.value_bind]
    rw [holds₁.order, ran]
    rfl
  · rw [endPass, if_pos running]
  · have history₃ := history₂.call (.ended s₂)
    simpa using history₃

/-! ### All calls -/

/-- What holds after any calls. -/
structure Obeys (s₀ : Scheduler σ) (past : List (Entry σ)) (s : Scheduler σ) : Prop where
  runs : ∀ before fence serial concurrent after,
    past = before ++ .ran fence serial concurrent :: after →
      Runs s₀.tasks before fence serial concurrent
  names : ((s.fences.flatMap Fence.constants).map fun d => d.update.name).Nodup
  stops : ∀ name s', (s.stopConstant name).value = (.ok (), s') → s'.hasConstant name = false
  passes : ∀ timing shared, s.phase = .acceptingUpdates ∨ s.phase = .steady → s.Fits shared →
    Countable s₀.tasks past → ∃ reports s' shared' runs,
      (s.runPass timing shared).value = (.ok ⟨s.frame + 1, reports⟩, s', shared') ∧
        reports.map FenceReport.fence = s₀.order ∧ runs.map Prod.fst = s₀.order ∧
        s'.phase = .steady ∧
        History s₀ (past ++ .other :: entriesOf runs ++ [.other]) s'

theorem Call.executed {entry : Entry σ} (call : Call s entry s') {fence : FenceId}
    {serial concurrent : List (Callback σ)} (same : entry = .ran fence serial concurrent) :
    ∃ shared shared', s.Fits shared ∧ Executes s fence shared serial concurrent shared' := by
  have unlike {result : Except FenceError Unit} {accepted : Entry σ}
      (different : accepted ≠ .ran fence serial concurrent) :
      Entry.of result accepted ≠ .ran fence serial concurrent := by
    unfold Entry.of
    split
    · nofun
    · exact different
  cases call with
  | ran fits executed =>
    cases same
    exact ⟨_, _, fits, executed⟩
  | scheduled | started | stopped => exact absurd same (unlike nofun)
  | _ => cases same

theorem History.runs (start : Holds s₀ [] s₀) (history : History s₀ past s)
    (before : List (Entry σ)) (fence : FenceId) (serial concurrent : List (Callback σ))
    (after : List (Entry σ)) (split : past = before ++ .ran fence serial concurrent :: after) :
    Runs s₀.tasks before fence serial concurrent := by
  induction history generalizing after with
  | start => simp at split
  | @call past s s' entry history call ih =>
    rcases after.eq_nil_or_concat with rfl | ⟨after, last, rfl⟩
    · obtain ⟨rfl, same⟩ := List.append_inj' split rfl
      obtain rfl := List.singleton_inj.mp same
      obtain ⟨shared, shared', fits, executed⟩ := call.executed rfl
      exact ((history.holds start).runs fits executed).1
    · rw [List.concat_eq_append, ← List.cons_append, ← List.append_assoc] at split
      exact ih after (List.append_inj' split rfl).1

theorem Holds.stops {stands : List (Declared σ)} (holds : Holds s₀ stands s) {name : String}
    (stopped : (s.stopConstant name).value = (.ok (), s')) : s'.hasConstant name = false := by
  rcases holds.stopConstant name with ⟨cause, refused⟩ | ⟨t, accepted, holds'⟩
  · cases stopped.symm.trans refused
  · cases stopped.symm.trans accepted
    refine Bool.eq_false_iff.mpr fun still => ?_
    obtain ⟨d, known, constant, same⟩ := holds'.hasConstant_iff.mp still
    have ended := (List.mem_filter.mp known).2
    simp [Entry.ends, constant, same] at ended

/-- Whatever calls are made once the order is frozen, declared updates run exactly when they should. -/
theorem obeys_of_history {config : WorldConfig} {kindCount : Nat} {r : Scheduler σ}
    (registering : Registering config kindCount r) (frozen : r.finalize.value = (.ok (), s₀))
    (history : History s₀ past s) : Obeys s₀ past s := by
  have start := holds_of_registering registering frozen
  have holds := history.holds start
  exact
    { runs := history.runs start
      names := holds.nodup_names
      stops := fun _ _ stopped => holds.stops stopped
      passes := fun timing _ ready fits countable =>
        history.runPass start timing ready fits countable }

/-! ### A pass with two updates -/

/-- A scheduler that no fences were asked of. -/
def noRequests : Scheduler (List (String × Nat)) := (fresh .singleThreaded 0).finalize.value.2

def serialNote : Update (List (String × Nat)) := Batch.noting "serialNote" .serial [] []

def oneShot : Update (List (String × Nat)) := Batch.noting "oneShot" .concurrent [] []

/-- A constant update and a one-shot are declared, and the pass runs both on their fence. -/
theorem obeys_of_constantAndOneShot : ∃ (register unregister : List (Callback (List (String × Nat))) ×
      List (Callback (List (String × Nat)))) (s : Scheduler (List (String × Nat))),
    Registering .singleThreaded 0 (fresh .singleThreaded 0 : Scheduler (List (String × Nat))) ∧
      (fresh .singleThreaded 0).finalize.value = (.ok (), noRequests) ∧
        Obeys noRequests [.declared ⟨⟨serialNote, 0⟩, true⟩, .declared ⟨⟨oneShot, 1⟩, false⟩, .other,
          .ran .register register.1 register.2, .ran .update [⟨⟨serialNote, 0⟩, 0⟩] [⟨⟨oneShot, 1⟩, 0⟩],
          .ran .unregister unregister.1 unregister.2, .other] s := by
  have frozen : (fresh .singleThreaded 0).finalize.value = (.ok (), noRequests) := rfl
  have start := holds_of_registering .begun frozen
  have calm {name : String} {mode : UpdateMode} : (Batch.noting name mode [] []).Calm :=
    fun context => ⟨fun call => nofun, fun _ => trivial⟩
  have started : (noRequests.startConstant serialNote).value.1 = .ok () := by decide +kernel
  have scheduled : ((noRequests.startConstant serialNote).value.2.schedule oneShot).value.1 =
      .ok () := by
    decide +kernel
  have number : (noRequests.startConstant serialNote).value.2.nextSequence = 1 := by decide +kernel
  have history := (History.start.call (.started noRequests serialNote calm)).call
    (.scheduled _ oneShot calm)
  rw [started, scheduled, number] at history
  have fits : ((noRequests.startConstant serialNote).value.2.schedule oneShot).value.2.Fits
      (.ofRegistry .empty []) := fits_ofRegistry _ _ _ (by decide +kernel)
  have countable : Countable noRequests.tasks
      [.declared ⟨⟨serialNote, 0⟩, true⟩, .declared ⟨⟨oneShot, 1⟩, false⟩] := fun fence =>
    Nat.lt_of_le_of_lt (total_sublist (List.filter_sublist.map _)) (by decide +kernel)
  obtain ⟨reports, s, shared, runs, -, -, order, -, passed⟩ :=
    history.runPass start .zero (.inl (by decide +kernel)) fits countable
  match runs, order with
  | [(_, register), (_, serial, concurrent), (_, unregister)], rfl =>
    have obeys := obeys_of_history .begun frozen passed
    obtain ⟨-, -, -, same, called⟩ := obeys.runs
      [.declared ⟨⟨serialNote, 0⟩, true⟩, .declared ⟨⟨oneShot, 1⟩, false⟩, .other,
        .ran .register register.1 register.2] _ _ _ _ rfl
    obtain rfl : serial = [⟨⟨serialNote, 0⟩, 0⟩] := same
    obtain rfl : concurrent = [⟨⟨oneShot, 1⟩, 0⟩] := List.perm_singleton.mp called
    exact ⟨register, unregister, s, .begun, frozen, obeys⟩

end EntityWorld.Scheduler
