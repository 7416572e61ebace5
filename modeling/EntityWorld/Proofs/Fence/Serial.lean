import EntityWorld.Proofs.Fence.Columns
import EntityWorld.Proofs.Fence.Completion
import Mathlib.Logic.Function.Basic

/-!
# Serial executions of a batch

Seen from the components, a run is the accesses that its jobs make, one after another, each answered
from what is shared then. A `Scene` knows no more than that: no frame thread, no queue and no locks,
only what every job has still to do, and any job may make its next access. In a scene the accesses of
a run can be played update by update, in the order of admission, with every answer the same and the
same components at the end: an access made while its update is in flight does not conflict with those
of any update admitted later, so it moves before them.

Main statement: `serializable_of_run`.
-/
namespace EntityWorld.Batch

variable {σ : Type} {b : Batch σ} {s t : State σ} {move : Move} {kindCount : Nat}
  {moves : List (State σ × Move)} {shared : Shared σ}

/-- An access that a job made, and what it was answered. -/
structure Act (σ : Type) where
  job : Job
  command : Access.Request σ
  answer : Access.Answer command

/-- The access that a worker makes with a move. -/
def acted : State σ × Move → List (Act σ)
  | (s, .work worker) =>
    match s.running[worker]? with
    | some (job, .call command _) => [⟨job, command, (Access.perform command s.shared).value.1⟩]
    | _ => []
  | (_, .frame) | (_, .take) => []

/-- The update that the frame thread admits with a move. -/
def admitted (b : Batch σ) : State σ × Move → List Nat
  | (s, move) =>
    match s.control, (b.step? s move).map fun next => next.value.control with
    | .admitting place, some (Control.sending _ _) => [place]
    | _, _ => []

/-- The accesses of the update at a place, in their own order. -/
def actsOf (acts : List (Act σ)) (place : Nat) : List (Act σ) :=
  acts.filter fun act => act.job.update = place

/-- The accesses of a run, update by update, in the order of admission. -/
def serialised (b : Batch σ) (moves : List (State σ × Move)) : List (Act σ) :=
  (moves.flatMap (admitted b)).flatMap (actsOf (moves.flatMap acted))

/-! ### Scenes -/

/-- What every job has still to do, and what they share. -/
structure Scene (σ : Type) where
  left : Job → Program (Access.interface σ) Unit
  shared : Shared σ

/-- One job makes its next access. -/
def Gives (before : Scene σ) (act : Act σ) (after : Scene σ) : Prop :=
  ∃ next, before.left act.job = .call act.command next ∧
    (Access.perform act.command before.shared).value = (act.answer, after.shared) ∧
    after.left = Function.update before.left act.job (next act.answer)

/-- Accesses made one after another. -/
inductive Plays : Scene σ → List (Act σ) → Scene σ → Prop where
  | nil {scene : Scene σ} : Plays scene [] scene
  | cons {before middle after : Scene σ} {act : Act σ} {acts : List (Act σ)}
      (gives : Gives before act middle) (plays : Plays middle acts after) :
      Plays before (act :: acts) after

theorem plays_append {before after : Scene σ} {first second : List (Act σ)} :
    Plays before (first ++ second) after ↔
      ∃ middle, Plays before first middle ∧ Plays middle second after := by
  induction first generalizing before with
  | nil =>
    constructor
    · intro plays
      exact ⟨before, .nil, plays⟩
    · rintro ⟨middle, plays, rest⟩
      cases plays
      exact rest
  | cons act acts ih =>
    constructor
    · intro plays
      cases plays with
      | cons gives plays =>
        obtain ⟨middle, early, late⟩ := ih.mp plays
        exact ⟨middle, .cons gives early, late⟩
    · rintro ⟨middle, plays, late⟩
      cases plays with
      | cons gives early => exact .cons gives (ih.mpr ⟨middle, early, late⟩)

/-! ### Swapping accesses -/

/-- An access that an update has declared. -/
def Declares (b : Batch σ) (act : Act σ) (u : Update σ) : Prop :=
  b.updates[act.job.update]? = some u ∧ Access.Within u.reads u.writes act.command

/-- Two accesses of different jobs can be swapped if their updates do not conflict. -/
theorem Gives.swap {before middle after : Scene σ} {first second : Act σ} {u v : Update σ}
    (gives : Gives before first middle) (gives' : Gives middle second after)
    (jobs : first.job ≠ second.job) (within : Access.Within u.reads u.writes first.command)
    (within' : Access.Within v.reads v.writes second.command) (apart : ¬ u.Conflicts v) :
    ∃ other, Gives before second other ∧ Gives other first after := by
  obtain ⟨next, at_, answered, left⟩ := gives
  obtain ⟨next', at_', answered', left'⟩ := gives'
  have shared : middle.shared = (Access.perform first.command before.shared).value.2 := by
    rw [answered]
  -- Each is answered as if the other had not been there, and the order does not show afterwards.
  have same := Access.answer_of_not_conflicts within within' apart before.shared
  have same' := Access.answer_of_not_conflicts within' within
    (fun conflict => apart conflict.symm) before.shared
  have state := Access.state_of_not_conflicts within within' apart before.shared
  rw [← shared, answered'] at same state
  refine ⟨⟨Function.update before.left second.job (next' second.answer),
    (Access.perform second.command before.shared).value.2⟩, ?_, ?_⟩
  · rw [left, Function.update_of_ne jobs.symm] at at_'
    exact ⟨next', at_', Prod.ext same.symm rfl, rfl⟩
  · refine ⟨next, ?_, ?_, ?_⟩
    · rw [← at_]
      exact Function.update_of_ne jobs _ _
    · exact Prod.ext (by rw [same', answered]) state.symm
    · rw [left', left]
      exact Function.update_comm jobs _ _ _

/-- An access moves before those of updates that do not conflict with its own. -/
theorem Plays.moved {before middle after : Scene σ} {acts : List (Act σ)} {act : Act σ}
    {v : Update σ} (plays : Plays before acts middle) (gives : Gives middle act after)
    (within : Access.Within v.reads v.writes act.command)
    (apart : ∀ other ∈ acts, other.job ≠ act.job ∧
      ∃ u : Update σ, Access.Within u.reads u.writes other.command ∧ ¬ u.Conflicts v) :
    Plays before (act :: acts) after := by
  -- By induction on the accesses before it: it passes the last of them first.
  induction plays with
  | nil => exact .cons gives .nil
  | @cons before _ _ first acts gives' plays ih =>
    have rest := ih gives fun other member => apart other (List.mem_cons_of_mem first member)
    obtain ⟨jobs, u, within', free⟩ := apart first List.mem_cons_self
    cases rest with
    | cons passed plays =>
      obtain ⟨other, early, late⟩ := gives'.swap passed jobs within' within free
      exact .cons early (.cons late plays)

/-! ### What a run has admitted -/

/-- The order of admission, against the stages. -/
structure Ordered (b : Batch σ) (order : List Nat) (s : State σ) : Prop where
  distinct : order.Nodup
  listed : ∀ place, place ∈ order ↔ ∃ stage, s.stages[place]? = some stage ∧ stage ≠ .waiting
  -- What was admitted later does not conflict with what is still in flight.
  clear : order.Pairwise fun place later => ∀ remaining u v,
    s.stages[place]? = some (.inFlight remaining) → b.updates[place]? = some u →
      b.updates[later]? = some v → ¬ u.Conflicts v

theorem ordered_start (b : Batch σ) (shared : Shared σ) : Ordered b [] (b.start shared) where
  distinct := .nil
  listed := by
    intro place
    simp only [start, List.getElem?_map, List.not_mem_nil, false_iff]
    rintro ⟨stage, found, passed⟩
    cases here : b.updates[place]? <;> simp_all
  clear := .nil

theorem admitted_eq_nil {next : Logged (State σ)} (made : b.step? s move = some next)
    (onward : ∀ place, s.control = .admitting place → next.value.control.Idle) :
    admitted b (s, move) = [] := by
  simp only [admitted, made, Option.map_some]
  split
  next place sender task at_ sending =>
    exact absurd (Option.some.inj sending) (onward place at_ sender task)
  next => rfl

theorem admitted_eq_singleton {next : Logged (State σ)} (made : b.step? s move = some next)
    (place : Nat) (at_ : s.control = .admitting place)
    (sending : next.value.control = .sending place 0) : admitted b (s, move) = [place] := by
  simp only [admitted, made, Option.map_some, at_, sending]

/-- Settling a signal admits nothing, and keeps no other update in flight than before. -/
private theorem Ordered.turned {order : List Nat} {place : Nat} {old new : Stage}
    (ordered : Ordered b order s) (here : s.stages[place]? = some old) (passed : old ≠ .waiting)
    (stages : t.stages = s.stages.set place new) (onward : new ≠ .waiting)
    (less : ∀ remaining, new = .inFlight remaining → ∃ remaining, old = .inFlight remaining) :
    Ordered b order t := by
  obtain ⟨inside, -⟩ := List.getElem?_eq_some_iff.mp here
  refine ⟨ordered.distinct, fun other => ?_, ?_⟩
  · rw [ordered.listed, stages]
    by_cases same : place = other
    · subst same
      rw [here, List.getElem?_set_self inside]
      simp [passed, onward]
    · rw [List.getElem?_set_ne same]
  · refine ordered.clear.imp fun {first later} clear remaining u v flies => ?_
    rw [stages] at flies
    by_cases same : place = first
    · subst same
      rw [List.getElem?_set_self inside] at flies
      obtain ⟨before, rfl⟩ := less remaining (Option.some.inj flies)
      exact clear before u v here
    · rw [List.getElem?_set_ne same] at flies
      exact clear remaining u v flies

theorem Ordered.step {order : List Nat} {next : Logged (State σ)}
    (guard : Guarded b kindCount next.value) (ordered : Ordered b order s)
    (made : b.step? s move = some next) :
    Ordered b (order ++ admitted b (s, move)) next.value := by
  have step := step_of_step? made
  have none := admitted_eq_nil made
  have one := admitted_eq_singleton made
  generalize next.value = t at step guard none one ⊢
  -- Whatever admits nothing and changes no stage leaves the order as it is.
  have same (stages : t.stages = s.stages)
      (onward : ∀ place, s.control = .admitting place → t.control.Idle) :
      Ordered b (order ++ admitted b (s, move)) t := by
    rw [none onward, List.append_nil]
    exact ⟨ordered.distinct, by simpa only [stages] using ordered.listed,
      by simpa only [stages] using ordered.clear⟩
  cases step with
  | passed at_ _ _ | refused at_ _ _ _ _ | misused at_ _ _ => exact same rfl fun _ _ => nofun
  | @admitted place u locks at_ found waiting room taken =>
    obtain ⟨inside, -⟩ := List.getElem?_eq_some_iff.mp waiting
    have fresh : place ∉ order := by
      rw [ordered.listed, waiting]
      rintro ⟨stage, same, passed⟩
      exact passed (Option.some.inj same).symm
    have elsewhere {other : Nat} (member : other ∈ order) : place ≠ other := by
      rintro rfl
      exact fresh member
    rw [one place at_ rfl]
    refine ⟨?_, fun other => ?_, ?_⟩
    · refine List.nodup_append.mpr ⟨ordered.distinct, List.nodup_singleton place, ?_⟩
      intro other member new last
      obtain rfl := List.mem_singleton.mp last
      exact (elsewhere member).symm
    · rw [List.mem_append, List.mem_singleton]
      by_cases same : place = other
      · subst same
        simp [inside]
      · rw [List.getElem?_set_ne same, ← ordered.listed]
        exact or_iff_left fun equal => same equal.symm
    · -- Those in flight hold their locks, so the new one does not conflict with them.
      refine List.pairwise_append.mpr ⟨?_, List.pairwise_singleton _ _, ?_⟩
      · refine ordered.clear.imp_of_mem fun {first later} member _ clear remaining v w flies => ?_
        rw [List.getElem?_set_ne (elsewhere member)] at flies
        exact clear remaining v w flies
      · intro first member later new remaining v w flies found' found''
        obtain rfl := List.mem_singleton.mp new
        exact guard.apart (elsewhere member).symm found' found'' flies
          (List.getElem?_set_self inside)
  | scanned at_ past => exact same rfl fun _ _ => idle_of_scanned s
  | sent at_ more | launched at_ last =>
    refine same rfl fun place admitting => ?_
    rw [at_] at admitting
    cases admitting
  | counted at_ signalled owed more =>
    rw [none fun _ _ => nofun, List.append_nil]
    exact ordered.turned owed nofun rfl nofun fun _ _ => ⟨_, rfl⟩
  | finished at_ signalled found owed given =>
    rw [none fun _ _ => nofun, List.append_nil]
    exact ordered.turned owed nofun rfl nofun nofun
  | unheld at_ signalled found owed given =>
    rw [none fun _ _ => nofun, List.append_nil]
    exact ordered.turned owed nofun rfl nofun fun _ _ => ⟨_, rfl⟩
  | unowed at_ signalled nothing => exact same rfl fun _ _ => nofun
  | drained at_ empty => exact same rfl fun _ _ => idle_afterSignals s
  | took queued idle => exact same rfl fun _ at_ => idle_of_admitting at_
  | signalled at_ | commanded at_ => exact same rfl fun _ at_ => idle_of_admitting at_

/-! ### The order of accesses -/

/-- An update that has made no access adds nothing at the end of the order. -/
private theorem flatMap_actsOf_fresh {order more : List Nat} {acts : List (Act σ)}
    (distinct : (order ++ more).Nodup) (known : ∀ act ∈ acts, act.job.update ∈ order) :
    (order ++ more).flatMap (actsOf acts) = order.flatMap (actsOf acts) := by
  have nothing : more.flatMap (actsOf acts) = [] := by
    simp only [List.flatMap_eq_nil_iff, actsOf, List.filter_eq_nil_iff, decide_eq_true_eq]
    rintro place member act acted rfl
    exact List.disjoint_of_nodup_append distinct (known act acted) member
  rw [List.flatMap_append, nothing, List.append_nil]

/-- A new access goes to the end of its update's accesses, before those of updates admitted later. -/
private theorem flatMap_actsOf_concat {order : List Nat} {act : Act σ} (acts : List (Act σ))
    (distinct : order.Nodup) (member : act.job.update ∈ order) :
    ∃ early late front, order = early ++ act.job.update :: late ∧
      order.flatMap (actsOf acts) = front ++ late.flatMap (actsOf acts) ∧
      order.flatMap (actsOf (acts ++ [act])) = front ++ act :: late.flatMap (actsOf acts) := by
  obtain ⟨early, late, rfl⟩ := List.append_of_mem member
  have absent : act.job.update ∉ early ++ late := (List.nodup_middle.mp distinct).notMem
  have elsewhere {places : List Nat} (within : places ⊆ early ++ late) :
      places.flatMap (actsOf (acts ++ [act])) = places.flatMap (actsOf acts) := by
    refine List.flatMap_congr fun place inside => ?_
    have other : act.job.update ≠ place := by
      rintro rfl
      exact absent (within inside)
    simp [actsOf, List.filter_append, other]
  refine ⟨early, late, early.flatMap (actsOf acts) ++ actsOf acts act.job.update, rfl, ?_, ?_⟩
  · simp
  · rw [List.flatMap_append, List.flatMap_cons, elsewhere (List.subset_append_left _ _),
      elsewhere (List.subset_append_right _ _)]
    simp [actsOf, List.filter_append]

/-! ### Playing a run -/

/-- Callbacks make the accesses that their updates declare, and no others. -/
def Declared (b : Batch σ) : Prop :=
  ∀ u ∈ b.updates, ∀ context, (u.body context).Only (Access.Within u.reads u.writes)

/-- The scene before anything has run. -/
def scene (b : Batch σ) (shared : Shared σ) : Scene σ := ⟨b.program, shared⟩

/-- What a scene shows of the state that a run has reached. -/
structure Shows (b : Batch σ) (moves : List (State σ × Move)) (s : State σ) (locks : LockTable)
    (scene : Scene σ) : Prop where
  running : ∀ job program, (job, program) ∈ s.running → scene.left job = program
  fresh : ∀ job, job ∉ moves.flatMap began → scene.left job = b.program job
  finished : ∀ job ∈ moves.flatMap ended, scene.left job = .done ()
  shared : scene.shared = { s.shared with locks }

/-- A run played in a scene, as it was and update by update. -/
structure Played (b : Batch σ) (moves : List (State σ × Move)) (s : State σ) (shared : Shared σ)
    (scene : Scene σ) : Prop where
  shows : Shows b moves s shared.locks scene
  keeps : ∀ entry ∈ s.running, ∃ u, b.updates[entry.1.update]? = some u ∧
    entry.2.Only (Access.Within u.reads u.writes)
  declares : ∀ act ∈ moves.flatMap acted, act.job.update ∈ moves.flatMap (admitted b) ∧
    ∃ u, Declares b act u
  perm : (serialised b moves).Perm (moves.flatMap acted)
  plays : Plays (b.scene shared) (moves.flatMap acted) scene
  serial : Plays (b.scene shared) (serialised b moves) scene

theorem played_start (b : Batch σ) (shared : Shared σ) :
    Played b [] (b.start shared) shared (b.scene shared) where
  shows := ⟨by simp [start], fun _ _ => rfl, by simp, rfl⟩
  keeps := by simp [start]
  declares := by simp
  perm := .refl []
  plays := .nil
  serial := .nil

/-- Nothing is begun twice: a job that runs is neither queued nor finished. -/
theorem Tallied.running {job : Job} {program : Program (Access.interface σ) Unit}
    (tally : Tallied b moves s) (member : (job, program) ∈ s.running) :
    job ∈ moves.flatMap began ∧ job ∉ moves.flatMap ended := by
  have runs : 0 < (s.running.map Prod.fst).count job :=
    List.count_pos_iff.mpr (List.mem_map_of_mem member)
  have sent := tally.sent job
  have begun := tally.begun job
  rw [jobsOut, List.count_append] at sent
  refine ⟨List.count_pos_iff.mp (by omega), List.count_eq_zero.mp ?_⟩
  split at sent <;> omega

theorem Tallied.queued {job : Job} (tally : Tallied b moves s) (member : job ∈ s.queue) :
    job ∉ moves.flatMap began := by
  have waits : 0 < s.queue.count job := List.count_pos_iff.mpr member
  have sent := tally.sent job
  have begun := tally.begun job
  rw [jobsOut, List.count_append] at sent
  refine List.count_eq_zero.mp ?_
  split at sent <;> omega

theorem Tallied.distinct (tally : Tallied b moves s) : (s.running.map Prod.fst).Nodup := by
  refine List.nodup_iff_count.mpr fun job => ?_
  have sent := tally.sent job
  rw [jobsOut, List.count_append] at sent
  split at sent <;> omega

/-- The frame thread changes nothing of a scene: it has the locks to itself. -/
private theorem Shows.frame {locks : LockTable} {scene : Scene σ} (shows : Shows b moves s locks scene)
    (running : t.running = s.running)
    (same : ({ t.shared with locks } : Shared σ) = { s.shared with locks }) :
    Shows b (moves ++ [(s, .frame)]) t locks scene where
  running := by simpa only [running] using shows.running
  fresh := by simpa [began] using shows.fresh
  finished := by simpa [ended] using shows.finished
  shared := by rw [same, shows.shared]

/-- Only an access changes the scene. -/
theorem Shows.still {locks : LockTable} {scene : Scene σ} (shows : Shows b moves s locks scene)
    (tally : Tallied b moves s) (step : Step b s move t) (quiet : acted (s, move) = []) :
    Shows b (moves ++ [(s, move)]) t locks scene := by
  cases step with
  | @took job queue queued idle =>
    have waits : job ∈ s.queue := by simp [queued]
    refine ⟨fun job' program member => ?_, fun job' fresh => ?_, ?_, shows.shared⟩
    · rcases List.mem_append.mp member with old | new
      · exact shows.running job' program old
      · obtain ⟨rfl, rfl⟩ := Prod.mk.inj (List.mem_singleton.mp new)
        exact shows.fresh job' (tally.queued waits)
    · rw [List.flatMap_append, List.mem_append, not_or] at fresh
      exact shows.fresh job' fresh.1
    · simpa [ended] using shows.finished
  | @signalled worker job at_ =>
    have runs : (job, .done ()) ∈ s.running := List.mem_of_getElem? at_
    refine ⟨fun job' program member => ?_, ?_, fun job' finished => ?_, shows.shared⟩
    · exact shows.running job' program (List.mem_of_mem_eraseIdx member)
    · simpa [began] using shows.fresh
    · simp only [List.flatMap_append, List.flatMap_cons, List.flatMap_nil, ended, at_,
        List.append_nil, List.mem_append, List.mem_singleton] at finished
      rcases finished with before | rfl
      · exact shows.finished job' before
      · exact shows.running job' _ runs
  | commanded at_ => simp [acted, at_] at quiet
  | _ => exact shows.frame rfl rfl

/-- An access of the run is an access in the scene. -/
theorem Shows.gives {locks : LockTable} {scene : Scene σ} {worker : Nat} {job : Job}
    {command : Access.Request σ} {next : Access.Answer command → Program (Access.interface σ) Unit}
    {reads writes : List Kind} (shows : Shows b moves s locks scene) (tally : Tallied b moves s)
    (at_ : s.running[worker]? = some (job, .call command next))
    (within : Access.Within reads writes command) :
    ∃ after, Gives scene ⟨job, command, (Access.perform command s.shared).value.1⟩ after ∧
      Shows b (moves ++ [(s, .work worker)])
        { s with
          running := s.running.set worker (job, next (Access.perform command s.shared).value.1)
          shared := (Access.perform command s.shared).value.2 } locks after := by
  have runs : (job, .call command next) ∈ s.running := List.mem_of_getElem? at_
  have performed := Access.perform_locks within.aloof s.shared locks
  rw [← shows.shared] at performed
  generalize rest : next (Access.perform command s.shared).value.1 = program
  refine ⟨⟨Function.update scene.left job program, _⟩,
    ⟨next, shows.running job _ runs, performed, by rw [← rest]⟩, ?_, fun other fresh => ?_,
    fun other finished => ?_, rfl⟩
  · intro other program' member
    have keys : ((s.running.set worker (job, program)).map Prod.fst).Nodup := by
      rw [map_fst_set program at_]
      exact tally.distinct
    have new : (job, program) ∈ s.running.set worker (job, program) := by
      obtain ⟨inside, -⟩ := List.getElem?_eq_some_iff.mp at_
      exact List.mem_set inside _
    by_cases same : other = job
    · -- A job runs at one place only, and there it has gone on.
      subst same
      obtain rfl : program' = program := by
        have := List.inj_on_of_nodup_map keys member new rfl
        exact (Prod.mk.inj this).2
      exact Function.update_self _ _ _
    · refine (Function.update_of_ne same _ _).trans ?_
      rcases List.mem_or_eq_of_mem_set member with old | equal
      · exact shows.running other program' old
      · exact absurd (Prod.mk.inj equal).1 same
  · have started := (tally.running runs).1
    have before : other ∉ moves.flatMap began := by simpa [began] using fresh
    have different : other ≠ job := by
      rintro rfl
      exact before started
    exact (Function.update_of_ne different _ _).trans (shows.fresh other before)
  · have unfinished := (tally.running runs).2
    have before : other ∈ moves.flatMap ended := by simpa [ended, at_] using finished
    have different : other ≠ job := by
      rintro rfl
      exact unfinished before
    exact (Function.update_of_ne different _ _).trans (shows.finished other before)

/-- What is left of a running job keeps to what its update declares. -/
private theorem keeps_step (declared : Declared b) (account : Accounted b s)
    (keeps : ∀ entry ∈ s.running, ∃ u, b.updates[entry.1.update]? = some u ∧
      entry.2.Only (Access.Within u.reads u.writes))
    (step : Step b s move t) :
    ∀ entry ∈ t.running, ∃ u, b.updates[entry.1.update]? = some u ∧
      entry.2.Only (Access.Within u.reads u.writes) := by
  cases step with
  | @took job queue queued idle =>
    intro entry member
    rcases List.mem_append.mp member with old | new
    · exact keeps entry old
    · obtain rfl := List.mem_singleton.mp new
      have out : job ∈ jobsOut s := by simp [jobsOut, queued]
      obtain ⟨remaining, owed⟩ :=
        account.inFlight_of_out (List.mem_append_left _ (List.mem_map_of_mem out))
      obtain ⟨u, found⟩ := account.update_of_stage owed
      refine ⟨u, found, ?_⟩
      simp only [program, found]
      exact declared u (List.mem_of_getElem? found) _
  | signalled at_ => exact fun entry member => keeps entry (List.mem_of_mem_eraseIdx member)
  | @commanded worker job command next at_ =>
    intro entry member
    obtain ⟨u, found, only⟩ := keeps _ (List.mem_of_getElem? at_)
    rcases List.mem_or_eq_of_mem_set member with old | rfl
    · exact keeps entry old
    · exact ⟨u, found, only.2 _⟩
  | _ => exact keeps

/-- A move that makes no access leaves everything as it was played. -/
private theorem Played.still {scene : Scene σ} (played : Played b moves s shared scene)
    (declared : Declared b) (account : Accounted b s) (tally : Tallied b moves s)
    (distinct : ((moves ++ [(s, move)]).flatMap (admitted b)).Nodup) (step : Step b s move t)
    (quiet : acted (s, move) = []) : Played b (moves ++ [(s, move)]) t shared scene := by
  have acts : (moves ++ [(s, move)]).flatMap acted = moves.flatMap acted := by simp [quiet]
  have serial : serialised b (moves ++ [(s, move)]) = serialised b moves := by
    rw [List.flatMap_append] at distinct
    rw [serialised, acts, List.flatMap_append]
    exact flatMap_actsOf_fresh distinct fun act member => (played.declares act member).1
  refine ⟨played.shows.still tally step quiet, keeps_step declared account played.keeps step,
    ?_, ?_, ?_, ?_⟩
  · intro act member
    rw [acts] at member
    obtain ⟨listed, declares⟩ := played.declares act member
    rw [List.flatMap_append]
    exact ⟨List.mem_append_left _ listed, declares⟩
  · rw [acts, serial]
    exact played.perm
  · rw [acts]
    exact played.plays
  · rw [serial]
    exact played.serial

/-- An access is played at the end of the run, and before those of updates admitted later. -/
private theorem Played.commanded {scene : Scene σ} {worker : Nat} {job : Job}
    {command : Access.Request σ} {next : Access.Answer command → Program (Access.interface σ) Unit}
    (played : Played b moves s shared scene) (declared : Declared b) (account : Accounted b s)
    (tally : Tallied b moves s) (ordered : Ordered b (moves.flatMap (admitted b)) s)
    (none : admitted b (s, .work worker) = [])
    (at_ : s.running[worker]? = some (job, .call command next)) :
    ∃ scene, Played b (moves ++ [(s, .work worker)])
      { s with
        running := s.running.set worker (job, next (Access.perform command s.shared).value.1)
        shared := (Access.perform command s.shared).value.2 } shared scene := by
  obtain ⟨u, found, only⟩ := played.keeps _ (List.mem_of_getElem? at_)
  obtain ⟨after, gives, shows⟩ := played.shows.gives tally at_ only.1
  generalize same : (⟨job, command, (Access.perform command s.shared).value.1⟩ : Act σ) = act at gives
  have acts : (moves ++ [(s, Move.work worker)]).flatMap acted = moves.flatMap acted ++ [act] := by
    simp [acted, at_, same]
  have order : (moves ++ [(s, Move.work worker)]).flatMap (admitted b) =
      moves.flatMap (admitted b) := by
    simp [none]
  -- The job's update is in flight, so it was admitted, and what was admitted later is apart from it.
  have out : job ∈ jobsOut s :=
    List.mem_append_right _ (List.mem_map_of_mem (List.mem_of_getElem? at_))
  obtain ⟨remaining, owed⟩ :=
    account.inFlight_of_out (List.mem_append_left _ (List.mem_map_of_mem out))
  have here : act.job = job := by rw [← same]
  have listed : act.job.update ∈ moves.flatMap (admitted b) := by
    rw [here, ordered.listed]
    exact ⟨_, owed, nofun⟩
  have declares : Declares b act u := by
    rw [← same]
    exact ⟨found, only.1⟩
  obtain ⟨early, late, front, split, before, now⟩ :=
    flatMap_actsOf_concat (moves.flatMap acted) ordered.distinct listed
  have apart : ∀ other ∈ late.flatMap (actsOf (moves.flatMap acted)), other.job ≠ act.job ∧
      ∃ v : Update σ, Access.Within v.reads v.writes other.command ∧ ¬ v.Conflicts u := by
    intro other member
    obtain ⟨later, inside, chosen⟩ := List.mem_flatMap.mp member
    obtain ⟨made, rfl⟩ : other ∈ moves.flatMap acted ∧ other.job.update = later := by
      simpa [actsOf] using chosen
    obtain ⟨-, v, found', within⟩ := played.declares other made
    have distinct := ordered.distinct
    have clear := ordered.clear
    rw [split] at distinct clear
    refine ⟨fun equal => ?_, v, within, fun conflict => ?_⟩
    · have absent := (List.nodup_cons.mp (List.nodup_append.mp distinct).2.1).1
      exact absent (equal ▸ inside)
    · have later_clear := (List.pairwise_cons.mp (List.pairwise_append.mp clear).2.1).1 _ inside
      rw [here] at later_clear
      exact later_clear _ u v owed found found' conflict.symm
  have serial := played.serial
  rw [serialised, before] at serial
  obtain ⟨middle, first, rest⟩ := plays_append.mp serial
  refine ⟨after, shows, keeps_step declared account played.keeps (.commanded at_), ?_, ?_, ?_, ?_⟩
  · intro other member
    rw [acts] at member
    rw [order]
    rcases List.mem_append.mp member with old | new
    · exact played.declares other old
    · obtain rfl := List.mem_singleton.mp new
      exact ⟨listed, u, declares⟩
  · have perm := played.perm
    rw [serialised, before] at perm
    rw [serialised, acts, order, now]
    exact (List.perm_middle.trans (perm.cons act)).trans (List.perm_append_singleton _ _).symm
  · rw [acts]
    exact plays_append.mpr ⟨scene, played.plays, .cons gives .nil⟩
  · rw [serialised, acts, order, now]
    exact plays_append.mpr ⟨middle, first, rest.moved gives declares.2 apart⟩

theorem played_of_run (ready : b.Ready kindCount shared) (declared : Declared b)
    (run : Run b (b.start shared) moves s) :
    Ordered b (moves.flatMap (admitted b)) s ∧ ∃ scene, Played b moves s shared scene := by
  induction run with
  | refl => exact ⟨ordered_start b shared, _, played_start b shared⟩
  | @step moves s move next run made ih =>
    obtain ⟨ordered, scene, played⟩ := ih
    obtain ⟨account, tally⟩ := tallied_of_run run
    obtain ⟨-, guard⟩ := guarded_of_run ready (run.step made)
    have step := step_of_step? made
    have ordered' : Ordered b ((moves ++ [(s, move)]).flatMap (admitted b)) next.value := by
      simpa using ordered.step guard made
    refine ⟨ordered', ?_⟩
    have none := admitted_eq_nil made
    generalize next.value = t at step ordered' none ⊢
    have still := played.still declared account tally ordered'.distinct step
    cases step with
    | commanded at_ =>
      exact played.commanded declared account tally ordered
        (none fun _ at_ => idle_of_admitting at_) at_
    | signalled at_ => exact ⟨scene, still (by simp [acted, at_])⟩
    | _ => exact ⟨scene, still rfl⟩

/-- What a run of a batch amounts to. -/
structure Serializable (b : Batch σ) (moves : List (State σ × Move)) (s : State σ)
    (shared : Shared σ) : Prop where
  -- No update is admitted twice, and in the end every one has been.
  distinct : (moves.flatMap (admitted b)).Nodup
  all : s.control = .closed →
    (moves.flatMap (admitted b)).Perm (List.range b.updates.length)
  -- The accesses of the run, each with its answer, and no others.
  perm : (serialised b moves).Perm (moves.flatMap acted)
  -- In the order of the run and update by update they lead to the same: the shared state of the
  -- run, and in the end no job with anything left to do.
  same : ∃ left, Plays (b.scene shared) (moves.flatMap acted)
      ⟨left, { s.shared with locks := shared.locks }⟩ ∧
    Plays (b.scene shared) (serialised b moves) ⟨left, { s.shared with locks := shared.locks }⟩ ∧
    (s.control = .closed → ∀ job : Job, job.task < b.tasksAt job.update → left job = .done ())

/-- Whatever the interleaving, the accesses of a run can be made one update after another, each whole
and in the order of admission: every one is answered the same, and the components end up the same. -/
theorem serializable_of_run (ready : b.Ready kindCount shared) (declared : Declared b)
    (run : Run b (b.start shared) moves s) : Serializable b moves s shared := by
  obtain ⟨ordered, ⟨left, final⟩, played⟩ := played_of_run ready declared run
  obtain rfl : final = { s.shared with locks := shared.locks } := played.shows.shared
  refine ⟨ordered.distinct, fun closed => ?_, played.perm, left, played.plays, played.serial,
    fun closed job inside => ?_⟩
  · have completion := completion_of_closed ready run closed
    refine (List.perm_ext_iff_of_nodup ordered.distinct List.nodup_range).mpr fun place => ?_
    rw [ordered.listed, completion.stages, List.mem_range, List.getElem?_map]
    cases found : b.updates[place]? with
    | none => simpa using found
    | some u =>
      obtain ⟨inside, -⟩ := List.getElem?_eq_some_iff.mp found
      simpa using inside
  · have completion := completion_of_closed ready run closed
    have once := completion.returned job
    rw [if_pos inside] at once
    exact played.shows.finished job (List.count_pos_iff.mp (by omega))

/-! ### Doubling and adding -/

def counter : StoredType := ⟨⟨1⟩, "Counter", [3]⟩

def increment : StoredType := ⟨⟨2⟩, "Increment", [5]⟩

/-- One entity with a counter of 3 and an increment of 5. -/
def counterShared : Shared Unit :=
  let rows : Generation := ⟨#[], [.ofType counter, .ofType increment], ∅⟩
  let collection : Collection :=
    { sequence := ⟨[⟨1⟩, ⟨2⟩], by decide⟩
      definitions := []
      current := rows.append (.ofRaw 1)
      pending := rows }
  { Shared.ofRegistry .empty () with
    locks := .ofSize 3
    store := Store.empty.push collection.sequence collection }

/-- The counter doubles twice, grows by the increment and is looked at. -/
def counterEdits : Batch Unit where
  fence := .update
  frame := 1
  workers := 2
  tasks := 2
  updates :=
    [{ name := "double"
       mode := .concurrentDistributed
       writes := [⟨1⟩]
       body := fun _ =>
         .call (.edit ⟨0⟩ ⟨1⟩ counter fun _ _ row => row.map (2 * ·)) fun _ => .done () },
     { name := "add"
       mode := .concurrent
       reads := [⟨2⟩]
       writes := [⟨1⟩]
       body := fun _ => .call (.read ⟨0⟩ ⟨2⟩ increment) fun rows =>
         .call (.edit ⟨0⟩ ⟨1⟩ counter fun _ i row =>
           row.zipWith (· + ·) ((rows.toOption.bind (·[i]?)).getD [])) fun _ => .done () },
     { name := "look"
       mode := .concurrent
       reads := [⟨2⟩]
       body := fun _ => .call (.read ⟨0⟩ ⟨2⟩ increment) fun _ => .done () }]

theorem counterEdits_ready : counterEdits.Ready 2 counterShared where
  valid := by decide
  slots := by decide
  idle := by decide +kernel
  leaves := by
    intro u member context
    simp only [counterEdits, List.mem_cons, List.not_mem_nil, or_false] at member
    rcases member with rfl | rfl | rfl
    · exact ⟨nofun, fun _ => trivial⟩
    · exact ⟨nofun, fun _ => ⟨nofun, fun _ => trivial⟩⟩
    · exact ⟨nofun, fun _ => trivial⟩

theorem counterEdits_declared : counterEdits.Declared := by
  intro u member context
  simp only [counterEdits, List.mem_cons, List.not_mem_nil, or_false] at member
  rcases member with rfl | rfl | rfl
  · exact ⟨by simp [Access.Within], fun _ => trivial⟩
  · exact ⟨by simp [Access.Within], fun _ => ⟨by simp [Access.Within], fun _ => trivial⟩⟩
  · exact ⟨by simp [Access.Within], fun _ => trivial⟩

/-- The third update looks while the first is at work; the second has to wait for the first. -/
theorem serializable_of_counterEdits : counterEdits.Ready 2 counterShared ∧ counterEdits.Declared ∧
    ∃ moves s, Run counterEdits (counterEdits.start counterShared) moves s ∧
      s.control = .closed ∧ s.retries = 1 ∧
      (counterShared.rowsOf ⟨0⟩ ⟨1⟩ counter).toOption = some #[[3]] ∧
      (s.shared.rowsOf ⟨0⟩ ⟨1⟩ counter).toOption = some #[[17]] ∧
      Serializable counterEdits moves s counterShared := by
  have made : ∃ s, counterEdits.replay? (counterEdits.start counterShared)
      [.frame, .frame, .frame, .frame, .frame, .frame, .take, .work 0, .frame, .frame, .work 0,
        .take, .take, .work 1, .work 0, .work 1, .work 0, .frame, .frame, .frame, .frame, .frame,
        .frame, .frame, .frame, .frame, .frame, .frame, .take, .work 0, .work 0, .work 0, .frame,
        .frame] = some s ∧
      s.control = .closed ∧ s.retries = 1 ∧
      (s.shared.rowsOf ⟨0⟩ ⟨1⟩ counter).toOption = some #[[17]] :=
    ⟨_, rfl, rfl, rfl, rfl⟩
  obtain ⟨s, made, closed, refused, rows⟩ := made
  obtain ⟨trace, -, run⟩ := run_of_replay? made
  exact ⟨counterEdits_ready, counterEdits_declared, trace, s, run, closed, refused, by decide +kernel,
    rows, serializable_of_run counterEdits_ready counterEdits_declared run⟩

end EntityWorld.Batch
