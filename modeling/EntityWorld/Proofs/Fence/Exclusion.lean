import EntityWorld.Proofs.Fence.Admission
import EntityWorld.Proofs.Fence.BatchAccount
import EntityWorld.Proofs.Program

/-!
# Exclusion within a batch

The lock table counts the updates in flight: every counter is the number of them that declare the
kind on that side. An update is admitted only where these counters leave room, so updates in flight
never conflict, whatever the order of admissions and completions.
-/
namespace EntityWorld

namespace Update

variable {σ : Type}

/-- One writes a kind that the other reads or writes. -/
def Conflicts (u v : Update σ) : Prop :=
  (∃ k ∈ u.writes, k ∈ v.reads ∨ k ∈ v.writes) ∨ ∃ k ∈ v.writes, k ∈ u.reads ∨ k ∈ u.writes

theorem Conflicts.symm {u v : Update σ} (conflict : u.Conflicts v) : v.Conflicts u :=
  Or.symm conflict

end Update

namespace Batch

variable {σ : Type} {b : Batch σ} {s t : State σ} {move : Move} {kindCount : Nat}

/-- A batch of validated updates whose callbacks leave the locks alone, over an idle table with a
slot for every kind. -/
structure Ready (b : Batch σ) (kindCount : Nat) (shared : Shared σ) : Prop where
  valid : ∀ u ∈ b.updates, u.validate kindCount = .ok ()
  slots : kindCount < shared.locks.size
  idle : shared.locks.isIdle
  leaves : ∀ u ∈ b.updates, ∀ context, (u.body context).Only Access.LeavesLocks

/-- The updates in flight, in the order they were declared. -/
def flying (b : Batch σ) (s : State σ) : List (Update σ) :=
  ((b.updates.zip s.stages).filter fun entry => entry.2.isInFlight).map Prod.fst

/-- Number of updates in flight that declare a kind on one side. -/
def holders (b : Batch σ) (stages : List Stage) (side : LockSide) (k : Kind) : Nat :=
  (b.updates.zip stages).countP fun entry =>
    entry.2.isInFlight && decide (k ∈ entry.1.declared side)

theorem countP_flying (side : LockSide) (k : Kind) :
    (flying b s).countP (fun u => k ∈ u.declared side) = holders b s.stages side k := by
  simp only [flying, holders, List.countP_map, List.countP_filter]
  refine List.countP_congr fun entry _ => ?_
  simp [and_comm]

/-- There is one update for every stage in flight. -/
theorem length_flying (length : s.stages.length = b.updates.length) :
    (flying b s).length = flyingCount s := by
  have stages : (b.updates.zip s.stages).map Prod.snd = s.stages :=
    List.map_snd_zip (Nat.le_of_eq length)
  calc (flying b s).length
      = (b.updates.zip s.stages).countP (fun entry => entry.2.isInFlight) := by
        rw [flying, List.length_map, List.countP_eq_length_filter]
    _ = ((b.updates.zip s.stages).map Prod.snd).countP Stage.isInFlight := by
        rw [List.countP_map]
        rfl
    _ = flyingCount s := by rw [stages, flyingCount]

/-- A stage that changes from or to being in flight takes a holder away or adds one. -/
theorem holders_set {place : Nat} {u : Update σ} {old : Stage} {stages : List Stage} (new : Stage)
    (found : b.updates[place]? = some u) (stage : stages[place]? = some old) (side : LockSide)
    (k : Kind) :
    holders b (stages.set place new) side k +
        (if old.isInFlight ∧ k ∈ u.declared side then 1 else 0) =
      holders b stages side k + if new.isInFlight ∧ k ∈ u.declared side then 1 else 0 := by
  have entry : (b.updates.zip stages)[place]? = some (u, old) := by
    simp [List.getElem?_zip_eq_some, found, stage]
  obtain ⟨inside, same⟩ := List.getElem?_eq_some_iff.mp entry
  have bound := List.boole_getElem_le_countP
    (p := fun entry => entry.2.isInFlight && decide (k ∈ entry.1.declared side)) inside
  simp only [holders, zip_set_right new found, List.countP_set inside]
  simp only [same, Bool.and_eq_true, decide_eq_true_eq] at bound ⊢
  omega

/-- What every move keeps: the table counts the updates in flight, and lets no writer in beside
another holder. -/
structure Guarded (b : Batch σ) (kindCount : Nat) (s : State σ) : Prop where
  slots : kindCount < s.shared.locks.size
  leaves : ∀ entry ∈ s.running, entry.2.Only Access.LeavesLocks
  held : ∀ side k, s.shared.locks.count side k = holders b s.stages side k
  exclusive : ∀ k, 0 < s.shared.locks.count .write k →
    s.shared.locks.count .write k = 1 ∧ s.shared.locks.count .read k = 0
  unbroken : ∀ cause, s.control ≠ .stopped cause

theorem guarded_start {shared : Shared σ} (ready : b.Ready kindCount shared) :
    Guarded b kindCount (b.start shared) where
  slots := ready.slots
  leaves := by simp [start]
  held := by
    intro side k
    have nobody : holders b (b.start shared).stages side k = 0 := by
      refine List.countP_eq_zero.mpr fun entry member => ?_
      obtain ⟨-, stage⟩ := List.of_mem_zip member
      obtain ⟨-, -, waiting⟩ := List.mem_map.mp stage
      simp [← waiting, Stage.isInFlight]
    rw [nobody]
    exact LockTable.count_of_isIdle ready.idle side k
  exclusive := by
    intro k written
    rw [show (b.start shared).shared.locks.count .write k = 0 from
      LockTable.count_of_isIdle ready.idle .write k] at written
    exact absurd written (Nat.lt_irrefl 0)
  unbroken := by simp [start]

/-- A new holder finds the counters at zero wherever it would collide. -/
private theorem exclusive_of_admitted {u : Update σ}
    (guard : Guarded b kindCount s) (valid : u.WellDeclared kindCount)
    (admits : Update.Admits s.shared.locks u) (k : Kind)
    (written : 0 < (Update.locked s.shared.locks u).count .write k) :
    (Update.locked s.shared.locks u).count .write k = 1 ∧
      (Update.locked s.shared.locks u).count .read k = 0 := by
  have covers := valid.covers guard.slots
  have once : (u.declared .write).count k ≤ 1 := List.nodup_iff_count.mp (valid.distinct .write) k
  rw [Update.count_locked covers] at written ⊢
  rw [Update.count_locked covers]
  -- Either the update itself writes the kind, or the writer was there before and the update does
  -- not read what is written.
  by_cases own : k ∈ u.declared .write
  · have free := admits.1 k own
    have unread : (u.declared .read).count k = 0 :=
      List.count_eq_zero.mpr (valid.apart own (by decide))
    have one : (u.declared .write).count k = 1 :=
      Nat.le_antisymm once (List.count_pos_iff.mpr own)
    omega
  · have unwritten : (u.declared .write).count k = 0 := List.count_eq_zero.mpr own
    have before := guard.exclusive k (by omega)
    have unread : (u.declared .read).count k = 0 := by
      refine List.count_eq_zero.mpr fun read => ?_
      have := admits.2 k read
      omega
    omega

/-- What a validated update declares is counted once at most. -/
private theorem count_declared {u : Update σ} (valid : u.WellDeclared kindCount) (side : LockSide)
    (k : Kind) : (u.declared side).count k = if k ∈ u.declared side then 1 else 0 :=
  (valid.distinct side).count

/-- An update in flight holds what it declared. -/
private theorem Guarded.holds (guard : Guarded b kindCount s) {place remaining : Nat} {u : Update σ}
    (valid : u.WellDeclared kindCount) (found : b.updates[place]? = some u)
    (owed : s.stages[place]? = some (.inFlight remaining)) (side : LockSide) (k : Kind) :
    (u.declared side).count k ≤ s.shared.locks.count side k := by
  have moved := holders_set .finished found owed side k
  simp only [Stage.isInFlight, Bool.false_eq_true, false_and, if_false, true_and,
    Nat.add_zero] at moved
  rw [count_declared valid, guard.held, ← moved]
  exact Nat.le_add_left _ _

theorem Guarded.step {shared : Shared σ} (ready : b.Ready kindCount shared)
    (account : Accounted b s) (guard : Guarded b kindCount s) (step : Step b s move t) :
    Guarded b kindCount t := by
  have wellDeclared {place : Nat} {u : Update σ} (found : b.updates[place]? = some u) :
      u.WellDeclared kindCount :=
    Update.validate_eq_ok_iff.mp (ready.valid u (List.mem_of_getElem? found))
  cases step with
  | passed at_ _ _ => exact ⟨guard.slots, guard.leaves, guard.held, guard.exclusive, by simp⟩
  | @refused place u locks at_ found waiting free taken =>
    rw [Update.takeLocks_value (wellDeclared found) guard.slots] at taken
    split at taken
    · cases taken
    · cases taken
      exact ⟨guard.slots, guard.leaves, guard.held, guard.exclusive, by simp⟩
  | @admitted place u locks at_ found waiting free taken =>
    -- The counters rise where the update declares a kind, and so does the number of holders.
    have valid := wellDeclared found
    rw [Update.takeLocks_value valid guard.slots] at taken
    split at taken
    next admits =>
      cases taken
      refine ⟨by simpa using guard.slots, guard.leaves, fun side k => ?_,
        exclusive_of_admitted guard valid admits, by simp⟩
      have moved := holders_set (.inFlight (b.tasksAt place)) found waiting side k
      simp only [Stage.isInFlight, Bool.false_eq_true, false_and, if_false, true_and] at moved
      simp only [Update.count_locked (valid.covers guard.slots), guard.held, count_declared valid]
      omega
    · cases taken
  | @misused place u cause locks at_ found taken =>
    -- A validated update asks for known kinds only, so the table never answers with a misuse.
    rw [Update.takeLocks_value (wellDeclared found) guard.slots] at taken
    split at taken <;> cases taken
  | scanned at_ past =>
    refine ⟨guard.slots, guard.leaves, guard.held, guard.exclusive, fun cause => ?_⟩
    simp only
    split
    · exact afterSignals_ne_stopped s cause
    · simp
  | sent at_ more => exact ⟨guard.slots, guard.leaves, guard.held, guard.exclusive, by simp⟩
  | launched at_ last => exact ⟨guard.slots, guard.leaves, guard.held, guard.exclusive, by simp⟩
  | @counted place remaining signals at_ signalled owed more =>
    -- The update stays in flight, and keeps its locks.
    obtain ⟨u, found⟩ := account.update_of_stage owed
    refine ⟨guard.slots, guard.leaves, fun side k => ?_, guard.exclusive, by simp⟩
    have moved := holders_set (.inFlight remaining) found owed side k
    have held := guard.held side k
    simp only [Stage.isInFlight] at moved ⊢
    omega
  | @finished place u signals locks at_ signalled found owed given =>
    have valid := wellDeclared found
    have moved (side : LockSide) (k : Kind) := holders_set .finished found owed side k
    simp only [Stage.isInFlight, Bool.false_eq_true, false_and, if_false, true_and] at moved
    rw [Update.returnLocks_value (guard.holds valid found owed)] at given
    cases given
    refine ⟨by simpa using guard.slots, guard.leaves, fun side k => ?_, fun k => ?_, by simp⟩
    · simp only [Update.count_unlocked, guard.held, count_declared valid]
      have := moved side k
      omega
    · simp only [Update.count_unlocked]
      intro written
      have before := guard.exclusive k (by omega)
      omega
  | @unheld place u signals cause locks at_ signalled found owed given =>
    -- An update in flight holds its locks, so giving them back cannot fail.
    rw [Update.returnLocks_value (guard.holds (wellDeclared found) found owed)] at given
    cases given
  | @unowed place signals at_ signalled nothing =>
    obtain ⟨remaining, owed⟩ := account.inFlight_of_signalled signalled
    obtain ⟨u, found⟩ := account.update_of_stage owed
    exact absurd owed (nothing u remaining found)
  | drained at_ empty =>
    exact ⟨guard.slots, guard.leaves, guard.held, guard.exclusive, afterSignals_ne_stopped s⟩
  | @took job queue queued idle =>
    refine ⟨guard.slots, fun entry member => ?_, guard.held, guard.exclusive, guard.unbroken⟩
    rcases List.mem_append.mp member with old | new
    · exact guard.leaves entry old
    · obtain rfl := List.mem_singleton.mp new
      simp only [program]
      split
      · trivial
      next u found => exact ready.leaves u (List.mem_of_getElem? found) _
  | @signalled worker job at_ =>
    exact ⟨guard.slots, fun entry member => guard.leaves entry (List.mem_of_mem_eraseIdx member),
      guard.held, guard.exclusive, guard.unbroken⟩
  | @commanded worker job command next at_ =>
    -- The only move that runs a callback's command, and the callback leaves the locks alone.
    have only := guard.leaves _ (List.mem_of_getElem? at_)
    have same := s.shared.locks_perform only.1
    refine ⟨by simpa only [same] using guard.slots, fun entry member => ?_,
      by simpa only [same] using guard.held, by simpa only [same] using guard.exclusive,
      guard.unbroken⟩
    rcases List.mem_or_eq_of_mem_set member with old | rfl
    · exact guard.leaves entry old
    · exact only.2 _

/-- The table keeps its slots. -/
theorem Guarded.size_step {shared : Shared σ} (ready : b.Ready kindCount shared)
    (guard : Guarded b kindCount s) (step : Step b s move t) :
    t.shared.locks.size = s.shared.locks.size := by
  have wellDeclared {place : Nat} {u : Update σ} (found : b.updates[place]? = some u) :
      u.WellDeclared kindCount :=
    Update.validate_eq_ok_iff.mp (ready.valid u (List.mem_of_getElem? found))
  cases step with
  | refused _ found _ _ taken | admitted _ found _ _ taken | misused _ found taken =>
    exact Update.size_of_takeLocks (wellDeclared found) guard.slots taken
  | finished _ _ found owed given =>
    rw [Update.returnLocks_value (guard.holds (wellDeclared found) found owed)] at given
    cases given
    exact Update.size_unlocked
  | unheld _ _ found owed given =>
    rw [Update.returnLocks_value (guard.holds (wellDeclared found) found owed)] at given
    cases given
  | commanded at_ =>
    have only := guard.leaves _ (List.mem_of_getElem? at_)
    exact congrArg LockTable.size (s.shared.locks_perform only.1)
  | _ => rfl

theorem guarded_of_run {shared : Shared σ} {moves : List (State σ × Move)}
    (ready : b.Ready kindCount shared) (run : Run b (b.start shared) moves s) :
    Accounted b s ∧ Guarded b kindCount s := by
  refine run.preserves (P := fun s => Accounted b s ∧ Guarded b kindCount s) ?_
    ⟨accounted_start b shared, guarded_start ready⟩
  rintro s move t step ⟨account, guard⟩
  exact ⟨account.step step, guard.step ready account step⟩

/-- What the lock table and the workers look like while a batch runs. -/
structure Exclusion (b : Batch σ) (s : State σ) : Prop where
  readers : ∀ k, s.shared.locks.readers k = (flying b s).countP fun u => k ∈ u.reads
  writers : ∀ k, s.shared.locks.writers k = (flying b s).countP fun u => k ∈ u.writes
  apart : (flying b s).Pairwise fun u v => ¬ u.Conflicts v
  -- What is queued, running or not settled yet belongs to an update in flight.
  owned : ∀ place ∈ (jobsOut s).map Job.update ++ s.signals,
    ∃ u remaining, b.updates[place]? = some u ∧ s.stages[place]? = some (.inFlight remaining)
  room : (flying b s).length ≤ b.workers

/-- Two updates in flight leave both their marks on the counters. -/
private theorem Guarded.not_conflicts (guard : Guarded b kindCount s) {u v : Update σ}
    (both : [u, v].Sublist (flying b s)) : ¬ u.Conflicts v := by
  have marks (side : LockSide) (k : Kind) :
      [u, v].countP (fun w => k ∈ w.declared side) ≤ s.shared.locks.count side k := by
    rw [guard.held, ← countP_flying]
    exact both.countP_le
  rintro (⟨k, written, other⟩ | ⟨k, written, other⟩)
  all_goals
    have writes := marks .write k
    have reads := marks .read k
    simp only [Update.declared, List.countP_cons, List.countP_nil, written, decide_true, if_true]
      at writes reads
    have alone := guard.exclusive k (by omega)
    rcases other with read | write
    · simp only [read, decide_true, if_true] at reads
      omega
    · simp only [write, decide_true, if_true] at writes
      omega

/-- Updates in flight at different places do not conflict. -/
theorem Guarded.apart (guard : Guarded b kindCount s) {place other m n : Nat} {u v : Update σ}
    (different : place ≠ other) (found : b.updates[place]? = some u)
    (found' : b.updates[other]? = some v) (flies : s.stages[place]? = some (.inFlight m))
    (flies' : s.stages[other]? = some (.inFlight n)) : ¬ u.Conflicts v := by
  have pairwise : (flying b s).Pairwise fun u v => ¬ u.Conflicts v :=
    List.pairwise_iff_forall_sublist.mpr fun both => guard.not_conflicts both
  rw [flying, List.pairwise_map, List.pairwise_filter, List.pairwise_iff_getElem] at pairwise
  have here : (b.updates.zip s.stages)[place]? = some (u, .inFlight m) := by
    simp [List.getElem?_zip_eq_some, found, flies]
  have there : (b.updates.zip s.stages)[other]? = some (v, .inFlight n) := by
    simp [List.getElem?_zip_eq_some, found', flies']
  obtain ⟨inside, here⟩ := List.getElem?_eq_some_iff.mp here
  obtain ⟨inside', there⟩ := List.getElem?_eq_some_iff.mp there
  rcases Nat.lt_or_gt_of_ne different with before | after
  · have apart := pairwise place other inside inside' before
    rw [here, there] at apart
    exact apart rfl rfl
  · have apart := pairwise other place inside' inside after
    rw [here, there] at apart
    exact fun conflict => apart rfl rfl conflict.symm

/-- In every interleaving of the frame thread and the workers the locks count the updates in flight,
no two of them conflict, and there are no more of them than workers. -/
theorem exclusion_of_run {shared : Shared σ} {moves : List (State σ × Move)}
    (ready : b.Ready kindCount shared) (run : Run b (b.start shared) moves s) :
    Exclusion b s := by
  obtain ⟨account, guard⟩ := guarded_of_run ready run
  refine ⟨fun k => ?_, fun k => ?_, ?_, fun place member => ?_, ?_⟩
  · rw [LockTable.readers_eq_count, guard.held, ← countP_flying]
    rfl
  · rw [LockTable.writers_eq_count, guard.held, ← countP_flying]
    rfl
  · exact List.pairwise_iff_forall_sublist.mpr fun both => guard.not_conflicts both
  · obtain ⟨remaining, owed⟩ := account.inFlight_of_out member
    obtain ⟨u, found⟩ := account.update_of_stage owed
    exact ⟨u, _, found, owed⟩
  · rw [length_flying account.length]
    exact account.room

/-! ### Two writers of one kind -/

/-- An update that notes each of its sub-tasks in the memory. -/
def noting (name : String) (mode : UpdateMode) (reads writes : List Kind) :
    Update (List (String × Nat)) where
  name
  mode
  reads
  writes
  body context := .call (.exchange fun notes => notes ++ [(name, context.task)]) fun _ => .done ()

/-- Two updates write kind 1, the first in two sub-tasks; a third reads kind 2. -/
def twoWriters : Batch (List (String × Nat)) where
  fence := .update
  frame := 1
  workers := 2
  tasks := 2
  updates :=
    [noting "first" .concurrentDistributed [] [⟨1⟩], noting "second" .concurrent [] [⟨1⟩],
      noting "third" .concurrent [⟨2⟩] []]

/-- An empty world with two kinds. -/
def twoWritersShared : Shared (List (String × Nat)) :=
  { Shared.ofRegistry .empty [] with locks := .ofSize 3 }

theorem twoWriters_ready : twoWriters.Ready 2 twoWritersShared where
  valid := by decide
  slots := by decide
  idle := by decide +kernel
  leaves := by
    intro u member context
    simp only [twoWriters, List.mem_cons, List.not_mem_nil, or_false] at member
    rcases member with rfl | rfl | rfl
    all_goals exact ⟨fun call => nofun, fun _ => trivial⟩

/-- The second update is refused while the first and the third are in flight. -/
theorem exclusion_of_twoWriters : twoWriters.Ready 2 twoWritersShared ∧
    ∃ moves s, Run twoWriters (twoWriters.start twoWritersShared) moves s ∧ s.retries = 1 ∧
      s.running.map Prod.fst = [⟨0, 0⟩, ⟨0, 1⟩] ∧ (flying twoWriters s).length = 2 ∧
      Exclusion twoWriters s := by
  have made : ∃ s, twoWriters.replay? (twoWriters.start twoWritersShared)
      [.frame, .frame, .frame, .frame, .frame, .frame, .take, .frame, .take, .frame] = some s ∧
      s.retries = 1 ∧ s.running.map Prod.fst = [⟨0, 0⟩, ⟨0, 1⟩] ∧ (flying twoWriters s).length = 2 :=
    ⟨_, rfl, rfl, rfl, rfl⟩
  obtain ⟨s, made, refused, running, flying⟩ := made
  obtain ⟨trace, -, run⟩ := run_of_replay? made
  exact ⟨twoWriters_ready, trace, s, run, refused, running, flying,
    exclusion_of_run twoWriters_ready run⟩

end Batch

end EntityWorld
