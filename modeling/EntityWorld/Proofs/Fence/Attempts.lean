import EntityWorld.Proofs.Fence.Admission
import EntityWorld.Proofs.Fence.LockHistory

/-!
# Attempts of one update

Validation looks at an update alone, the lock table at what others hold. An update that validation
accepts never waits for itself: it is let in exactly when no other holder is in its way, gives back
what it took, and leaves no trace when it is refused, also where its writes were granted before a
read was not. See `Update.agreement`.
-/
namespace EntityWorld

namespace LockTable

variable {strictness : Strictness} {slots : Nat}

/-- Calls that one caller makes one after another on machine words, with their answers. -/
inductive Talks (strictness : Strictness) (slots : Nat) :
    Words → List (Call × Bool) → Words → Prop where
  | done {w : Words} : Talks strictness slots w [] w
  | call {w w' w'' : Words} {call : Call} {answer : Bool} {log : List (Call × Bool)}
      {held held' : List Lock}
      (made : Leads strictness slots w ⟨call.opening, held⟩ w' ⟨.answered (.ok answer), held'⟩)
      (rest : Talks strictness slots w' log w'') :
      Talks strictness slots w ((call, answer) :: log) w''

/-- A call on a table whose counters can be read is the same call on its words. -/
theorem Talks.perform {t t' : LockTable} {w : Words} {call : Call} {answer : Bool}
    {log : List (Call × Bool)} (small : ∀ side k, t.count side k < 2147483648)
    (made : (t.perform strictness call).value = (.ok answer, t')) (same : t'.size = t.size)
    (rest : Talks strictness t'.size t'.words log w) :
    Talks strictness t.size t.words ((call, answer) :: log) w := by
  have ends := ends_perform strictness call [] small
  rw [made] at ends
  obtain ⟨held, leads⟩ := ends
  exact .call leads (same ▸ rest)

end LockTable

namespace Update

variable {σ : Type} {u : Update σ} {t : LockTable} {kindCount : Nat}

/-! ### Taking the locks -/

theorem takeLocks_of_admits (valid : u.WellDeclared kindCount) (slots : kindCount < t.size)
    (admits : Admits t u) : u.takeLocks t = pure (.ok true, locked t u) := by
  rw [takeLocks_eq valid slots, if_pos admits]

theorem takeLocks_of_refused (valid : u.WellDeclared kindCount) (slots : kindCount < t.size)
    (refused : ¬ Admits t u) : u.takeLocks t = pure (.ok false, t) := by
  rw [takeLocks_eq valid slots, if_neg refused]

theorem takeLocks_answer (valid : u.WellDeclared kindCount) (slots : kindCount < t.size) :
    (u.takeLocks t).value.1 = .ok true ↔ Admits t u := by
  by_cases admits : Admits t u
  · simp [takeLocks_of_admits valid slots admits, admits]
  · simp [takeLocks_of_refused valid slots admits, admits]

/-- A kind is declared once, so its counter goes up by one. -/
theorem WellDeclared.count_locked (valid : u.WellDeclared kindCount) (slots : kindCount < t.size)
    (side : LockSide) (k : Kind) :
    (locked t u).count side k = t.count side k + if k ∈ u.declared side then 1 else 0 := by
  rw [Update.count_locked (valid.covers slots), (valid.distinct side).count]

theorem unlocked_locked (t : LockTable) (u : Update σ) : unlocked (locked t u) u = t := by
  rw [unlocked, locked, LockTable.undo_raiseAll, LockTable.undo_raiseAll]

theorem WellDeclared.held (valid : u.WellDeclared kindCount) (slots : kindCount < t.size)
    (side : LockSide) (k : Kind) : (u.declared side).count k ≤ (locked t u).count side k := by
  rw [Update.count_locked (valid.covers slots)]
  exact Nat.le_add_left _ _

/-- What was taken can be given back, and then the table is as before. -/
theorem returnLocks_locked (valid : u.WellDeclared kindCount) (slots : kindCount < t.size) :
    u.returnLocks (locked t u) = pure (.ok (), t) := by
  rw [returnLocks_eq (valid.held slots), unlocked_locked]

/-! ### The calls of an attempt -/

/-- The calls that an attempt on a table makes, and the calls that give back what it took. -/
structure Attempted (t : LockTable) (u : Update σ) : Prop where
  admitted : Admits t u →
    LockTable.Talks .strict t.size t.words
        [(.acquire .write u.writes, true), (.acquire .read u.reads, true)] (locked t u).words ∧
      LockTable.Talks .strict t.size (locked t u).words
        [(.release .read u.reads, true), (.release .write u.writes, true)] t.words
  refused : (∃ k ∈ u.writes, 0 < t.readers k ∨ 0 < t.writers k) →
    LockTable.Talks .strict t.size t.words [(.acquire .write u.writes, false)] t.words
  rolledBack : (∀ k ∈ u.writes, t.readers k = 0 ∧ t.writers k = 0) →
    (∃ k ∈ u.reads, 0 < t.writers k) →
      LockTable.Talks .strict t.size t.words
        [(.acquire .write u.writes, true), (.acquire .read u.reads, false),
          (.release .write u.writes, true)] t.words

/-- Counters with room for one more holder can be read while the update has its locks. -/
theorem WellDeclared.small_locked (valid : u.WellDeclared kindCount) (slots : kindCount < t.size)
    (room : ∀ side k, t.count side k < 2147483647) (side : LockSide) (k : Kind) :
    (locked t u).count side k < 2147483648 := by
  have before := room side k
  rw [valid.count_locked slots]
  split <;> omega

theorem WellDeclared.small_written (valid : u.WellDeclared kindCount) (slots : kindCount < t.size)
    (room : ∀ side k, t.count side k < 2147483647) (side : LockSide) (k : Kind) :
    (t.raiseAll .write u.writes).count side k < 2147483648 := by
  have after := valid.small_locked slots room side k
  rw [locked, LockTable.count_raiseAll (valid.covers_reads slots)] at after
  exact Nat.lt_of_le_of_lt (Nat.le_add_right _ _) after

/-- The two calls that give back, in the order in which they are made. -/
theorem WellDeclared.release_reads (valid : u.WellDeclared kindCount) (slots : kindCount < t.size) :
    ((locked t u).perform .strict (.release .read u.reads)).value =
      (.ok true, t.raiseAll .write u.writes) := by
  have reads (k : Kind) : u.reads.count k ≤ (locked t u).count .read k := valid.held slots .read k
  rw [LockTable.perform_release .strict reads, locked, LockTable.undo_raiseAll]

theorem WellDeclared.release_writes (valid : u.WellDeclared kindCount) (slots : kindCount < t.size) :
    ((t.raiseAll .write u.writes).perform .strict (.release .write u.writes)).value =
      (.ok true, t) := by
  rw [LockTable.perform_release .strict (valid.held_writes slots), LockTable.undo_raiseAll]

theorem attempted_of_room (valid : u.WellDeclared kindCount) (slots : kindCount < t.size)
    (room : ∀ side k, t.count side k < 2147483647) : Attempted t u := by
  let written := t.raiseAll .write u.writes
  have writesCovered : t.Covers u.writes := valid.covers slots .write
  have small (side : LockSide) (k : Kind) : t.count side k < 2147483648 :=
    Nat.lt_succ_of_lt (room side k)
  have lockedSmall := valid.small_locked slots room
  have writtenSmall := valid.small_written slots room
  have size : written.size = t.size := LockTable.size_raiseAll
  -- Each call is the call on the whole table, between the tables that the attempt passes through.
  have writes := LockTable.acquire_value .strict .write t writesCovered
  have reads := LockTable.acquire_value .strict .read written (valid.covers_reads slots)
  have granted (free : ∀ k ∈ u.writes, t.count .read k = 0 ∧ t.count .write k = 0) :
      (t.perform .strict (.acquire .write u.writes)).value = (.ok true, written) :=
    writes.trans (if_pos (valid.grants_writes_iff.mpr free))
  refine ⟨?_, ?_, ?_⟩
  · rintro ⟨free, unwritten⟩
    have taken : (written.perform .strict (.acquire .read u.reads)).value =
        (.ok true, locked t u) :=
      reads.trans (if_pos ((valid.grants_reads_iff slots).mpr unwritten))
    constructor
    · exact .perform small (granted free) size
        (.perform writtenSmall taken LockTable.size_raiseAll .done)
    · have same : (locked t u).size = t.size := size_locked
      rw [← same]
      exact .perform lockedSmall (valid.release_reads slots) (size.trans same.symm)
        (.perform writtenSmall (valid.release_writes slots) size.symm .done)
  · rintro ⟨k, member, taken⟩
    have refused : ¬ t.Grants .write u.writes := by
      intro free
      have := valid.grants_writes_iff.mp free k member
      simp only [LockTable.readers_eq_count, LockTable.writers_eq_count] at taken
      omega
    exact .perform small (writes.trans (if_neg refused)) rfl .done
  · rintro free ⟨k, member, taken⟩
    have refused : ¬ written.Grants .read u.reads := fun grants =>
      Nat.ne_of_gt taken ((valid.grants_reads_iff slots).mp grants k member)
    exact .perform small (granted free) size
      (.perform writtenSmall (reads.trans (if_neg refused)) rfl
        (.perform writtenSmall (valid.release_writes slots) size.symm .done))

/-! ### Agreement -/

/-- How a table answers an update. -/
structure Answered (t : LockTable) (u : Update σ) : Prop where
  answer : (u.takeLocks t).value.1 = .ok true ↔
    (∀ k ∈ u.writes, t.readers k = 0 ∧ t.writers k = 0) ∧ ∀ k ∈ u.reads, t.writers k = 0
  -- Nothing is reported, neither of the attempt nor when the locks are given back.
  admitted : (u.takeLocks t).value.1 = .ok true → ∃ t', u.takeLocks t = pure (.ok true, t') ∧
    t'.size = t.size ∧
    (∀ k, t'.readers k = t.readers k + if k ∈ u.reads then 1 else 0) ∧
    (∀ k, t'.writers k = t.writers k + if k ∈ u.writes then 1 else 0) ∧
    u.returnLocks t' = pure (.ok (), t)
  refused : (u.takeLocks t).value.1 ≠ .ok true → u.takeLocks t = pure (.ok false, t)
  attempted : (∀ side k, t.count side k < 2147483647) → Attempted t u

theorem answered_of_wellDeclared (valid : u.WellDeclared kindCount) (slots : kindCount < t.size) :
    Answered t u := by
  have answer := takeLocks_answer valid slots
  refine ⟨answer, fun granted => ?_, fun denied => ?_, attempted_of_room valid slots⟩
  · have taken := takeLocks_of_admits valid slots (answer.mp granted)
    exact ⟨locked t u, taken, size_locked, valid.count_locked slots .read,
      valid.count_locked slots .write, returnLocks_locked valid slots⟩
  · exact takeLocks_of_refused valid slots fun admits => denied (answer.mpr admits)

/-- What validation accepts, and how a table with a slot for each kind answers it. -/
structure Agreement (u : Update σ) (kindCount : Nat) : Prop where
  accepted : u.validate kindCount = .ok () ↔
    (∀ k ∈ u.reads ++ u.writes, 1 ≤ k.index ∧ k.index ≤ kindCount) ∧
      u.reads.Nodup ∧ u.writes.Nodup ∧ ∀ k ∈ u.reads, k ∉ u.writes
  answered : u.validate kindCount = .ok () → ∀ t : LockTable, t.size = kindCount + 1 → Answered t u

/-- Validation accepts what never conflicts with itself, and the lock table lets it in exactly when
it does not conflict with others. -/
theorem agreement (u : Update σ) (kindCount : Nat) : Agreement u kindCount := by
  constructor
  · rw [validate_eq_ok_iff]
    constructor
    · rintro ⟨known, distinct, disjoint⟩
      refine ⟨fun k member => ?_, distinct .read, distinct .write, disjoint⟩
      exact (List.mem_append.mp member).elim (known .read k) (known .write k)
    · rintro ⟨known, reads, writes, disjoint⟩
      refine ⟨fun side k member => known k ?_, fun side => ?_, disjoint⟩
      · cases side with
        | read => exact List.mem_append_left _ member
        | write => exact List.mem_append_right _ member
      · cases side with
        | read => exact reads
        | write => exact writes
  · intro accepted t slots
    exact answered_of_wellDeclared (validate_eq_ok_iff.mp accepted) (by omega)

/-- Writes kind 1 and reads kind 2. -/
def writesOne : Update Unit where
  name := "spread"
  reads := [⟨2⟩]
  writes := [⟨1⟩]
  body := fun _ => .done ()

-- Somebody writes kind 2: the write is granted and given back.
example : writesOne.validate 2 = .ok () ∧
    writesOne.takeLocks ⟨#[.free, .free, ⟨0, 1⟩]⟩ = pure (.ok false, ⟨#[.free, .free, ⟨0, 1⟩]⟩) :=
  ⟨rfl, rfl⟩

end Update

end EntityWorld
