import EntityWorld.Fence.Admission
import EntityWorld.Proofs.Fence.LockTable

/-!
# Admission of one update

Validated access never conflicts with itself. So an update is admitted exactly when no other holder
is in its way, and a refusal leaves every counter as it was.
-/
namespace EntityWorld.Update

variable {σ : Type} {u : Update σ} {t : LockTable} {kindCount : Nat}

/-- The kinds an update declares on one side. -/
def declared (u : Update σ) : LockSide → List Kind
  | .read => u.reads
  | .write => u.writes

/-! ### Validation -/

theorem firstRepeated_eq_none_iff (seen kinds : List Kind) :
    firstRepeated seen kinds = none ↔ kinds.Nodup ∧ ∀ k ∈ kinds, k ∉ seen := by
  induction kinds generalizing seen with
  | nil => simp [firstRepeated]
  | cons k rest ih =>
    simp only [firstRepeated, List.nodup_cons, List.mem_cons, forall_eq_or_imp]
    split
    next member => simp [member]
    next fresh =>
      -- The kind joins those seen before, so what follows must avoid it as well.
      rw [ih]
      constructor
      · rintro ⟨distinct, apart⟩
        exact ⟨⟨fun member => apart k member List.mem_cons_self, distinct⟩, fresh,
          fun l member inside => apart l member (List.mem_cons_of_mem k inside)⟩
      · rintro ⟨⟨absent, distinct⟩, -, apart⟩
        refine ⟨distinct, fun l member inside => ?_⟩
        rcases List.mem_cons.mp inside with rfl | old
        · exact absent member
        · exact apart l member old

/-- What validation accepts: known kinds, none twice in a list, none in both. -/
structure WellDeclared (u : Update σ) (kindCount : Nat) : Prop where
  known : ∀ side, ∀ k ∈ u.declared side, 1 ≤ k.index ∧ k.index ≤ kindCount
  distinct : ∀ side, (u.declared side).Nodup
  disjoint : ∀ k ∈ u.reads, k ∉ u.writes

theorem validate_eq_ok_iff : u.validate kindCount = .ok () ↔ u.WellDeclared kindCount := by
  have allKnown : ((u.reads ++ u.writes).find? fun k => k.isInvalid || k.index > kindCount) = none ↔
      ∀ side, ∀ k ∈ u.declared side, 1 ≤ k.index ∧ k.index ≤ kindCount := by
    simp only [List.find?_eq_none, List.mem_append, Kind.isInvalid, Bool.or_eq_true, beq_iff_eq,
      decide_eq_true_eq, not_or]
    constructor
    · intro known side k member
      have := known k (by cases side <;> simp_all [declared])
      omega
    · intro known k member
      have := member.elim (known .read k) (known .write k)
      omega
  have noneTwice : ((firstRepeated [] u.reads).or (firstRepeated [] u.writes)) = none ↔
      ∀ side, (u.declared side).Nodup := by
    simp only [Option.or_eq_none_iff, firstRepeated_eq_none_iff, List.not_mem_nil,
      not_false_eq_true, implies_true, and_true]
    refine ⟨fun distinct side => ?_, fun distinct => ⟨distinct .read, distinct .write⟩⟩
    cases side with
    | read => exact distinct.1
    | write => exact distinct.2
  have noneShared : (u.reads.find? fun k => u.writes.contains k) = none ↔
      ∀ k ∈ u.reads, k ∉ u.writes := by
    simp [List.find?_eq_none]
  unfold validate
  -- The three checks are made one after the other; each answers for one field.
  constructor
  · intro accepted
    split at accepted
    · cases accepted
    next known =>
      split at accepted
      · cases accepted
      next distinct =>
        split at accepted
        · cases accepted
        next disjoint =>
          exact ⟨allKnown.mp known, noneTwice.mp distinct, noneShared.mp disjoint⟩
  · rintro ⟨known, distinct, disjoint⟩
    rw [allKnown.mpr known, noneTwice.mpr distinct, noneShared.mpr disjoint]

theorem WellDeclared.covers (valid : u.WellDeclared kindCount) (slots : kindCount < t.size)
    (side : LockSide) : t.Covers (u.declared side) := by
  intro k member
  have := valid.known side k member
  omega

/-- No kind stands on both sides. -/
theorem WellDeclared.apart (valid : u.WellDeclared kindCount) {k : Kind} {side other : LockSide}
    (member : k ∈ u.declared side) (different : side ≠ other) : k ∉ u.declared other := by
  cases side <;> cases other
  · exact absurd rfl different
  · exact valid.disjoint k member
  · exact fun read => valid.disjoint k read member
  · exact absurd rfl different

/-! ### Taking and returning locks -/

/-- Nobody holds a lock that keeps the update out. -/
def Admits (t : LockTable) (u : Update σ) : Prop :=
  (∀ k ∈ u.writes, t.count .read k = 0 ∧ t.count .write k = 0) ∧
    ∀ k ∈ u.reads, t.count .write k = 0

/-- The table with the update's locks taken. -/
def locked (t : LockTable) (u : Update σ) : LockTable :=
  (t.raiseAll .write u.writes).raiseAll .read u.reads

/-- The table with the update's locks given back. -/
def unlocked (t : LockTable) (u : Update σ) : LockTable :=
  (t.undo .read u.reads).undo .write u.writes

@[simp] theorem size_locked : (locked t u).size = t.size := by
  simp only [locked, LockTable.size_raiseAll]

@[simp] theorem size_unlocked : (unlocked t u).size = t.size := by
  simp only [unlocked, LockTable.size_undo]

theorem count_locked (covers : ∀ side, t.Covers (u.declared side)) (side : LockSide) (k : Kind) :
    (locked t u).count side k = t.count side k + (u.declared side).count k := by
  have writes : t.Covers u.writes := covers .write
  have reads : (t.raiseAll .write u.writes).Covers u.reads := by
    intro k member
    rw [LockTable.size_raiseAll]
    exact covers .read k member
  rw [locked, LockTable.count_raiseAll reads, LockTable.count_raiseAll writes]
  cases side <;> simp [declared]

theorem count_unlocked (side : LockSide) (k : Kind) :
    (unlocked t u).count side k = t.count side k - (u.declared side).count k := by
  rw [unlocked, LockTable.count_undo, LockTable.count_undo]
  cases side <;> simp [declared]

theorem WellDeclared.grants_writes_iff (valid : u.WellDeclared kindCount) :
    t.Grants .write u.writes ↔ ∀ k ∈ u.writes, t.count .read k = 0 ∧ t.count .write k = 0 := by
  simp only [LockTable.Grants, show u.writes.Nodup from valid.distinct .write, true_and]

/-- The own writes are no obstacle to the own reads. -/
theorem WellDeclared.grants_reads_iff (valid : u.WellDeclared kindCount) (slots : kindCount < t.size) :
    (t.raiseAll .write u.writes).Grants .read u.reads ↔ ∀ k ∈ u.reads, t.count .write k = 0 := by
  refine forall₂_congr fun k member => ?_
  have writesCovered : t.Covers u.writes := valid.covers slots .write
  have none : u.writes.count k = 0 := List.count_eq_zero.mpr (valid.disjoint k member)
  rw [LockTable.count_raiseAll writesCovered, if_pos rfl, none, Nat.add_zero]

theorem WellDeclared.covers_reads (valid : u.WellDeclared kindCount) (slots : kindCount < t.size) :
    (t.raiseAll .write u.writes).Covers u.reads := by
  intro k member
  rw [LockTable.size_raiseAll]
  exact valid.covers slots .read k member

theorem WellDeclared.held_writes (valid : u.WellDeclared kindCount) (slots : kindCount < t.size)
    (k : Kind) : u.writes.count k ≤ (t.raiseAll .write u.writes).count .write k := by
  have writesCovered : t.Covers u.writes := valid.covers slots .write
  rw [LockTable.count_raiseAll writesCovered, if_pos rfl]
  exact Nat.le_add_left _ _

open Classical in
/-- An update gets all its locks, or the table stays as it was. -/
theorem takeLocks_eq (valid : u.WellDeclared kindCount) (slots : kindCount < t.size) :
    u.takeLocks t = pure (if Admits t u then (.ok true, locked t u) else (.ok false, t)) := by
  have writesCovered : t.Covers u.writes := valid.covers slots .write
  have writes := LockTable.acquire_eq .strict .write t writesCovered
  have reads := LockTable.acquire_eq .strict .read _ (valid.covers_reads slots)
  by_cases free : t.Grants .write u.writes
  · rw [if_pos free] at writes
    by_cases unwritten : (t.raiseAll .write u.writes).Grants .read u.reads
    · have admits : Admits t u :=
        ⟨valid.grants_writes_iff.mp free, (valid.grants_reads_iff slots).mp unwritten⟩
      rw [if_pos unwritten] at reads
      simp only [takeLocks, writes, Logged.pure_bind, reads, if_pos admits, locked]
    · -- The reads are refused, so the writes that were just taken are given back.
      have refused : ¬ Admits t u := fun admits =>
        unwritten ((valid.grants_reads_iff slots).mpr admits.2)
      have released := LockTable.release_of_all_held .strict (valid.held_writes slots)
      rw [if_neg unwritten] at reads
      simp only [takeLocks, writes, Logged.pure_bind, reads, released, if_neg refused,
        LockTable.undo_raiseAll]
      rfl
  · have refused : ¬ Admits t u := fun admits => free (valid.grants_writes_iff.mpr admits.1)
    rw [if_neg free] at writes
    simp only [takeLocks, writes, Logged.pure_bind, if_neg refused]

open Classical in
theorem takeLocks_value (valid : u.WellDeclared kindCount) (slots : kindCount < t.size) :
    (u.takeLocks t).value = if Admits t u then (.ok true, locked t u) else (.ok false, t) := by
  rw [takeLocks_eq valid slots, Logged.value_pure]

theorem size_of_takeLocks {result : Except Misuse Bool} {locks : LockTable}
    (valid : u.WellDeclared kindCount) (slots : kindCount < t.size)
    (taken : (u.takeLocks t).value = (result, locks)) : locks.size = t.size := by
  rw [takeLocks_value valid slots] at taken
  split at taken
  · cases taken
    exact size_locked
  · cases taken
    rfl

/-- Held locks are given back, the reads first. -/
theorem returnLocks_eq (held : ∀ side k, (u.declared side).count k ≤ t.count side k) :
    u.returnLocks t = pure (.ok (), unlocked t u) := by
  have reads := LockTable.release_of_all_held .strict (held .read)
  -- Giving reads back leaves the writes.
  have kept : ∀ k, (u.declared .write).count k ≤ (t.undo .read u.reads).count .write k := by
    intro k
    rw [LockTable.count_undo]
    simpa using held .write k
  have writes := LockTable.release_of_all_held .strict kept
  simp only [declared] at reads writes
  simp only [returnLocks, reads, Logged.pure_bind, writes, unlocked]

theorem returnLocks_value (held : ∀ side k, (u.declared side).count k ≤ t.count side k) :
    (u.returnLocks t).value = (.ok (), unlocked t u) := by
  rw [returnLocks_eq held, Logged.value_pure]

end EntityWorld.Update
