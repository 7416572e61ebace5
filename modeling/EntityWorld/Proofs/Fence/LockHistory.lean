import EntityWorld.Proofs.Fence.LockSteps
import EntityWorld.Total

/-!
# Lock histories

A table that is only used by whole calls, one after another. Its counters are what was granted less
what was given back, whatever calls were made, and the next call is answered from these counters
alone: `LockTable.accounted_of_history`.
-/
namespace EntityWorld.LockTable

variable {t t' : LockTable} {side other : LockSide} {k : Kind} {kinds : List Kind} {call : Call}
  {answer : Bool} {log : List (Call × Bool)} {strictness : Strictness} {slots : Nat}

/-- How many locks on a kind were granted, by the calls that were made and their answers. -/
def granted (side : LockSide) (k : Kind) (log : List (Call × Bool)) : Nat :=
  total (log.map fun
    | (.acquire own kinds, true) => if own = side then kinds.count k else 0
    | (.acquire _ _, false) | (.release _ _, _) => 0)

/-- How many locks on a kind were given back. -/
def returned (side : LockSide) (k : Kind) (log : List (Call × Bool)) : Nat :=
  total (log.map fun
    | (.release own kinds, _) => if own = side then kinds.count k else 0
    | (.acquire _ _, _) => 0)

/-- A release names locks that were granted and not given back, each as often as it names it. -/
def Owned (log : List (Call × Bool)) : Call → Prop
  | .acquire _ _ => True
  | .release side kinds => ∀ k, returned side k log + kinds.count k ≤ granted side k log

/-- The calls that were made on a fresh table, one after another, and their answers. -/
inductive History (strictness : Strictness) (slots : Nat) : List (Call × Bool) → LockTable → Prop where
  | fresh : History strictness slots [] (.ofSize slots)
  | call {log : List (Call × Bool)} {t t' : LockTable} {call : Call} {answer : Bool}
      (before : History strictness slots log t) (known : t.Covers call.listed)
      (owned : Owned log call) (made : (t.perform strictness call).value = (.ok answer, t')) :
      History strictness slots (log ++ [(call, answer)]) t'

/-! ### The ledger -/

theorem granted_acquire (own : LockSide) (kinds : List Kind) (answer : Bool) :
    granted side k (log ++ [(.acquire own kinds, answer)]) =
      granted side k log + if answer ∧ own = side then kinds.count k else 0 := by
  cases answer <;> simp [granted, total_append, total]

theorem granted_release (own : LockSide) (kinds : List Kind) :
    granted side k (log ++ [(.release own kinds, answer)]) = granted side k log := by
  simp [granted, total_append, total]

theorem returned_acquire (own : LockSide) (kinds : List Kind) :
    returned side k (log ++ [(.acquire own kinds, answer)]) = returned side k log := by
  simp [returned, total_append, total]

theorem returned_release (own : LockSide) (kinds : List Kind) :
    returned side k (log ++ [(.release own kinds, answer)]) =
      returned side k log + if own = side then kinds.count k else 0 := by
  simp [returned, total_append, total]

/-! ### One call -/

/-- No kind that is written has another holder. -/
def Exclusive (t : LockTable) : Prop :=
  ∀ k, 0 < t.count .write k → t.count .write k = 1 ∧ t.count .read k = 0

theorem exclusive_of_grants (exclusive : t.Exclusive) (covers : t.Covers kinds)
    (grants : t.Grants side kinds) : (t.raiseAll side kinds).Exclusive := by
  intro k
  simp only [count_raiseAll covers]
  have before := exclusive k
  -- A kind that is not listed keeps its counters, and one that is listed had room for the lock.
  by_cases listed : k ∈ kinds
  · cases side with
    | read =>
      have unwritten := grants k listed
      simp only [reduceCtorEq, if_false, if_true]
      omega
    | write =>
      obtain ⟨distinct, free⟩ := grants
      have := free k listed
      have := List.nodup_iff_count.mp distinct k
      simp only [reduceCtorEq, if_false, if_true]
      omega
  · simpa [List.count_eq_zero.mpr listed] using before

theorem exclusive_of_undo (exclusive : t.Exclusive) : (t.undo side kinds).Exclusive := by
  intro k
  simp only [count_undo]
  have := exclusive k
  omega

/-- What a history keeps: the counters are the open balance of the ledger. -/
structure Balanced (log : List (Call × Bool)) (t : LockTable) : Prop where
  count : ∀ side k, t.count side k + returned side k log = granted side k log
  exclusive : t.Exclusive

theorem balanced_fresh (slots : Nat) : Balanced [] (ofSize slots) where
  count := by simp [count_ofSize, granted, returned, total]
  exclusive := by simp [Exclusive, count_ofSize]

theorem perform_release (strictness : Strictness) (held : ∀ k, kinds.count k ≤ t.count side k) :
    (t.perform strictness (.release side kinds)).value = (.ok true, t.undo side kinds) := by
  simp only [perform, Logged.value_bind, release_value strictness held, Logged.value_pure]
  rfl

/-- What the ledger says is held can be given back. -/
theorem Balanced.held (balanced : Balanced log t) (owned : Owned log (.release side kinds)) (k : Kind) :
    kinds.count k ≤ t.count side k := by
  have := owned k
  have := balanced.count side k
  omega

theorem Balanced.extend (balanced : Balanced log t) (known : t.Covers call.listed)
    (owned : Owned log call) (made : (t.perform strictness call).value = (.ok answer, t')) :
    Balanced (log ++ [(call, answer)]) t' := by
  cases call with
  | acquire own kinds =>
    have made : (t.acquire strictness own kinds).value = (.ok answer, t') := made
    have covers : t.Covers kinds := known
    rw [acquire_value strictness own t covers] at made
    split at made
    next grants =>
      cases made
      refine ⟨fun side k => ?_, exclusive_of_grants balanced.exclusive covers grants⟩
      have := balanced.count side k
      simp only [count_raiseAll covers, granted_acquire, returned_acquire, true_and]
      omega
    next =>
      cases made
      refine ⟨fun side k => ?_, balanced.exclusive⟩
      simpa [granted_acquire, returned_acquire] using balanced.count side k
  | release own kinds =>
    have held := balanced.held owned
    rw [perform_release strictness held] at made
    cases made
    refine ⟨fun side k => ?_, exclusive_of_undo balanced.exclusive⟩
    have before := balanced.count side k
    simp only [count_undo, granted_release, returned_release]
    split
    next same =>
      subst same
      have := held k
      omega
    next => omega

theorem balanced_of_history (history : History strictness slots log t) : Balanced log t := by
  induction history with
  | fresh => exact balanced_fresh slots
  | call _ known owned made ih => exact ih.extend known owned made

/-! ### Every history -/

/-- What a table is after a history, and how it answers the next call. -/
structure Accounted (strictness : Strictness) (log : List (Call × Bool)) (t : LockTable) : Prop where
  readers : ∀ k, t.readers k + returned .read k log = granted .read k log
  writers : ∀ k, t.writers k + returned .write k log = granted .write k log
  single : ∀ k, t.writers k ≤ 1
  exclusive : ∀ k, ¬ (0 < t.readers k ∧ 0 < t.writers k)
  idle : t.isIdle = true ↔ ∀ side k, returned side k log = granted side k log
  read : ∀ kinds, t.Covers kinds → ∃ answer t',
    (t.perform strictness (.acquire .read kinds)).value = (.ok answer, t') ∧
      (answer = true ↔ ∀ k ∈ kinds, t.writers k = 0) ∧ (answer = false → t' = t)
  write : ∀ kinds, t.Covers kinds → ∃ answer t',
    (t.perform strictness (.acquire .write kinds)).value = (.ok answer, t') ∧
      (answer = true ↔ kinds.Nodup ∧ ∀ k ∈ kinds, t.readers k = 0 ∧ t.writers k = 0) ∧
        (answer = false → t' = t)
  release : ∀ side kinds, Owned log (.release side kinds) → ∃ t',
    (t.perform strictness (.release side kinds)).value = (.ok true, t')

theorem perform_acquire (strictness : Strictness) (side : LockSide) (covers : t.Covers kinds) :
    ∃ answer t', (t.perform strictness (.acquire side kinds)).value = (.ok answer, t') ∧
      (answer = true ↔ t.Grants side kinds) ∧ (answer = false → t' = t) := by
  have value : (t.perform strictness (.acquire side kinds)).value = _ :=
    acquire_value strictness side t covers
  by_cases grants : t.Grants side kinds
  · rw [if_pos grants] at value
    exact ⟨_, _, value, by simp [grants], nofun⟩
  · rw [if_neg grants] at value
    exact ⟨_, _, value, by simp [grants], fun _ => rfl⟩

/-- After every history of whole calls the counters are what was granted and not given back, no kind
is held by a writer and another, and acquiring takes all of a list or nothing. -/
theorem accounted_of_history (history : History strictness slots log t) :
    Accounted strictness log t := by
  have balanced := balanced_of_history history
  have single (k : Kind) : t.count .write k ≤ 1 := by
    have := balanced.exclusive k
    omega
  refine ⟨balanced.count .read, balanced.count .write, single, ?_, ?_,
    fun kinds => perform_acquire strictness .read, fun kinds => perform_acquire strictness .write, ?_⟩
  · rintro k ⟨read, written⟩
    exact Nat.ne_of_gt read (balanced.exclusive k written).2
  · constructor
    · intro idle side k
      have := balanced.count side k
      rw [count_of_isIdle idle] at this
      omega
    · intro settled
      refine isIdle_of_count fun side k => ?_
      have := balanced.count side k
      have := settled side k
      omega
  · exact fun side kinds owned => ⟨_, perform_release strictness (balanced.held owned)⟩

/-- Four slots, and some readers of kind 2. -/
def readBy (readers : Nat) : LockTable := ⟨#[.free, .free, ⟨readers, 0⟩, .free]⟩

def refusal : List (Call × Bool) :=
  [(.acquire .read [⟨2⟩, ⟨2⟩], true), (.acquire .write [⟨1⟩, ⟨2⟩, ⟨3⟩], false),
    (.release .read [⟨2⟩], true)]

/-- Kind 2 is read twice, so a writer of three kinds takes none of them; then one reader leaves. -/
theorem accounted_of_refusal : History .strict 4 refusal (readBy 1) ∧
    Accounted .strict refusal (readBy 1) := by
  have covers (readers : Nat) : (readBy readers).Covers [⟨1⟩, ⟨2⟩, ⟨3⟩] := by
    simp [Covers, readBy, size]
  have reads (readers : Nat) : (readBy readers).Covers [⟨2⟩, ⟨2⟩] := by
    simp [Covers, readBy, size]
  have taken : History .strict 4 [(.acquire .read [⟨2⟩, ⟨2⟩], true)] (readBy 2) :=
    .call .fresh (reads 0) trivial rfl
  have refused : History .strict 4
      [(.acquire .read [⟨2⟩, ⟨2⟩], true), (.acquire .write [⟨1⟩, ⟨2⟩, ⟨3⟩], false)] (readBy 2) :=
    .call taken (covers 2) trivial rfl
  have owned (k : Kind) : 0 + [⟨2⟩].count k ≤ 0 + ([⟨2⟩, ⟨2⟩].count k + 0) := by
    simp only [List.count_cons, List.count_nil]
    omega
  have left : History .strict 4 refusal (readBy 1) :=
    .call refused (fun k member => reads 2 k (List.mem_cons_of_mem _ member))
      (fun k => by simpa [granted, returned, total] using owned k) rfl
  exact ⟨left, accounted_of_history left⟩

end EntityWorld.LockTable
