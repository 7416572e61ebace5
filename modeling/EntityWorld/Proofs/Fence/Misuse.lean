import EntityWorld.Proofs.Fence.LockHistory

/-!
# Misused lock tables

A lenient build reports misuse and goes on. Its callers may name kinds that the table does not have,
name a kind twice and give back what they do not hold. No sequence of such calls brings a counter
below zero or lets a writer in beside another holder, and each call still does a definite thing to
the counters: `LockTable.guarded_of_session`.
-/
namespace EntityWorld.LockTable

variable {t t' : LockTable} {side : LockSide} {k : Kind} {kinds : List Kind} {call : Call}
  {answer : Bool} {log : List (Call × Bool)} {slots : Nat}

/-- The calls that were made on a fresh table in a lenient build, one after another, and their
answers. No kind ever has more readers than its counter can hold. -/
inductive Session (slots : Nat) : List (Call × Bool) → LockTable → Prop where
  | fresh : Session slots [] (.ofSize slots)
  | call {log : List (Call × Bool)} {t t' : LockTable} {call : Call} {answer : Bool}
      (before : Session slots log t) (made : (t.perform .lenient call).value = (.ok answer, t'))
      (few : ∀ k, t'.readers k < 2147483648) : Session slots (log ++ [(call, answer)]) t'

/-- Such calls made one operation on one machine word at a time, by callers that nobody interrupts. -/
inductive Steps (slots : Nat) : List (Call × Bool) → Words → Prop where
  | fresh : Steps slots [] fun _ => 0
  | call {log : List (Call × Bool)} {w w' : Words} {call : Call} {answer : Bool}
      {held held' : List Lock} (before : Steps slots log w)
      (made : Leads .lenient slots w ⟨call.opening, held⟩ w' ⟨.answered (.ok answer), held'⟩) :
      Steps slots (log ++ [(call, answer)]) w'

/-- How many locks on a kind stand after calls with these answers. What is given back beyond that
counts for nothing. -/
def standing (side : LockSide) (k : Kind) (log : List (Call × Bool)) : Nat :=
  log.foldl
    (fun held => fun
      | (.acquire own kinds, true) => if own = side then held + kinds.count k else held
      | (.acquire _ _, false) => held
      | (.release own kinds, _) => if own = side then held - kinds.count k else held)
    0

/-- What is reported of a release: the entries of its list that there is nothing to give back for. -/
def missed (t : LockTable) (side : LockSide) (kinds : List Kind) : List Misuse :=
  kinds.zipIdx.filterMap fun (k, place) => t.missed? side (kinds.take place) k

/-! ### Acquiring any list -/

/-- A list with an unknown kind is refused, wherever the kind stands in it. -/
theorem acquireFrom_of_uncovered (taken : List Kind) (unknown : ¬ t.Covers kinds) :
    (acquireFrom .lenient side taken (t.raiseAll side taken) kinds).value = (.ok false, t) := by
  induction kinds generalizing taken with
  | nil => exact absurd (fun k member => by cases member) unknown
  | cons k rest ih =>
    -- The unknown kind comes later if the first one is known, unless that one is refused before.
    by_cases inside : k.index < t.size
    · by_cases room : (t.raiseAll side taken).Grants side [k]
      · rw [acquireFrom_of_grants .lenient taken inside room]
        refine ih (taken ++ [k]) fun covers => unknown fun l member => ?_
        rcases List.mem_cons.mp member with rfl | member
        · exact inside
        · exact covers l member
      · exact acquireFrom_of_refused .lenient taken inside room
    · exact acquireFrom_of_unknown taken inside

open Classical in
/-- Any list is granted as a whole, or refused with every counter as before. -/
theorem acquire_lenient (t : LockTable) (side : LockSide) (kinds : List Kind) :
    (t.acquire .lenient side kinds).value =
      if t.Covers kinds ∧ t.Grants side kinds then (.ok true, t.raiseAll side kinds)
      else (.ok false, t) := by
  by_cases covers : t.Covers kinds
  · rw [acquire_value .lenient side t covers]
    simp only [covers, true_and]
  · rw [if_neg fun both => covers both.1]
    exact acquireFrom_of_uncovered [] covers

/-! ### Releasing any list -/

theorem lower_of_count_zero (unheld : t.count side k = 0) : t.lower side k = t := by
  apply ext_slots
  intro i
  rw [slots_lower]
  split
  next here =>
    subst here
    cases found : t.slots[k.index]? with
    | none => rfl
    | some s =>
      have empty : s.count side = 0 := by simpa [count, slot?, found] using unheld
      rw [Option.map_some, LockSlot.lower_of_count_zero empty]
  next => rfl

/-- An entry finds its lock after the first one if the table that the first one leaves has it. -/
theorem missed?_cons (t : LockTable) (side : LockSide) (k l : Kind) (before : List Kind) :
    t.missed? side (k :: before) l = (t.lower side k).missed? side before l := by
  have turn : (k :: before).count l < t.count side l ↔
      before.count l < (t.lower side k).count side l := by
    rw [count_lower, List.count_cons]
    by_cases same : k = l
    · subst same
      simp only [beq_self_eq_true, if_true, and_self]
      omega
    · simp [same]
  simp only [missed?, turn, size_lower]

theorem missed_cons (t : LockTable) (side : LockSide) (k : Kind) (kinds : List Kind) :
    t.missed side (k :: kinds) =
      (t.missed? side [] k).toList ++ (t.lower side k).missed side kinds := by
  simp only [missed, List.zipIdx_cons, List.zipIdx_succ, List.filterMap_cons, List.filterMap_map,
    Function.comp_def, List.take_succ_cons, List.take_zero, missed?_cons]
  cases t.missed? side [] k <;> rfl

/-- A release takes one from each listed counter that is positive at its turn, reports the others
and goes on. -/
theorem release_lenient (t : LockTable) (side : LockSide) (kinds : List Kind) :
    t.release .lenient side kinds =
      ⟨(.ok (), t.undo side kinds), (t.missed side kinds).map Misuse.event⟩ := by
  induction kinds generalizing t with
  | nil => rfl
  | cons k rest ih =>
    have undo_cons : t.undo side (k :: rest) = (t.lower side k).undo side rest := rfl
    rw [undo_cons, missed_cons]
    cases missed : t.missed? side [] k with
    | none => exact (release_of_held .lenient (missed?_eq_none_iff.mp missed)).trans (ih _)
    | some misuse =>
      -- The counter is at zero, where lowering it changes nothing.
      rw [(release_of_missed missed rest).2, ih, lower_of_count_zero (count_of_missed missed)]
      rfl

/-! ### The calls of a session -/

theorem performed_acquire (t : LockTable) (side : LockSide) (kinds : List Kind) :
    ∃ answer t', (t.perform .lenient (.acquire side kinds)).value = (.ok answer, t') ∧
      (answer = true ↔ t.Covers kinds ∧ t.Grants side kinds) ∧
      t' = if answer then t.raiseAll side kinds else t := by
  have value : (t.perform .lenient (.acquire side kinds)).value = _ := acquire_lenient t side kinds
  by_cases both : t.Covers kinds ∧ t.Grants side kinds
  · rw [if_pos both] at value
    exact ⟨_, _, value, by simp [both], rfl⟩
  · rw [if_neg both] at value
    exact ⟨_, _, value, by simp [both], rfl⟩

theorem performed_release (t : LockTable) (side : LockSide) (kinds : List Kind) :
    t.perform .lenient (.release side kinds) =
      ⟨(.ok true, t.undo side kinds), (t.missed side kinds).map Misuse.event⟩ := by
  simp only [perform, release_lenient]
  exact congrArg (Logged.mk _) (List.append_nil _)

theorem standing_acquire (own : LockSide) (kinds : List Kind) (answer : Bool) :
    standing side k (log ++ [(.acquire own kinds, answer)]) =
      standing side k log + if answer ∧ own = side then kinds.count k else 0 := by
  rw [standing, List.foldl_append]
  cases answer with
  | false => simp [standing]
  | true => by_cases same : own = side <;> simp [standing, same]

theorem standing_release (own : LockSide) (kinds : List Kind) :
    standing side k (log ++ [(.release own kinds, answer)]) =
      standing side k log - if own = side then kinds.count k else 0 := by
  rw [standing, List.foldl_append]
  by_cases same : own = side <;> simp [standing, same]

/-- What a session keeps. -/
structure Sound (slots : Nat) (log : List (Call × Bool)) (t : LockTable) : Prop where
  size : t.size = slots
  counted : ∀ side k, t.count side k = standing side k log
  exclusive : t.Exclusive
  few : ∀ k, t.count .read k < 2147483648
  steps : Steps slots log t.words

theorem sound_fresh (slots : Nat) : Sound slots [] (ofSize slots) where
  size := Array.size_replicate
  counted := by simp [count_ofSize, standing]
  exclusive := by simp [Exclusive, count_ofSize]
  few := by simp [count_ofSize]
  steps := by
    have words : (ofSize slots).words = fun _ => 0 := by
      funext l
      rw [LockTable.words, count_ofSize]
      rfl
    rw [words]
    exact .fresh

/-- Every counter can be read. -/
theorem Sound.small (sound : Sound slots log t) (side : LockSide) (k : Kind) :
    t.count side k < 2147483648 := by
  cases side with
  | read => exact sound.few k
  | write =>
    have := sound.exclusive k
    omega

theorem Sound.step (sound : Sound slots log t)
    (made : (t.perform .lenient call).value = (.ok answer, t')) :
    Steps slots (log ++ [(call, answer)]) t'.words := by
  have ends := ends_perform .lenient call [] sound.small
  rw [made, sound.size] at ends
  obtain ⟨held, leads⟩ := ends
  exact .call sound.steps leads

theorem Sound.extend (sound : Sound slots log t)
    (made : (t.perform .lenient call).value = (.ok answer, t'))
    (few : ∀ k, t'.readers k < 2147483648) : Sound slots (log ++ [(call, answer)]) t' := by
  have steps := sound.step made
  cases call with
  | acquire own kinds =>
    obtain ⟨granted, after, performed, allowed, rfl⟩ := performed_acquire t own kinds
    rw [performed] at made
    cases made
    cases answer with
    | true =>
      obtain ⟨covers, grants⟩ := allowed.mp rfl
      refine ⟨size_raiseAll.trans sound.size, fun side k => ?_,
        exclusive_of_grants sound.exclusive covers grants, few, steps⟩
      simp [count_raiseAll covers, standing_acquire, sound.counted]
    | false =>
      refine ⟨sound.size, fun side k => ?_, sound.exclusive, few, steps⟩
      simp [standing_acquire, sound.counted]
  | release own kinds =>
    rw [performed_release] at made
    cases made
    refine ⟨size_undo.trans sound.size, fun side k => ?_, exclusive_of_undo sound.exclusive, few,
      steps⟩
    rw [count_undo, standing_release, sound.counted]

theorem sound_of_session (session : Session slots log t) : Sound slots log t := by
  induction session with
  | fresh => exact sound_fresh slots
  | call _ made few ih => exact ih.extend made few

/-! ### Every session -/

/-- What a table is after a session, and what the next call does to it. -/
structure Guarded (slots : Nat) (log : List (Call × Bool)) (t : LockTable) : Prop where
  size : t.size = slots
  -- The calls lead to these counters also when their operations are made on signed words, and no
  -- word is below zero.
  steps : Steps slots log t.words
  counted : ∀ side k, t.count side k = standing side k log
  natural : ∀ l, 0 ≤ t.words l ∧ (t.words l).toInt = t.count l.side l.kind
  single : ∀ k, t.writers k ≤ 1
  exclusive : ∀ k, ¬ (0 < t.readers k ∧ 0 < t.writers k)
  acquire : ∀ side kinds, ∃ answer t',
    (t.perform .lenient (.acquire side kinds)).value = (.ok answer, t') ∧
      (answer = true ↔ t.Covers kinds ∧ t.Grants side kinds) ∧ (answer = false → t' = t)
  release : ∀ side kinds, ∃ t',
    t.perform .lenient (.release side kinds) =
        ⟨(.ok true, t'), (t.missed side kinds).map Misuse.event⟩ ∧
      t'.size = t.size ∧ ∀ other k, t'.count other k =
        t.count other k - if side = other then kinds.count k else 0

/-- Whatever lists a lenient build is called with, the counters stay natural numbers, no kind is held
by a writer and another, a refusal changes nothing, and a release gives back what is there. -/
theorem guarded_of_session (session : Session slots log t) : Guarded slots log t := by
  have sound := sound_of_session session
  refine ⟨sound.size, sound.steps, sound.counted, fun l => ?_, fun k => ?_, ?_,
    fun side kinds => ?_, fun side kinds => ?_⟩
  · have value := (counts_words t).toInt (sound.small l.side l.kind)
    refine ⟨?_, value⟩
    rw [Int32.le_iff_toInt_le, value, Int32.toInt_zero]
    exact Int.natCast_nonneg _
  · have := sound.exclusive k
    rw [writers_eq_count]
    omega
  · rintro k ⟨read, written⟩
    exact Nat.ne_of_gt read (sound.exclusive k written).2
  · obtain ⟨answer, t', performed, allowed, after⟩ := performed_acquire t side kinds
    refine ⟨answer, t', performed, allowed, ?_⟩
    rintro rfl
    exact after
  · exact ⟨_, performed_release t side kinds, size_undo, fun other k => count_undo⟩

theorem readers_readBy (readers : Nat) (k : Kind) : (readBy readers).readers k ≤ readers := by
  obtain ⟨i⟩ := k
  rcases i with _ | _ | _ | _ | i <;> simp [LockTable.readers, slot?, readBy, LockSlot.free]

def misuses : List (Call × Bool) :=
  [(.acquire .read [⟨2⟩, ⟨2⟩], true), (.acquire .write [⟨1⟩, ⟨9⟩], false),
    (.release .read [⟨9⟩, ⟨2⟩, ⟨3⟩, ⟨2⟩, ⟨2⟩], true), (.acquire .write [⟨1⟩, ⟨1⟩], false)]

/-- Two readers of kind 2; a writer that asks for kind 9, which the table does not have; three locks
given back that nobody holds; and a writer that would wait for itself. The table is as before. -/
theorem guarded_of_misuses :
    Session 4 misuses (readBy 0) ∧ Guarded 4 misuses (readBy 0) ∧
      (readBy 2).missed .read [⟨9⟩, ⟨2⟩, ⟨3⟩, ⟨2⟩, ⟨2⟩] =
        [.unknownLockReleased .read ⟨9⟩, .lockNotHeld .read ⟨3⟩, .lockNotHeld .read ⟨2⟩] := by
  have few (readers : Nat) (small : readers < 2147483648) (k : Kind) :
      (readBy readers).readers k < 2147483648 :=
    Nat.lt_of_le_of_lt (readers_readBy readers k) small
  have taken : Session 4 (misuses.take 1) (readBy 2) := .call .fresh rfl (few 2 (by decide))
  have refused : Session 4 (misuses.take 2) (readBy 2) := .call taken rfl (few 2 (by decide))
  have given : Session 4 (misuses.take 3) (readBy 0) := .call refused rfl (few 0 (by decide))
  have misused : Session 4 misuses (readBy 0) := .call given rfl (few 0 (by decide))
  exact ⟨misused, guarded_of_session misused, by decide⟩

end EntityWorld.LockTable
