import EntityWorld.Fence.LockSteps
import EntityWorld.Proofs.Fence.LockTable

/-!
# A lock call with nobody in between

A caller that makes all operations of its call without anybody coming between changes the counters
and answers as `LockTable.perform` does: `LockTable.ends_perform`.
-/
namespace EntityWorld.LockTable

variable {strictness : Strictness} {slots : Nat} {t : LockTable} {side : LockSide} {k : Kind}
  {kinds taken : List Kind} {held : List Lock}

/-! ### Counters as machine words -/

/-- The kinds that a call names. -/
def Call.listed : Call → List Kind
  | .acquire _ kinds | .release _ kinds => kinds

/-- The counters of a table. -/
def words (t : LockTable) : Words := fun l => Int32.ofNat (t.count l.side l.kind)

/-- The counters that a caller looks at while it takes locks are not beyond the largest machine
word. A reader never looks at the readers. -/
def Legible (t : LockTable) (side : LockSide) : Prop :=
  ∀ k, (side = .write → t.count side k < 2147483648) ∧ t.count side.other k < 2147483648

theorem Words.sub_add (w : Words) (l : Lock) : (w.add l).sub l = w := by
  funext m
  by_cases here : m = l
  · subst here
    simp [Words.add, Words.sub, Words.put, Int32.add_sub_cancel]
  · simp [Words.add, Words.sub, Words.put, here]

theorem Words.add_sub (w : Words) (l : Lock) : (w.sub l).add l = w := by
  funext m
  by_cases here : m = l
  · subst here
    simp [Words.add, Words.sub, Words.put, Int32.sub_add_cancel]
  · simp [Words.add, Words.sub, Words.put, here]

/-- The words hold these numbers. -/
def Words.Counts (w : Words) (n : Lock → Nat) : Prop := ∀ l, w l = Int32.ofNat (n l)

namespace Words.Counts

variable {w : Words} {n n' : Lock → Nat} {l : Lock}

theorem toInt (counts : w.Counts n) (small : n l < 2147483648) : (w l).toInt = n l := by
  rw [counts l, Int32.toInt_ofNat_of_lt small]

theorem pos_iff (counts : w.Counts n) (small : n l < 2147483648) : 0 < w l ↔ 0 < n l := by
  rw [Int32.lt_iff_toInt_lt, counts.toInt small, Int32.toInt_zero]
  omega

theorem eq_zero_iff (counts : w.Counts n) (small : n l < 2147483648) : w l = 0 ↔ n l = 0 := by
  rw [← Int32.toInt_inj, counts.toInt small, Int32.toInt_zero]
  omega

theorem congr (counts : w.Counts n) (same : ∀ m, n' m = n m) : w.Counts n' :=
  fun m => (counts m).trans (congrArg Int32.ofNat (same m).symm)

theorem add (counts : w.Counts n) (more : ∀ m, n' m = n m + if l = m then 1 else 0) :
    (w.add l).Counts n' := by
  intro m
  rw [more, Words.add, Words.put]
  by_cases here : m = l
  · subst here
    rw [if_pos rfl, if_pos rfl, counts, Int32.ofNat_add]
    rfl
  · rw [if_neg here, if_neg (Ne.symm here), counts, Nat.add_zero]

theorem sub (counts : w.Counts n) (less : ∀ m, n m = n' m + if l = m then 1 else 0) :
    (w.sub l).Counts n' := by
  intro m
  have before := counts m
  rw [less] at before
  rw [Words.sub, Words.put]
  by_cases here : m = l
  · subst here
    rw [if_pos rfl, Int32.ofNat_add] at before
    rw [if_pos rfl, before]
    exact Int32.add_sub_cancel _ _
  · rw [if_neg (Ne.symm here), Nat.add_zero] at before
    rw [if_neg here, before]

theorem unique {v : Words} (counts : w.Counts n) (other : v.Counts n) : w = v :=
  funext fun l => (counts l).trans (other l).symm

end Words.Counts

theorem counts_words (t : LockTable) : t.words.Counts fun l => t.count l.side l.kind := fun _ => rfl

theorem words_raise (inside : k.index < t.size) : (t.raise side k).words = t.words.add ⟨side, k⟩ := by
  refine (counts_words _).unique ((counts_words t).add fun ⟨other, l⟩ => ?_)
  simp only [count_raise inside, Lock.mk.injEq]

theorem words_lower (positive : 0 < t.count side k) :
    (t.lower side k).words = t.words.sub ⟨side, k⟩ := by
  refine (counts_words _).unique ((counts_words t).sub fun ⟨other, l⟩ => ?_)
  simp only [count_lower, Lock.mk.injEq]
  split
  next same =>
    obtain ⟨rfl, rfl⟩ := same
    omega
  next => rfl

theorem publish?_eq (w : Words) (l : Lock) :
    publish? w l = if l.side = .write → w l = 0 then some (w.add l) else none := by
  obtain ⟨side, k⟩ := l
  cases side with
  | read => simp [publish?]
  | write =>
    by_cases free : w ⟨.write, k⟩ = 0
    · simp [publish?, free, Words.add]
    · simp [publish?, free]

/-! ### One caller after its own operations -/

/-- The operations of one caller, one after another. -/
inductive Leads (strictness : Strictness) (slots : Nat) :
    Words → Caller → Words → Caller → Prop where
  | here {w : Words} {c : Caller} : Leads strictness slots w c w c
  | step {w w' w'' : Words} {c c' c'' : Caller}
      (made : advance? strictness slots w c = some (w', c'))
      (rest : Leads strictness slots w' c' w'' c'') : Leads strictness slots w c w'' c''

theorem leads_undoing (covers : t.Covers taken) (held : List Lock) :
    Leads strictness slots (t.raiseAll side taken).words ⟨.undoing side taken, held⟩
      t.words ⟨.answered (.ok false), held⟩ := by
  induction taken generalizing t with
  | nil => exact .step rfl .here
  | cons k rest ih =>
    have inside : k.index < (t.raiseAll side rest).size := by
      rw [size_raiseAll]
      exact covers k List.mem_cons_self
    have lowered : (t.raiseAll side (k :: rest)).words.sub ⟨side, k⟩ =
        (t.raiseAll side rest).words := by
      calc ((t.raise side k).raiseAll side rest).words.sub ⟨side, k⟩
          = ((t.raiseAll side rest).words.add ⟨side, k⟩).sub ⟨side, k⟩ := by
            rw [← raise_raiseAll, words_raise inside]
        _ = (t.raiseAll side rest).words := Words.sub_add ..
    refine .step rfl ?_
    rw [lowered]
    exact ih fun j member => covers j (List.mem_cons_of_mem k member)

/-- A caller that goes on alone ends with the counters and the answer of the whole call. -/
def Ends (strictness : Strictness) (slots : Nat) (w : Words) (c : Caller)
    (outcome : Except Misuse Bool × LockTable) : Prop :=
  ∃ held, Leads strictness slots w c outcome.2.words ⟨.answered outcome.1, held⟩

theorem Ends.step {w w' : Words} {c c' : Caller} {outcome : Except Misuse Bool × LockTable}
    (made : advance? strictness slots w c = some (w', c'))
    (rest : Ends strictness slots w' c' outcome) : Ends strictness slots w c outcome := by
  obtain ⟨held, leads⟩ := rest
  exact ⟨held, .step made leads⟩

/-- A kind can be granted alone if it can be published and has no rival. -/
theorem grants_single_iff : t.Grants side [k] ↔
    (side = .write → t.count side k = 0) ∧ t.count side.other k = 0 := by
  cases side <;> simp [Grants, LockSide.other, and_comm]

/-- A mark does not hide the rival. -/
theorem count_raise_other (inside : k.index < t.size) (l : Kind) :
    (t.raise side k).count side.other l = t.count side.other l := by
  rw [count_raise inside]
  cases side <;> simp [LockSide.other]

/-- A writer that is let in is the only one, so the counters it has raised are still to be read. -/
theorem Legible.raise (legible : t.Legible side) (grants : t.Grants side [k])
    (inside : k.index < t.size) : (t.raise side k).Legible side := by
  intro l
  rw [count_raise_other inside, count_raise inside]
  refine ⟨fun writes => ?_, (legible l).2⟩
  have free := (grants_single_iff.mp grants).1 writes
  have before := (legible l).1 writes
  by_cases here : k = l
  · subst here
    simp [free]
  · simpa [here] using before

theorem publish?_words (legible : t.Legible side) (inside : k.index < t.size) :
    publish? t.words ⟨side, k⟩ =
      if side = .write → t.count side k = 0 then some (t.raise side k).words else none := by
  rw [publish?_eq, words_raise inside]
  cases side with
  | read => simp
  | write =>
    have small : t.count .write k < 2147483648 := (legible k).1 rfl
    have unheld : t.words ⟨.write, k⟩ = 0 ↔ t.count .write k = 0 := (counts_words t).eq_zero_iff small
    simp only [unheld]

/-- Both marks stand when a caller looks at the other side. -/
theorem words_rival (legible : t.Legible side) (inside : k.index < t.size) :
    0 < (t.raise side k).words (Lock.rival ⟨side, k⟩) ↔ t.count side.other k ≠ 0 := by
  have small : (t.raise side k).count side.other k < 2147483648 := by
    rw [count_raise_other inside]
    exact (legible k).2
  rw [← count_raise_other inside, ← Nat.pos_iff_ne_zero]
  exact (counts_words _).pos_iff small

/-- One kind that the table has: it is taken, or what was taken before is given back. -/
theorem ends_taking_cons (covers : t.Covers taken)
    (legible : (t.raiseAll side taken).Legible side) (inside : k.index < t.size)
    (rest : (t.raiseAll side taken).Grants side [k] →
      Ends strictness t.size (t.raiseAll side (taken ++ [k])).words
        ⟨.taking side (taken ++ [k]) kinds, held⟩
        (acquireFrom strictness side (taken ++ [k]) (t.raiseAll side (taken ++ [k])) kinds).value) :
    Ends strictness t.size (t.raiseAll side taken).words ⟨.taking side taken (k :: kinds), held⟩
      (acquireFrom strictness side taken (t.raiseAll side taken) (k :: kinds)).value := by
  have present : k.index < (t.raiseAll side taken).size := by rwa [size_raiseAll]
  have undone : Ends strictness t.size (t.raiseAll side taken).words ⟨.undoing side taken, held⟩
      (.ok false, t) := ⟨held, leads_undoing covers held⟩
  have refused (blocked : ¬ (t.raiseAll side taken).Grants side [k]) :
      (acquireFrom strictness side taken (t.raiseAll side taken) (k :: kinds)).value =
        (.ok false, t) := acquireFrom_of_refused strictness taken inside blocked
  by_cases free : side = .write → (t.raiseAll side taken).count side k = 0
  · have published : advance? strictness t.size (t.raiseAll side taken).words
        ⟨.taking side taken (k :: kinds), held⟩ =
        some (((t.raiseAll side taken).raise side k).words, ⟨.checking side taken k kinds, held⟩) := by
      simp only [advance?, if_pos inside, publish?_words legible present, if_pos free]
    refine .step published ?_
    have seen := words_rival legible present
    by_cases alone : (t.raiseAll side taken).count side.other k = 0
    · have grants := grants_single_iff.mpr ⟨free, alone⟩
      rw [acquireFrom_of_grants strictness taken inside grants, ← raiseAll_snoc]
      rw [← raiseAll_snoc] at seen
      exact .step (if_neg fun other => seen.mp other alone) (rest grants)
    · rw [refused fun grants => alone (grants_single_iff.mp grants).2]
      refine .step (if_pos (seen.mpr alone)) (.step rfl ?_)
      rw [words_raise present, Words.sub_add]
      exact undone
  · have blocked : advance? strictness t.size (t.raiseAll side taken).words
        ⟨.taking side taken (k :: kinds), held⟩ =
        some ((t.raiseAll side taken).words, ⟨.undoing side taken, held⟩) := by
      simp only [advance?, if_pos inside, publish?_words legible present, if_neg free]
    rw [refused fun grants => free (grants_single_iff.mp grants).1]
    exact .step blocked undone

/-- A kind that the table does not have. -/
theorem ends_taking_unknown (covers : t.Covers taken) (outside : ¬ k.index < t.size) :
    Ends strictness t.size (t.raiseAll side taken).words ⟨.taking side taken (k :: kinds), held⟩
      (acquireFrom strictness side taken (t.raiseAll side taken) (k :: kinds)).value := by
  cases strictness with
  | strict =>
    have missing : (t.raiseAll side taken).slot? k = none := slot?_of_not_lt (by rwa [size_raiseAll])
    have stopped : (acquireFrom .strict side taken (t.raiseAll side taken) (k :: kinds)).value =
        (.error (.unknownLockRequested side k), t.raiseAll side taken) := by
      simp only [acquireFrom, missing]
      rfl
    rw [stopped]
    exact .step (if_neg outside) ⟨_, .here⟩
  | lenient =>
    rw [acquireFrom_of_unknown taken outside]
    exact .step (if_neg outside) ⟨held, leads_undoing covers held⟩

theorem ends_taking (covers : t.Covers taken) (legible : (t.raiseAll side taken).Legible side) :
    Ends strictness t.size (t.raiseAll side taken).words ⟨.taking side taken kinds, held⟩
      (acquireFrom strictness side taken (t.raiseAll side taken) kinds).value := by
  induction kinds generalizing taken with
  | nil => exact .step rfl ⟨_, .here⟩
  | cons k rest ih =>
    by_cases inside : k.index < t.size
    · refine ends_taking_cons covers legible inside fun grants => ih (fun j member => ?_) ?_
      · rcases List.mem_append.mp member with old | new
        · exact covers j old
        · exact List.mem_singleton.mp new ▸ inside
      · rw [raiseAll_snoc]
        exact legible.raise grants (by rwa [size_raiseAll])
    · exact ends_taking_unknown covers inside

/-- An entry that there is nothing to give back for: a strict build stops, a lenient one goes on. -/
theorem ends_missed {misuse : Misuse} (small : t.count side k < 2147483648)
    (missed : t.missed? side [] k = some misuse)
    (rest : Ends strictness t.size t.words ⟨.returning side kinds, held⟩
      (t.perform strictness (.release side kinds)).value) :
    Ends strictness t.size t.words ⟨.returning side (k :: kinds), held⟩
      (t.perform strictness (.release side (k :: kinds))).value := by
  obtain ⟨stops, skips⟩ := release_of_missed missed kinds
  have stopped : (t.perform .strict (.release side (k :: kinds))).value = (.error misuse, t) := by
    simp only [perform, Logged.value_bind, stops, Logged.value_pure]
    rfl
  have skipped : (t.perform .lenient (.release side (k :: kinds))).value =
      (t.perform .lenient (.release side kinds)).value := by
    simp only [perform, Logged.value_bind, skips]
  rcases missed?_cases missed with ⟨inside, unheld, rfl⟩ | ⟨outside, rfl⟩
  · have empty : t.words ⟨side, k⟩ ≤ 0 := by
      rw [Int32.le_iff_toInt_le, (counts_words t).toInt small, Int32.toInt_zero, unheld]
      exact Int.le_refl 0
    have tried : advance? strictness t.size t.words ⟨.returning side (k :: kinds), held⟩ =
        some (t.words.sub ⟨side, k⟩, ⟨.restoring side k kinds, held⟩) := by
      simp only [advance?, if_pos inside, if_pos empty]
    refine .step tried ?_
    cases strictness with
    | strict =>
      rw [stopped]
      refine .step rfl ?_
      rw [Words.add_sub]
      exact ⟨_, .here⟩
    | lenient =>
      rw [skipped]
      refine .step rfl ?_
      rwa [Words.add_sub]
  · cases strictness with
    | strict =>
      rw [stopped]
      exact .step (if_neg outside) ⟨_, .here⟩
    | lenient =>
      rw [skipped]
      exact .step (if_neg outside) rest

/-- The locks of a release are given back one by one. -/
theorem ends_returning (small : ∀ side k, t.count side k < 2147483648) :
    Ends strictness t.size t.words ⟨.returning side kinds, held⟩
      (t.perform strictness (.release side kinds)).value := by
  induction kinds generalizing t held with
  | nil => exact .step rfl ⟨_, .here⟩
  | cons k rest ih =>
    cases missed : t.missed? side [] k with
    | some misuse => exact ends_missed (small side k) missed (ih small)
    | none =>
      have positive := missed?_eq_none_iff.mp missed
      obtain ⟨s, found, -⟩ := slot_of_count_pos positive
      obtain ⟨inside, -⟩ := Array.getElem?_eq_some_iff.mp found
      have some_left : ¬ t.words ⟨side, k⟩ ≤ 0 := by
        rw [Int32.le_iff_toInt_le, (counts_words t).toInt (small side k), Int32.toInt_zero]
        exact Int.not_le.mpr (Int.natCast_pos.mpr positive)
      have given : advance? strictness t.size t.words ⟨.returning side (k :: rest), held⟩ =
          some ((t.lower side k).words, ⟨.returning side rest, held.erase ⟨side, k⟩⟩) := by
        rw [words_lower positive]
        exact (if_pos inside).trans (if_neg some_left)
      have lowered (other : LockSide) (l : Kind) : (t.lower side k).count other l < 2147483648 := by
        rw [count_lower]
        exact Nat.lt_of_le_of_lt (Nat.sub_le ..) (small other l)
      have after : t.perform strictness (.release side (k :: rest)) =
          (t.lower side k).perform strictness (.release side rest) := by
        simp only [perform, release_of_held strictness positive]
      rw [after]
      refine .step given ?_
      rw [← size_lower (t := t)]
      exact ih lowered

/-- A caller that nobody interrupts does what the whole call does to the counters, and answers so. -/
theorem ends_perform (strictness : Strictness) (call : Call) (held : List Lock)
    (small : ∀ side k, t.count side k < 2147483648) :
    Ends strictness t.size t.words ⟨call.opening, held⟩ (t.perform strictness call).value := by
  cases call with
  | acquire side kinds =>
    have covers : t.Covers [] := fun k member => by cases member
    exact ends_taking covers fun k => ⟨fun _ => small side k, small side.other k⟩
  | release side kinds => exact ends_returning small

end EntityWorld.LockTable
