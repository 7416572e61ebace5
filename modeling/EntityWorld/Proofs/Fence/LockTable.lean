import EntityWorld.Fence.LockTable

/-!
# Lock table counters

Acquiring raises one counter per listed kind and releasing lowers it again. Main statements:
`acquire_value` says exactly when a whole list is granted and that a refusal changes nothing;
`release_value` says that a list of held locks is given back one by one.
-/
namespace EntityWorld

namespace LockSlot

theorem lower_raise (s : LockSlot) (side : LockSide) : (s.raise side).lower side = s := by
  cases side <;> rfl

theorem count_raise (s : LockSlot) (side other : LockSide) :
    (s.raise side).count other = s.count other + if side = other then 1 else 0 := by
  cases side <;> cases other <;> rfl

theorem count_lower (s : LockSlot) (side other : LockSide) :
    (s.lower side).count other = s.count other - if side = other then 1 else 0 := by
  cases side <;> cases other <;> rfl

/-- A counter stops at zero. -/
theorem lower_of_count_zero {s : LockSlot} {side : LockSide} (empty : s.count side = 0) :
    s.lower side = s := by
  obtain ⟨readers, writers⟩ := s
  cases side with
  | read =>
    obtain rfl : readers = 0 := empty
    rfl
  | write =>
    obtain rfl : writers = 0 := empty
    rfl

end LockSlot

namespace LockTable

/-- The counter of one side of a kind; a kind without a slot counts nothing. -/
def count (t : LockTable) (side : LockSide) (k : Kind) : Nat :=
  ((t.slot? k).map fun s => s.count side).getD 0

/-- Every listed kind has a slot. -/
def Covers (t : LockTable) (kinds : List Kind) : Prop := ∀ k ∈ kinds, k.index < t.size

/-- Raises the counter of every listed kind, as often as it is listed. -/
def raiseAll (t : LockTable) (side : LockSide) (kinds : List Kind) : LockTable :=
  kinds.foldl (fun t k => t.raise side k) t

variable {t : LockTable} {side other : LockSide} {k l : Kind} {kinds : List Kind}

theorem readers_eq_count : t.readers k = t.count .read k := rfl

theorem writers_eq_count : t.writers k = t.count .write k := rfl

theorem ext_slots {a b : LockTable} (same : ∀ i : Nat, a.slots[i]? = b.slots[i]?) : a = b := by
  cases a
  cases b
  exact congrArg LockTable.mk (Array.ext_getElem? same)

@[simp] theorem size_raise : (t.raise side k).size = t.size := by
  simp only [size, raise, Array.size_modify]

@[simp] theorem size_lower : (t.lower side k).size = t.size := by
  simp only [size, lower, Array.size_modify]

@[simp] theorem size_raiseAll : (t.raiseAll side kinds).size = t.size := by
  induction kinds generalizing t with
  | nil => rfl
  | cons k rest ih => exact ih.trans size_raise

@[simp] theorem size_undo : (t.undo side kinds).size = t.size := by
  induction kinds generalizing t with
  | nil => rfl
  | cons k rest ih => exact ih.trans size_lower

theorem slots_raise (i : Nat) : (t.raise side k).slots[i]? =
    if k.index = i then t.slots[i]?.map (LockSlot.raise · side) else t.slots[i]? := by
  simp only [raise, Array.getElem?_modify]

theorem slots_lower (i : Nat) : (t.lower side k).slots[i]? =
    if k.index = i then t.slots[i]?.map (LockSlot.lower · side) else t.slots[i]? := by
  simp only [lower, Array.getElem?_modify]

theorem lower_raise (t : LockTable) (side : LockSide) (k : Kind) :
    (t.raise side k).lower side k = t := by
  apply ext_slots
  intro i
  rw [slots_lower, slots_raise]
  split
  · simp [Option.map_map, Function.comp_def, LockSlot.lower_raise]
  · rfl

theorem raise_comm (t : LockTable) (side : LockSide) (k l : Kind) :
    (t.raise side k).raise side l = (t.raise side l).raise side k := by
  apply ext_slots
  intro i
  simp only [slots_raise]
  split <;> split <;> rfl

theorem raiseAll_snoc (t : LockTable) (side : LockSide) (kinds : List Kind) (k : Kind) :
    t.raiseAll side (kinds ++ [k]) = (t.raiseAll side kinds).raise side k := by
  simp only [raiseAll, List.foldl_append, List.foldl_cons, List.foldl_nil]

theorem raise_raiseAll (t : LockTable) (side : LockSide) (k : Kind) (kinds : List Kind) :
    (t.raiseAll side kinds).raise side k = (t.raise side k).raiseAll side kinds := by
  induction kinds generalizing t with
  | nil => rfl
  | cons l rest ih =>
    calc ((t.raise side l).raiseAll side rest).raise side k
        = ((t.raise side l).raise side k).raiseAll side rest := ih _
      _ = ((t.raise side k).raise side l).raiseAll side rest := by rw [raise_comm]

/-- Taking back what was taken, in the order it was taken, leaves the table as it was. -/
theorem undo_raiseAll (t : LockTable) (side : LockSide) (kinds : List Kind) :
    (t.raiseAll side kinds).undo side kinds = t := by
  induction kinds generalizing t with
  | nil => rfl
  | cons k rest ih =>
    -- The first was taken before the others, so it has to pass them to be given back first.
    have undone : ((t.raise side k).raiseAll side rest).lower side k = t.raiseAll side rest := by
      rw [← raise_raiseAll, lower_raise]
    calc (((t.raise side k).raiseAll side rest).lower side k).undo side rest
        = (t.raiseAll side rest).undo side rest := by rw [undone]
      _ = t := ih t

/-! ### Counters -/

theorem slot_of_count_pos (held : 0 < t.count side k) :
    ∃ s, t.slot? k = some s ∧ s.count side = t.count side k := by
  cases found : t.slot? k with
  | none => simp [count, found] at held
  | some s => exact ⟨s, rfl, by simp [count, found]⟩

theorem count_raise (inside : k.index < t.size) : (t.raise side k).count other l =
    t.count other l + if side = other ∧ k = l then 1 else 0 := by
  by_cases same : k = l
  · subst same
    simp only [size] at inside
    simp only [count, slot?, slots_raise, if_pos, Array.getElem?_eq_getElem inside, Option.map_some,
      Option.getD_some, LockSlot.count_raise, and_true]
  · have apart : k.index ≠ l.index := fun equal => same (Kind.ext_index equal)
    simp only [count, slot?, slots_raise, if_neg apart, same, and_false, if_false, Nat.add_zero]

theorem count_lower : (t.lower side k).count other l =
    t.count other l - if side = other ∧ k = l then 1 else 0 := by
  by_cases same : k = l
  · subst same
    cases found : t.slots[k.index]? with
    | none => simp [count, slot?, slots_lower, found]
    | some s => simp [count, slot?, slots_lower, found, LockSlot.count_lower]
  · have apart : k.index ≠ l.index := fun equal => same (Kind.ext_index equal)
    simp only [count, slot?, slots_lower, if_neg apart, same, and_false, if_false, Nat.sub_zero]

theorem count_raiseAll (covers : t.Covers kinds) : (t.raiseAll side kinds).count other l =
    t.count other l + if side = other then kinds.count l else 0 := by
  induction kinds generalizing t with
  | nil => simp [raiseAll]
  | cons k rest ih =>
    have covered : (t.raise side k).Covers rest := by
      intro l member
      rw [size_raise]
      exact covers l (List.mem_cons_of_mem k member)
    calc ((t.raise side k).raiseAll side rest).count other l
        = (t.raise side k).count other l + if side = other then rest.count l else 0 := ih covered
      _ = t.count other l + if side = other then (k :: rest).count l else 0 := by
        rw [count_raise (covers k List.mem_cons_self), List.count_cons]
        by_cases sides : side = other
        · by_cases same : k = l
          · simp only [sides, same, beq_self_eq_true, and_self, if_true]
            omega
          · simp [sides, same]
        · simp [sides]

theorem count_undo : (t.undo side kinds).count other l =
    t.count other l - if side = other then kinds.count l else 0 := by
  induction kinds generalizing t with
  | nil => simp [undo]
  | cons k rest ih =>
    calc ((t.lower side k).undo side rest).count other l
        = (t.lower side k).count other l - if side = other then rest.count l else 0 := ih
      _ = t.count other l - if side = other then (k :: rest).count l else 0 := by
        rw [count_lower, List.count_cons]
        by_cases sides : side = other
        · by_cases same : k = l
          · simp only [sides, same, beq_self_eq_true, and_self, if_true]
            omega
          · simp [sides, same]
        · simp [sides]

theorem count_of_isIdle (idle : t.isIdle = true) (side : LockSide) (k : Kind) :
    t.count side k = 0 := by
  simp only [isIdle, Array.all_eq_true_iff_forall_mem] at idle
  cases found : t.slot? k with
  | none => simp [count, found]
  | some s =>
    have free := idle s (Array.mem_of_getElem? found)
    simp only [LockSlot.isIdle, Bool.and_eq_true, beq_iff_eq] at free
    cases side <;> simp [count, found, LockSlot.count, free.1, free.2]

theorem count_ofSize (slots : Nat) (side : LockSide) (k : Kind) : (ofSize slots).count side k = 0 := by
  apply count_of_isIdle
  simp only [isIdle, ofSize, Array.all_replicate]
  split <;> rfl

theorem eq_ofSize_of_isIdle (idle : t.isIdle = true) : t = .ofSize t.size := by
  refine congrArg LockTable.mk (Array.eq_replicate_iff.mpr ⟨rfl, fun s member => ?_⟩)
  have free := Array.all_eq_true_iff_forall_mem.mp idle s member
  obtain ⟨readers, writers⟩ := s
  obtain ⟨rfl, rfl⟩ : readers = 0 ∧ writers = 0 := by simpa [LockSlot.isIdle] using free
  rfl

theorem isIdle_of_count (unheld : ∀ side k, t.count side k = 0) : t.isIdle = true := by
  refine Array.all_eq_true_iff_forall_mem.mpr fun s member => ?_
  obtain ⟨i, found⟩ := Array.getElem?_of_mem member
  have held (side : LockSide) : s.count side = 0 := by
    simpa [count, slot?, found] using unheld side ⟨i⟩
  have readers : s.readers = 0 := held .read
  have writers : s.writers = 0 := held .write
  simp [LockSlot.isIdle, readers, writers]

/-! ### Acquiring -/

/-- The whole list can be granted: readers wait for writers; writers wait for both, and for
themselves. -/
def Grants (t : LockTable) : LockSide → List Kind → Prop
  | .read, kinds => ∀ k ∈ kinds, t.count .write k = 0
  | .write, kinds => kinds.Nodup ∧ ∀ k ∈ kinds, t.count .read k = 0 ∧ t.count .write k = 0

/-- One attempt raises the counter exactly if the kind can be granted alone. -/
theorem attempt_eq (s : LockSlot) : attempt side s =
    if side = .read ∧ s.writers = 0 ∨ side = .write ∧ s.writers = 0 ∧ s.readers = 0 then
      (s.raise side, true)
    else (s, false) := by
  cases side with
  | read => by_cases free : s.writers = 0 <;> simp [attempt, free, LockSlot.lower_raise]
  | write =>
    by_cases free : s.writers = 0 <;> by_cases unread : s.readers = 0 <;>
      simp [attempt, free, unread, LockSlot.lower_raise]

theorem grants_cons (inside : k.index < t.size) : t.Grants side (k :: kinds) ↔
    t.Grants side [k] ∧ (t.raise side k).Grants side kinds := by
  cases side with
  | read =>
    have unchanged (l : Kind) : (t.raise .read k).count .write l = t.count .write l := by
      simp [count_raise inside]
    simp [Grants, unchanged]
  | write =>
    -- A writer keeps the next one out of its own kind only, so the kinds have to be distinct.
    have readers (l : Kind) : (t.raise .write k).count .read l = t.count .read l := by
      simp [count_raise inside]
    have writers (l : Kind) : (t.raise .write k).count .write l = 0 ↔
        t.count .write l = 0 ∧ k ≠ l := by
      rw [count_raise inside]
      by_cases same : k = l <;> simp [same]
    simp only [Grants, List.nodup_cons, List.nodup_nil, List.not_mem_nil, not_false_eq_true,
      true_and, List.mem_cons, or_false, forall_eq_or_imp, forall_eq, readers, writers]
    constructor
    · rintro ⟨⟨fresh, distinct⟩, head, tail⟩
      exact ⟨head, distinct, fun l member =>
        ⟨(tail l member).1, (tail l member).2, fun same => fresh (same ▸ member)⟩⟩
    · rintro ⟨head, distinct, tail⟩
      exact ⟨⟨fun member => (tail k member).2.2 rfl, distinct⟩, head, fun l member =>
        ⟨(tail l member).1, (tail l member).2.1⟩⟩

theorem grants_single {s : LockSlot} (found : t.slot? k = some s) : t.Grants side [k] ↔
    side = .read ∧ s.writers = 0 ∨ side = .write ∧ s.writers = 0 ∧ s.readers = 0 := by
  cases side <;> simp [Grants, count, found, LockSlot.count, and_comm]

/-- A kind that has room joins those taken before. -/
theorem acquireFrom_of_grants (strictness : Strictness) (taken : List Kind) (inside : k.index < t.size)
    (room : (t.raiseAll side taken).Grants side [k]) :
    acquireFrom strictness side taken (t.raiseAll side taken) (k :: kinds) =
      acquireFrom strictness side (taken ++ [k]) (t.raiseAll side (taken ++ [k])) kinds := by
  have inside : k.index < (t.raiseAll side taken).size := by rwa [size_raiseAll]
  obtain ⟨s, found⟩ : ∃ s, (t.raiseAll side taken).slot? k = some s :=
    ⟨_, Array.getElem?_eq_getElem inside⟩
  have raised : (⟨(t.raiseAll side taken).slots.modify k.index fun _ => s.raise side⟩ :
      LockTable) = t.raiseAll side (taken ++ [k]) := by
    rw [raiseAll_snoc]
    apply ext_slots
    intro i
    rw [slots_raise, Array.getElem?_modify]
    split
    next same => subst same; simp [show _[k.index]? = some s from found]
    next => rfl
  simp only [acquireFrom, found, attempt_eq, if_pos ((grants_single found).mp room), raised, if_true]

/-- Where a kind has no room, everything taken before is given back. -/
theorem acquireFrom_of_refused (strictness : Strictness) (taken : List Kind) (inside : k.index < t.size)
    (refused : ¬ (t.raiseAll side taken).Grants side [k]) :
    (acquireFrom strictness side taken (t.raiseAll side taken) (k :: kinds)).value =
      (.ok false, t) := by
  have inside : k.index < (t.raiseAll side taken).size := by rwa [size_raiseAll]
  obtain ⟨s, found⟩ : ∃ s, (t.raiseAll side taken).slot? k = some s :=
    ⟨_, Array.getElem?_eq_getElem inside⟩
  -- Nothing is published for long: the slot is as it was.
  have unchanged : (⟨(t.raiseAll side taken).slots.modify k.index fun _ => s⟩ : LockTable) =
      t.raiseAll side taken := by
    apply ext_slots
    intro i
    rw [Array.getElem?_modify]
    split
    next same => subst same; simp [show _[k.index]? = some s from found]
    next => rfl
  simp only [acquireFrom, found, attempt_eq, if_neg fun own => refused ((grants_single found).mpr own),
    unchanged, Bool.false_eq_true, if_false, Logged.value_pure, undo_raiseAll]

theorem slot?_of_not_lt (outside : ¬ k.index < t.size) : t.slot? k = none :=
  Array.getElem?_eq_none (Nat.le_of_not_lt outside)

/-- At a kind that the table does not have, a lenient build gives back everything taken before. -/
theorem acquireFrom_of_unknown (taken : List Kind) (outside : ¬ k.index < t.size) :
    (acquireFrom .lenient side taken (t.raiseAll side taken) (k :: kinds)).value =
      (.ok false, t) := by
  have missing : (t.raiseAll side taken).slot? k = none := slot?_of_not_lt (by rwa [size_raiseAll])
  have undone : (acquireFrom .lenient side taken (t.raiseAll side taken) (k :: kinds)).value =
      (.ok false, (t.raiseAll side taken).undo side taken) := by
    simp only [acquireFrom, missing]
    rfl
  rw [undone, undo_raiseAll]

open Classical in
/-- The counters after an attempt on a list of kinds, some of which were taken before. -/
theorem acquireFrom_value (strictness : Strictness) (t : LockTable) (taken : List Kind)
    (covers : t.Covers kinds) :
    (acquireFrom strictness side taken (t.raiseAll side taken) kinds).value =
      if (t.raiseAll side taken).Grants side kinds then (.ok true, t.raiseAll side (taken ++ kinds))
      else (.ok false, t) := by
  induction kinds generalizing taken with
  | nil => cases side <;> simp [acquireFrom, Grants]
  | cons k rest ih =>
    have inside : k.index < t.size := covers k List.mem_cons_self
    rw [grants_cons (by rwa [size_raiseAll])]
    by_cases room : (t.raiseAll side taken).Grants side [k]
    · rw [acquireFrom_of_grants strictness taken inside room,
        ih (taken ++ [k]) fun l member => covers l (List.mem_cons_of_mem k member),
        raiseAll_snoc, List.append_assoc, List.singleton_append]
      simp only [room, true_and]
    · rw [acquireFrom_of_refused strictness taken inside room, if_neg fun both => room both.1]

open Classical in
/-- A list is granted as a whole, or refused with every counter as before. -/
theorem acquire_value (strictness : Strictness) (side : LockSide) (t : LockTable)
    (covers : t.Covers kinds) :
    (t.acquire strictness side kinds).value =
      if t.Grants side kinds then (.ok true, t.raiseAll side kinds) else (.ok false, t) :=
  acquireFrom_value strictness t [] covers

theorem acquireFrom_events (strictness : Strictness) (taken : List Kind) (covers : t.Covers kinds) :
    (acquireFrom strictness side taken t kinds).events = [] := by
  induction kinds generalizing t taken with
  | nil => rfl
  | cons k rest ih =>
    obtain ⟨s, found⟩ : ∃ s, t.slot? k = some s :=
      ⟨_, Array.getElem?_eq_getElem (covers k List.mem_cons_self)⟩
    simp only [acquireFrom, found]
    split
    next granted =>
      refine ih (taken ++ [k]) fun l member => ?_
      rw [size, Array.size_modify]
      exact covers l (List.mem_cons_of_mem k member)
    next refused => rfl

open Classical in
/-- Nothing is reported of known kinds, granted or refused. -/
theorem acquire_eq (strictness : Strictness) (side : LockSide) (t : LockTable)
    (covers : t.Covers kinds) : t.acquire strictness side kinds =
      pure (if t.Grants side kinds then (.ok true, t.raiseAll side kinds) else (.ok false, t)) := by
  calc t.acquire strictness side kinds
      = ⟨(t.acquire strictness side kinds).value, (t.acquire strictness side kinds).events⟩ := rfl
    _ = ⟨(t.acquire strictness side kinds).value, []⟩ :=
      congrArg (Logged.mk _) (acquireFrom_events strictness [] covers)
    _ = pure _ := congrArg (Logged.mk · []) (acquire_value strictness side t covers)

/-! ### Releasing -/

/-- What is reported of one entry of a release's list: it has no counter, or the entries before it
have left nothing to give back. -/
def missed? (t : LockTable) (side : LockSide) (before : List Kind) (k : Kind) : Option Misuse :=
  if k.index < t.size then
    if before.count k < t.count side k then none else some (.lockNotHeld side k)
  else some (.unknownLockReleased side k)

theorem missed?_eq_none_iff : t.missed? side [] k = none ↔ 0 < t.count side k := by
  by_cases inside : k.index < t.size
  · rw [missed?, if_pos inside]
    split
    next held => exact iff_of_true rfl held
    next unheld => exact iff_of_false (Option.some_ne_none _) unheld
  · have unheld : t.count side k = 0 := by simp [count, slot?_of_not_lt inside]
    simp [missed?, inside, unheld]

theorem missed?_of_unheld (inside : k.index < t.size) (unheld : t.count side k = 0)
    (before : List Kind) : t.missed? side before k = some (.lockNotHeld side k) := by
  rw [missed?, if_pos inside, if_neg (by omega)]

theorem missed?_of_not_lt (outside : ¬ k.index < t.size) (before : List Kind) :
    t.missed? side before k = some (.unknownLockReleased side k) := by
  rw [missed?, if_neg outside]

theorem count_of_missed {misuse : Misuse} (missed : t.missed? side [] k = some misuse) :
    t.count side k = 0 := by
  refine Nat.eq_zero_of_not_pos fun held => ?_
  rw [missed?_eq_none_iff.mpr held] at missed
  cases missed

/-- An entry is missed for one of two reasons. -/
theorem missed?_cases {misuse : Misuse} (missed : t.missed? side [] k = some misuse) :
    (k.index < t.size ∧ t.count side k = 0 ∧ misuse = .lockNotHeld side k) ∨
      (¬ k.index < t.size ∧ misuse = .unknownLockReleased side k) := by
  by_cases inside : k.index < t.size
  · have unheld := count_of_missed missed
    rw [missed?_of_unheld inside unheld] at missed
    cases missed
    exact .inl ⟨inside, unheld, rfl⟩
  · rw [missed?_of_not_lt inside] at missed
    cases missed
    exact .inr ⟨inside, rfl⟩

/-- A lock that is held is given back. -/
theorem release_of_held (strictness : Strictness) (positive : 0 < t.count side k) :
    t.release strictness side (k :: kinds) = (t.lower side k).release strictness side kinds := by
  obtain ⟨s, found, same⟩ := slot_of_count_pos positive
  have taken : s.count side ≠ 0 := by omega
  simp only [release, found, if_neg taken]

/-- Of any other entry a strict build stops, and a lenient one skips it. -/
theorem release_of_missed {misuse : Misuse} (missed : t.missed? side [] k = some misuse)
    (kinds : List Kind) :
    (t.release .strict side (k :: kinds)).value = (.error misuse, t) ∧
      t.release .lenient side (k :: kinds) = ⟨(t.release .lenient side kinds).value,
        misuse.event :: (t.release .lenient side kinds).events⟩ := by
  rcases missed?_cases missed with ⟨inside, unheld, rfl⟩ | ⟨outside, rfl⟩
  · obtain ⟨s, found⟩ : ∃ s, t.slot? k = some s := ⟨_, Array.getElem?_eq_getElem inside⟩
    have empty : s.count side = 0 := by simpa [count, found] using unheld
    simp only [release, found, if_pos empty]
    exact ⟨rfl, rfl⟩
  · simp only [release, slot?_of_not_lt outside]
    exact ⟨rfl, rfl⟩

/-- Held locks are given back, each as often as it is listed, and nothing is reported. -/
theorem release_of_all_held (strictness : Strictness)
    (held : ∀ k, kinds.count k ≤ t.count side k) :
    t.release strictness side kinds = pure (.ok (), t.undo side kinds) := by
  induction kinds generalizing t with
  | nil => rfl
  | cons k rest ih =>
    -- The first is held, so it is given back; what the rest needs is held after that, too.
    have positive : 0 < t.count side k := by
      have := held k
      rw [List.count_cons_self] at this
      omega
    have rest_held : ∀ l, rest.count l ≤ (t.lower side k).count side l := by
      intro l
      have before := held l
      rw [List.count_cons] at before
      rw [count_lower]
      by_cases same : k = l
      · subst same
        simp only [BEq.rfl, if_true, and_self] at before ⊢
        omega
      · simpa [same] using before
    rw [release_of_held strictness positive]
    exact ih rest_held

theorem release_value (strictness : Strictness)
    (held : ∀ k, kinds.count k ≤ t.count side k) :
    (t.release strictness side kinds).value = (.ok (), t.undo side kinds) := by
  rw [release_of_all_held strictness held, Logged.value_pure]

end LockTable

end EntityWorld
