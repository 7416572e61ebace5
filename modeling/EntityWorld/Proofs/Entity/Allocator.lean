import EntityWorld.Entity.Allocator
import Mathlib.Data.List.Perm.Subperm

/-!
# The allocator's books

Below the next fresh raw id every raw id is either in use or free, and the count of those in use is
right. Handing one out and taking one back move exactly that one from one side to the other.
-/
namespace EntityWorld.IdAllocator

variable {a : IdAllocator} {raw : Nat}

/-- Handed out and not taken back: `allocate_spec` adds exactly the raw id it answers, and
`release_spec` takes away exactly the one it is given. -/
def Out (a : IdAllocator) (raw : Nat) : Prop := 1 ≤ raw ∧ raw < a.next ∧ raw ∉ a.free

structure WellFormed (a : IdAllocator) : Prop where
  limit : a.limit < rawBound
  next : 1 ≤ a.next ∧ a.next ≤ a.limit + 1
  distinct : a.free.Nodup
  returned : ∀ raw ∈ a.free, 1 ≤ raw ∧ raw < a.next
  live : a.live + a.free.length + 1 = a.next

theorem wellFormed_withLimit (limit : Nat) : (withLimit limit).WellFormed where
  limit := Nat.lt_of_le_of_lt (Nat.min_le_right _ _) (by decide)
  next := ⟨Nat.le_refl 1, Nat.le_add_left 1 _⟩
  distinct := .nil
  returned := by simp [withLimit]
  live := rfl

theorem not_out_withLimit (limit : Nat) : ¬ (withLimit limit).Out raw := by
  rintro ⟨positive, below, -⟩
  simp only [withLimit] at below
  omega

theorem wellFormed_full : full.WellFormed := wellFormed_withLimit _

theorem not_out_full : ¬ full.Out raw := not_out_withLimit _

theorem WellFormed.lt_of_out (wf : a.WellFormed) (out : a.Out raw) : raw < rawBound := by
  have := wf.limit
  have := wf.next
  have := out.2.1
  omega

/-- A raw id is handed out that was not out, or nothing changes. -/
theorem allocate_spec (wf : a.WellFormed) :
    (∃ cause, a.allocate = (.error cause, a)) ∨
      ∃ raw a', a.allocate = (.ok (.ofRaw raw), a') ∧ a'.WellFormed ∧ 0 < raw ∧ raw < rawBound ∧
        ¬ a.Out raw ∧ ∀ other, a'.Out other ↔ a.Out other ∨ other = raw := by
  have limit := wf.limit
  have next := wf.next
  have live := wf.live
  unfold allocate
  split
  next raw rest free =>
    -- The one that was freed last is handed out again.
    have distinct := wf.distinct
    rw [free, List.nodup_cons] at distinct
    have returned := wf.returned
    simp only [free, List.mem_cons, forall_eq_or_imp] at returned
    rw [free, List.length_cons] at live
    refine .inr ⟨raw, _, rfl, ⟨limit, next, distinct.2, returned.2, ?_⟩, returned.1.1, by omega, ?_, ?_⟩
    · simp only
      omega
    · rintro ⟨-, -, absent⟩
      exact absent (by simp [free])
    · intro other
      simp only [Out, free, List.mem_cons, not_or]
      constructor
      · rintro ⟨positive, below, absent⟩
        by_cases same : other = raw
        · exact .inr same
        · exact .inl ⟨positive, below, same, absent⟩
      · rintro (⟨positive, below, -, absent⟩ | rfl)
        · exact ⟨positive, below, absent⟩
        · exact ⟨returned.1.1, returned.1.2, distinct.1⟩
  next free =>
    split
    next room =>
      -- None is free, so the next one is handed out, which nobody has ever had.
      rw [free, List.length_nil] at live
      refine .inr ⟨a.next, _, rfl, ⟨limit, by simp only; omega, wf.distinct, ?_, ?_⟩,
        by omega, by omega, ?_, ?_⟩
      · simp [free]
      · simp only [free, List.length_nil]
        omega
      · rintro ⟨-, below, -⟩
        omega
      · intro other
        simp only [Out, free, List.not_mem_nil, not_false_eq_true, and_true]
        omega
    next => exact .inl ⟨_, rfl⟩

/-- The null id is never out, so what is out goes back the same way in either kind of build. -/
theorem release_of_out {id : EntityId} (strictness : Strictness) (out : a.Out id.raw) :
    (a.release strictness id).value =
      (.ok (), { a with live := a.live - 1, free := id.raw :: a.free }) := by
  have notNull : ¬ id.isNull = true := by
    simp only [EntityId.isNull, beq_iff_eq]
    exact Nat.ne_of_gt out.1
  simp only [release, if_neg notNull, Logged.value_pure]

/-- A raw id that is out can be taken back. -/
theorem release_spec {id : EntityId} (strictness : Strictness) (wf : a.WellFormed)
    (out : a.Out id.raw) :
    ∃ a', (a.release strictness id).value = (.ok (), a') ∧ a'.WellFormed ∧
      ∀ other, a'.Out other ↔ a.Out other ∧ other ≠ id.raw := by
  rw [release_of_out strictness out]
  obtain ⟨positive, below, absent⟩ := out
  have live := wf.live
  -- The free ids and this one are different ids below the next one, so some id is counted as live.
  have counted : a.free.length + 2 ≤ a.next := by
    have distinct : (id.raw :: a.free).Nodup := List.nodup_cons.mpr ⟨absent, wf.distinct⟩
    have within : (id.raw :: a.free) ⊆ List.range' 1 (a.next - 1) := by
      intro raw member
      rw [List.mem_range'_1]
      rcases List.mem_cons.mp member with rfl | free
      · omega
      · have := wf.returned raw free
        omega
    have := (List.subperm_of_subset distinct within).length_le
    rw [List.length_cons, List.length_range'] at this
    omega
  refine ⟨_, rfl, ⟨wf.limit, wf.next, List.nodup_cons.mpr ⟨absent, wf.distinct⟩, ?_, ?_⟩, ?_⟩
  · intro raw member
    rcases List.mem_cons.mp member with rfl | free
    · exact ⟨positive, below⟩
    · exact wf.returned raw free
  · simp only [List.length_cons]
    omega
  · intro other
    simp only [Out, List.mem_cons, not_or]
    constructor
    · rintro ⟨low, high, different, free⟩
      exact ⟨⟨low, high, free⟩, different⟩
    · rintro ⟨⟨low, high, free⟩, different⟩
      exact ⟨low, high, different, free⟩

theorem allocate_of_error {a b : IdAllocator} {cause : CapacityError}
    (failed : a.allocate = (.error cause, b)) : cause = ⟨a.limit⟩ ∧ b = a := by
  unfold allocate at failed
  split at failed
  · cases failed
  · split at failed <;> cases failed
    exact ⟨rfl, rfl⟩

theorem limit_allocate (a : IdAllocator) : a.allocate.2.limit = a.limit := by
  unfold allocate
  split
  · rfl
  · split <;> rfl

theorem limit_release {id : EntityId} (strictness : Strictness) (out : a.Out id.raw) :
    (a.release strictness id).value.2.limit = a.limit := by
  rw [release_of_out strictness out]

theorem live_allocate (a : IdAllocator) :
    a.allocate.2.live = a.live + a.allocate.1.isOk.toNat := by
  unfold allocate
  split
  · rfl
  · split <;> rfl

theorem live_release {id : EntityId} (strictness : Strictness) (out : a.Out id.raw) :
    (a.release strictness id).value.2.live = a.live - 1 := by
  rw [release_of_out strictness out]

/-- Those in use and those that are free are the raw ids below the next one, each once. -/
theorem WellFormed.perm_used (wf : a.WellFormed) {held : List Nat} (distinct : held.Nodup)
    (same : ∀ raw, a.Out raw ↔ raw ∈ held) : (held ++ a.free).Perm (List.range' 1 (a.next - 1)) := by
  have both : (held ++ a.free).Nodup :=
    List.nodup_append.mpr ⟨distinct, wf.distinct, fun raw out other free equal =>
      ((same raw).mpr out).2.2 (equal ▸ free)⟩
  refine (List.perm_ext_iff_of_nodup both List.nodup_range').mpr fun raw => ?_
  rw [List.mem_append, ← same, List.mem_range'_1]
  constructor
  · rintro (⟨positive, below, -⟩ | free)
    · omega
    · have := wf.returned raw free
      omega
  · intro between
    by_cases free : raw ∈ a.free
    · exact .inr free
    · exact .inl ⟨between.1, by omega, free⟩

/-- The count of raw ids in use is the length of any list of them. -/
theorem WellFormed.live_eq_length (wf : a.WellFormed) {held : List Nat} (distinct : held.Nodup)
    (same : ∀ raw, a.Out raw ↔ raw ∈ held) : a.live = held.length := by
  have lengths := (wf.perm_used distinct same).length_eq
  rw [List.length_append, List.length_range'] at lengths
  have := wf.live
  omega

end EntityWorld.IdAllocator
