import EntityWorld.Proofs.Entity.Allocator

/-!
# Raw ids in use, free and never used

Callers ask for ids and give back what they have, in any order, until every raw id is in use and
back again. What they have is written down beside the allocator, so that its counts can be held
against a list that it does not keep. Main statement: `allotted_of_history`.
-/
namespace EntityWorld.IdAllocator

variable {strictness : Strictness} {limit : Nat} {held : List Nat} {a a' : IdAllocator}

/-- An allocator, and the raw ids that callers have from it. Only what somebody has is given back,
with whatever flags it has got meanwhile. -/
inductive History (strictness : Strictness) (limit : Nat) : List Nat → IdAllocator → Prop where
  | fresh : History strictness limit [] (withLimit limit)
  | granted {held : List Nat} {a a' : IdAllocator} {id : EntityId}
      (before : History strictness limit held a) (answer : a.allocate = (.ok id, a')) :
      History strictness limit (id.raw :: held) a'
  | refused {held : List Nat} {a a' : IdAllocator} {cause : CapacityError}
      (before : History strictness limit held a) (answer : a.allocate = (.error cause, a')) :
      History strictness limit held a'
  | released {held : List Nat} {a a' : IdAllocator} {id : EntityId}
      (before : History strictness limit held a) (owned : id.raw ∈ held)
      (answer : (a.release strictness id).value = (.ok (), a')) :
      History strictness limit (held.erase id.raw) a'

/-! ### When nothing is left -/

/-- An id is refused exactly when every raw id up to the limit is in use. -/
theorem WellFormed.refuses_iff (wf : a.WellFormed) :
    a.allocate = (.error ⟨a.limit⟩, a) ↔ ∀ raw, 1 ≤ raw → raw ≤ a.limit → a.Out raw := by
  have next := wf.next
  unfold allocate
  split
  next raw rest free =>
    -- The latest raw id that came back is not in use.
    have returned := wf.returned raw (by simp [free])
    refine iff_of_false (by simp) fun all => ?_
    exact (all raw returned.1 (by omega)).2.2 (by simp [free])
  next free =>
    split
    next room =>
      -- Neither is the next one.
      refine iff_of_false (by simp) fun all => ?_
      exact Nat.lt_irrefl _ (all a.next next.1 room).2.1
    next full =>
      refine iff_of_true rfl fun raw positive within => ?_
      exact ⟨positive, by omega, by simp [free]⟩

/-! ### What every call keeps -/

structure Kept (limit : Nat) (held : List Nat) (a : IdAllocator) : Prop where
  wellFormed : a.WellFormed
  limit : a.limit = min limit (rawBound - 1)
  distinct : held.Nodup
  out : ∀ raw, a.Out raw ↔ raw ∈ held

theorem kept_fresh (limit : Nat) : Kept limit [] (withLimit limit) where
  wellFormed := wellFormed_withLimit limit
  limit := rfl
  distinct := .nil
  out _ := iff_of_false (not_out_withLimit limit) List.not_mem_nil

namespace Kept

variable (kept : Kept limit held a)
include kept

theorem granted {id : EntityId} (answer : a.allocate = (.ok id, a')) :
    Kept limit (id.raw :: held) a' := by
  have limited := limit_allocate a
  rcases allocate_spec kept.wellFormed with ⟨cause, refused⟩ | ⟨raw, next, given, wf, spec⟩
  · rw [answer] at refused
    cases refused
  · obtain ⟨-, bound, fresh, out⟩ := spec
    rw [answer] at given limited
    cases given
    rw [EntityId.raw_ofRaw_of_lt bound]
    refine ⟨wf, limited.trans kept.limit, ?_, fun other => ?_⟩
    · exact List.nodup_cons.mpr ⟨fun member => fresh ((kept.out raw).mpr member), kept.distinct⟩
    · rw [out, kept.out, List.mem_cons, or_comm]

theorem refused {cause : CapacityError} (answer : a.allocate = (.error cause, a')) :
    Kept limit held a' := by
  rw [(allocate_of_error answer).2]
  exact kept

theorem released {id : EntityId} (owned : id.raw ∈ held)
    (answer : (a.release strictness id).value = (.ok (), a')) :
    Kept limit (held.erase id.raw) a' := by
  have outside := (kept.out id.raw).mpr owned
  have limited := limit_release strictness outside
  obtain ⟨next, given, wf, out⟩ := release_spec strictness kept.wellFormed outside
  rw [answer] at given limited
  cases given
  refine ⟨wf, limited.trans kept.limit, kept.distinct.erase _, fun other => ?_⟩
  rw [out, kept.out, kept.distinct.mem_erase_iff, and_comm]

end Kept

theorem kept_of_history (history : History strictness limit held a) : Kept limit held a := by
  induction history with
  | fresh => exact kept_fresh limit
  | granted _ answer ih => exact ih.granted answer
  | refused _ answer ih => exact ih.refused answer
  | released _ owned answer ih => exact ih.released owned answer

/-! ### Every history -/

/-- How an allocator stands to the raw ids that callers have from it, and how it answers them. -/
structure Allotted (strictness : Strictness) (limit : Nat) (held : List Nat) (a : IdAllocator) :
    Prop where
  distinct : held.Nodup
  within : ∀ raw ∈ held, 1 ≤ raw ∧ raw ≤ min limit (rawBound - 1)
  live : a.live = held.length
  -- Every raw id is in use, free or not used yet, and only one of these.
  partition : (held ++ a.free ++ List.range' a.next (min limit (rawBound - 1) + 1 - a.next)).Perm
    (List.range' 1 (min limit (rawBound - 1)))
  refuses : a.allocate = (.error ⟨min limit (rawBound - 1)⟩, a) ↔
    ∀ raw, 1 ≤ raw → raw ≤ min limit (rawBound - 1) → raw ∈ held
  -- Otherwise somebody gets an id that nobody has, and only then does anything change.
  grants : (∃ raw, 1 ≤ raw ∧ raw ≤ min limit (rawBound - 1) ∧ raw ∉ held) → ∃ id a',
    a.allocate = (.ok id, a') ∧ id.raw ∉ held ∧ id.life = .register ∧ id.priority = .normal
  releases : ∀ id : EntityId, id.raw ∈ held → ∃ a', (a.release strictness id).value = (.ok (), a')

theorem Kept.partition (kept : Kept limit held a) :
    (held ++ a.free ++ List.range' a.next (min limit (rawBound - 1) + 1 - a.next)).Perm
      (List.range' 1 (min limit (rawBound - 1))) := by
  have next := kept.wellFormed.next
  rw [kept.limit] at next
  -- The range is cut where the next raw id starts.
  have range : List.range' 1 (min limit (rawBound - 1)) = List.range' 1 (a.next - 1) ++
      List.range' a.next (min limit (rawBound - 1) + 1 - a.next) := by
    have first : 1 + (a.next - 1) = a.next := by omega
    have sizes : (a.next - 1) + (min limit (rawBound - 1) + 1 - a.next) = min limit (rawBound - 1) := by
      omega
    have joined := List.range'_append_1 (s := 1) (m := a.next - 1)
      (n := min limit (rawBound - 1) + 1 - a.next)
    rw [first, sizes] at joined
    exact joined.symm
  rw [range]
  exact (kept.wellFormed.perm_used kept.distinct kept.out).append_right _

theorem Kept.refuses_iff (kept : Kept limit held a) :
    a.allocate = (.error ⟨min limit (rawBound - 1)⟩, a) ↔
      ∀ raw, 1 ≤ raw → raw ≤ min limit (rawBound - 1) → raw ∈ held := by
  have refuses := kept.wellFormed.refuses_iff
  rw [kept.limit] at refuses
  simp only [refuses, kept.out]

theorem Kept.grants (kept : Kept limit held a)
    (room : ∃ raw, 1 ≤ raw ∧ raw ≤ min limit (rawBound - 1) ∧ raw ∉ held) :
    ∃ id a', a.allocate = (.ok id, a') ∧ id.raw ∉ held ∧ id.life = .register ∧
      id.priority = .normal := by
  obtain ⟨raw, positive, within, spare⟩ := room
  rcases allocate_spec kept.wellFormed with ⟨cause, refused⟩ | ⟨next, a', given, -, -, bound, fresh, -⟩
  · -- A refusal would mean that this raw id is in use, too.
    obtain ⟨rfl, -⟩ := allocate_of_error refused
    rw [kept.limit, kept.refuses_iff] at refused
    exact absurd (refused raw positive within) spare
  · rw [kept.out] at fresh
    refine ⟨_, a', given, ?_, EntityId.life_ofRaw next, ?_⟩
    · rwa [EntityId.raw_ofRaw_of_lt bound]
    · rw [EntityId.priority, EntityId.flags_ofRaw]
      rfl

/-- Whatever callers asked for and gave back, they never have a raw id twice, and none is lost: what
they do not have can still be handed out, and an id is refused only when they have all of them. -/
theorem allotted_of_history (history : History strictness limit held a) :
    Allotted strictness limit held a := by
  have kept := kept_of_history history
  refine ⟨kept.distinct, fun raw member => ?_, kept.wellFormed.live_eq_length kept.distinct kept.out,
    kept.partition, kept.refuses_iff, kept.grants, fun id owned => ?_⟩
  · have next := kept.wellFormed.next
    rw [kept.limit] at next
    obtain ⟨positive, below, -⟩ := (kept.out raw).mpr member
    exact ⟨positive, by omega⟩
  · obtain ⟨a', answer, -⟩ := release_spec strictness kept.wellFormed ((kept.out id.raw).mpr owned)
    exact ⟨a', answer⟩

/-- Two raw ids are all there are. Both are in use, so a third one is refused; then the first comes back
with the flags of an entity that was destroyed. -/
theorem allotted_of_twoRaws : ∃ a, History .strict 2 [2] a ∧ a.free = [1] ∧
    Allotted .strict 2 [2] a := by
  have first : History .strict 2 [1] ⟨2, 2, [], 1⟩ :=
    @History.granted _ _ _ _ _ (.ofRaw 1) .fresh rfl
  have second : History .strict 2 [2, 1] ⟨2, 3, [], 2⟩ :=
    @History.granted _ _ _ _ _ (.ofRaw 2) first rfl
  have refused : History .strict 2 [2, 1] ⟨2, 3, [], 2⟩ := .refused second rfl
  have released : History .strict 2 [2] ⟨2, 3, [1], 1⟩ :=
    @History.released _ _ _ _ _ ((EntityId.ofRaw 1).withLife .destroyed) refused (by decide) rfl
  exact ⟨_, released, rfl, allotted_of_history released⟩

end EntityWorld.IdAllocator
