import EntityWorld.Proofs.Fence.Walk
import Mathlib.Logic.Relation

/-!
# Which requests can be placed

The loop of passes places a fence if and only if following targets from it reaches a built-in fence.
A failed attempt names all others and leaves a scheduler that nothing was asked of. Main statement:
`Scheduler.decided_of_registering`.
-/
namespace EntityWorld

variable {order : List FenceId} {requests placed left : List FenceRequest} {f g : FenceId}

def AskedBeside (requests : List FenceRequest) (f g : FenceId) : Prop :=
  ∃ r ∈ requests, r.fence = f ∧ r.target = g

/-- Following targets from the fence reaches a built-in one. -/
def Grounded (requests : List FenceRequest) (f : FenceId) : Prop :=
  ∃ g, Relation.ReflTransGen (AskedBeside requests) f g ∧ g.isBuiltin = true

/-! ### What is placed -/

theorem exists_of_mem_fencesOn {anchor : Anchor} (member : f ∈ fencesOn anchor (beside placed g)) :
    AskedBeside placed f g := by
  obtain ⟨r, chosen, rfl⟩ := List.mem_map.mp member
  obtain ⟨known, target⟩ := List.mem_filter.mp (List.mem_filter.mp chosen).1
  exact ⟨r, known, rfl, of_decide_eq_true target⟩

/-- A fence in a walk leads to one of the fences that the walk is for. -/
theorem Walk.leads {fences : List FenceId} (walk : Walk (beside placed) fences order)
    (member : f ∈ order) : ∃ g ∈ fences, Relation.ReflTransGen (AskedBeside placed) f g := by
  induction walk with
  | nil => cases member
  | @cons fence rest before after later _ _ _ ihBefore ihAfter ihLater =>
    simp only [List.mem_append, List.mem_cons] at member
    rcases member with (inBefore | same | inAfter) | inLater
    · obtain ⟨g, side, path⟩ := ihBefore inBefore
      exact ⟨fence, List.mem_cons_self, path.tail (exists_of_mem_fencesOn side)⟩
    · exact ⟨fence, List.mem_cons_self, same ▸ .refl⟩
    · obtain ⟨g, side, path⟩ := ihAfter inAfter
      exact ⟨fence, List.mem_cons_self,
        path.tail (exists_of_mem_fencesOn (List.mem_reverse.mp side))⟩
    · obtain ⟨g, known, path⟩ := ihLater inLater
      exact ⟨g, List.mem_cons_of_mem _ known, path⟩

theorem Spliced.grounded (spliced : Spliced requests placed left order) (member : f ∈ order) :
    Grounded requests f := by
  obtain ⟨g, builtin, path⟩ := spliced.walk.leads member
  have asked : AskedBeside placed ≤ AskedBeside requests := by
    rintro f g ⟨r, known, fence, target⟩
    exact ⟨r, spliced.perm.subset (List.mem_append_left _ known), fence, target⟩
  exact ⟨g, Relation.ReflTransGen.mono asked f g path, by simpa [FenceId.isBuiltin] using builtin⟩

/-! ### What is left -/

/-- When the loop has ended, a fence that leads to a built-in one is in the order. -/
theorem Spliced.mem_of_grounded (spliced : Spliced requests placed left order)
    (unknown : ∀ r ∈ left, r.target ∉ order) (grounded : Grounded requests f) : f ∈ order := by
  obtain ⟨g, path, builtin⟩ := grounded
  induction path using Relation.ReflTransGen.head_induction_on with
  | refl =>
    have known : g ∈ FenceId.builtins := by simpa [FenceId.isBuiltin] using builtin
    exact spliced.fences.mem_iff.mpr (List.mem_append_left _ known)
  | head asked _ targetKnown =>
    -- Its request was not left, as the target is there.
    obtain ⟨r, member, rfl, rfl⟩ := asked
    rcases List.mem_append.mp (spliced.perm.mem_iff.mpr member) with done | waiting
    · exact (spliced.sides r done).mem.1
    · exact absurd targetKnown (unknown r waiting)

open scoped Classical in
theorem Spliced.left_eq (registrable : Registrable requests)
    (spliced : Spliced requests placed left order) (unknown : ∀ r ∈ left, r.target ∉ order) :
    left = requests.filter fun r => ¬ Grounded requests r.fence := by
  have waiting : ∀ r ∈ left, ¬ Grounded requests r.fence := by
    intro r member grounded
    have disjoint := (List.nodup_append.mp (spliced.nodup registrable)).2.2
    exact disjoint _ (spliced.mem_of_grounded unknown grounded) _ (List.mem_map_of_mem member) rfl
  have done : ∀ r ∈ placed, Grounded requests r.fence := fun r member =>
    spliced.grounded (spliced.sides r member).mem.1
  have kept : left.filter (fun r => ¬ Grounded requests r.fence) = left :=
    List.filter_eq_self.mpr fun r member => by simpa using waiting r member
  have dropped : placed.filter (fun r => ¬ Grounded requests r.fence) = [] :=
    List.filter_eq_nil_iff.mpr fun r member => by simpa using done r member
  have all := spliced.perm.filter fun r => decide ¬ Grounded requests r.fence
  rw [List.filter_append, kept, dropped, List.nil_append] at all
  refine List.Sublist.eq_of_length ?_ all.length_eq
  have sublist := spliced.sublist.filter fun r => decide ¬ Grounded requests r.fence
  rwa [kept] at sublist

open scoped Classical in
/-- The requests that the loop leaves are those that lead nowhere. -/
theorem left_placeAll (registrable : Registrable requests) :
    (placeAll requests.length FenceId.builtins requests).2 =
      requests.filter fun r => ¬ Grounded requests r.fence := by
  obtain ⟨placed, spliced⟩ := spliced_placeAll registrable
  exact spliced.left_eq registrable (settles_placeAll (Nat.le_refl _)).unknown

theorem fenceOrder_of_left (some : (placeAll requests.length FenceId.builtins requests).2 ≠ []) :
    fenceOrder requests = .error (.unresolvedFences
      ((placeAll requests.length FenceId.builtins requests).2.map FenceRequest.fence)) := by
  unfold fenceOrder
  split
  next outcome =>
    rw [outcome] at some
    exact absurd rfl some
  next outcome => rw [outcome]

theorem fenceOrder_of_placed (registrable : Registrable requests)
    (none : (placeAll requests.length FenceId.builtins requests).2 = []) :
    ∃ order, fenceOrder requests = .ok order := by
  have peaceful := (laidOut_of_fenceOrder registrable).1
  unfold fenceOrder at peaceful ⊢
  split at peaceful
  next order outcome =>
    split at peaceful
    next r _ => exact absurd rfl (peaceful r.fence r.target)
    next => exact ⟨order, rfl⟩
  next waiting outcome =>
    rw [outcome] at none
    exact absurd none waiting

namespace Scheduler

variable {σ : Type} {s t : Scheduler σ} {config : WorldConfig} {kindCount : Nat}

open scoped Classical in
/-- What comes of freezing the order. -/
structure Decided (config : WorldConfig) (kindCount : Nat) (s : Scheduler σ) : Prop where
  ends : ∀ result, Settles FenceId.builtins s.requests result ↔
    result = placeAll s.requests.length FenceId.builtins s.requests
  accepted : (∃ t, s.finalize.value = (.ok (), t)) ↔ ∀ r ∈ s.requests, Grounded s.requests r.fence
  refused : (¬ ∀ r ∈ s.requests, Grounded s.requests r.fence) →
    s.finalize.value = (.error (.unresolvedFences
      ((s.requests.filter fun r => ¬ Grounded s.requests r.fence).map FenceRequest.fence)),
      fresh config kindCount)
  clean : (fresh config kindCount : Scheduler σ).order = FenceId.builtins ∧
    (fresh config kindCount : Scheduler σ).requests = [] ∧
      (fresh config kindCount : Scheduler σ).phase = .acceptingFences

/-- The order is frozen if and only if every fence leads to a built-in one. Otherwise the others are
named, and it is as if registration had just begun. -/
theorem decided_of_registering (registering : Registering config kindCount s) :
    Decided config kindCount s := by
  obtain ⟨same, registrable⟩ := registering_spec registering
  have phase : s.phase = .acceptingFences := by rw [same]; rfl
  have settles : Settles FenceId.builtins s.requests
      (placeAll s.requests.length FenceId.builtins s.requests) := settles_placeAll (Nat.le_refl _)
  have left := left_placeAll registrable
  have accept (grounded : ∀ r ∈ s.requests, Grounded s.requests r.fence) :
      ∃ t, s.finalize.value = (.ok (), t) := by
    rw [List.filter_eq_nil_iff.mpr fun r member => by simpa using grounded r member] at left
    obtain ⟨order, placed⟩ := fenceOrder_of_placed registrable left
    rw [finalize_value phase, placed]
    exact ⟨_, rfl⟩
  have refuse (ungrounded : ¬ ∀ r ∈ s.requests, Grounded s.requests r.fence) :
      s.finalize.value = (.error (.unresolvedFences
        ((placeAll s.requests.length FenceId.builtins s.requests).2.map FenceRequest.fence)),
        fresh config kindCount) := by
    rw [finalize_value phase, fenceOrder_of_left, same]
    · rfl
    · rw [left]
      refine fun none => ungrounded fun r member => ?_
      simpa using List.filter_eq_nil_iff.mp none r member
  exact
    { ends := fun result => ⟨fun other => other.unique settles, fun same => same ▸ settles⟩
      accepted := by
        refine ⟨fun ⟨t, frozen⟩ => ?_, accept⟩
        by_contra ungrounded
        cases (refuse ungrounded).symm.trans frozen
      refused := fun ungrounded => by rw [refuse ungrounded, left]
      clean := ⟨rfl, rfl, rfl⟩ }

/-- A scheduler that was asked for fences of which one can be placed. -/
def onePlaceable : Scheduler Unit :=
  [⟨⟨"Left"⟩, ⟨"Right"⟩, .after⟩, ⟨⟨"Input"⟩, .update, .before⟩, ⟨⟨"Right"⟩, ⟨"Left"⟩, .before⟩,
    ⟨⟨"Dependent"⟩, ⟨"Right"⟩, .after⟩, ⟨⟨"Dangling"⟩, ⟨"Missing"⟩, .after⟩].foldl
      (fun s r => (s.request r).2) (fresh .singleThreaded 0)

/-- Two fences beside each other, one beside those and one beside a fence that nobody asked for. -/
theorem decided_of_onePlaceable : Registering .singleThreaded 0 onePlaceable ∧
    onePlaceable.finalize.value.1 =
      .error (.unresolvedFences [⟨"Left"⟩, ⟨"Right"⟩, ⟨"Dependent"⟩, ⟨"Dangling"⟩]) ∧
      Decided .singleThreaded 0 onePlaceable := by
  have registering : Registering .singleThreaded 0 onePlaceable :=
    .requested _ (.requested _ (.requested _ (.requested _ (.requested _ .begun))))
  have left : fenceOrder onePlaceable.requests =
      .error (.unresolvedFences [⟨"Left"⟩, ⟨"Right"⟩, ⟨"Dependent"⟩, ⟨"Dangling"⟩]) := by
    decide +kernel
  refine ⟨registering, ?_, decided_of_registering registering⟩
  rw [finalize_value (s := onePlaceable) rfl, left]

end Scheduler

end EntityWorld
