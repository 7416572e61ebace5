import EntityWorld.Proofs.Fence.Placement

/-!
# The exact order of fences

The requests make a forest below the built-in fences, and the order is a walk of it: what was put
before a fence, the fence, and what was put after it, the last one first. Among the requests for one
target it matters which were made once the target itself had been asked for, as only these are
placed in the same pass. Main statement: `Scheduler.laidOut_of_registering`.
-/
namespace EntityWorld

variable {r : FenceRequest} {order order' : List FenceId}
  {requests placed left : List FenceRequest}

/-! ### Walks -/

def beside (requests : List FenceRequest) (target : FenceId) : List FenceRequest :=
  requests.filter fun r => r.target = target

/-- The requests for a target, in the order that they are placed in. -/
def siblings (requests : List FenceRequest) (target : FenceId) : List FenceRequest :=
  if target.isBuiltin then beside requests target
  else
    -- The target's own request parts those made before it from those made after it.
    beside (requests.dropWhile fun r => r.fence ≠ target) target ++
      beside (requests.takeWhile fun r => r.fence ≠ target) target

def fencesOn (anchor : Anchor) (requests : List FenceRequest) : List FenceId :=
  (requests.filter fun r => r.anchor = anchor).map FenceRequest.fence

/-- The walks of some fences, one after another. -/
inductive Walk (siblings : FenceId → List FenceRequest) : List FenceId → List FenceId → Prop
  | nil : Walk siblings [] []
  | cons {fence : FenceId} {rest before after later : List FenceId}
      (befores : Walk siblings (fencesOn .before (siblings fence)) before)
      (afters : Walk siblings (fencesOn .after (siblings fence)).reverse after)
      (others : Walk siblings rest later) :
      Walk siblings (fence :: rest) (before ++ fence :: after ++ later)

namespace FenceRequest

/-- A fence is put into the first part that has its target. -/
theorem placeIn?_append {front back : List FenceId}
    (placed : r.placeIn? (front ++ back) = some order') :
    (∃ front', r.placeIn? front = some front' ∧ order' = front' ++ back) ∨
      ∃ back', r.placeIn? back = some back' ∧ order' = front ++ back' := by
  induction front generalizing order' with
  | nil => exact .inr ⟨order', placed, rfl⟩
  | cons head rest ih =>
    simp only [List.cons_append, placeIn?] at placed ⊢
    split at placed
    next target =>
      rw [if_pos target]
      split at placed
      all_goals
        cases placed
        exact .inl ⟨_, rfl, rfl⟩
    next other =>
      obtain ⟨inner, placedInner, rfl⟩ := Option.map_eq_some_iff.mp placed
      rcases ih placedInner with ⟨rest', found, rfl⟩ | ⟨back', found, rfl⟩
      · exact .inl ⟨head :: rest', by simp [other, found], rfl⟩
      · exact .inr ⟨back', found, rfl⟩

end FenceRequest

namespace Walk

variable {below below' : FenceId → List FenceRequest} {fences : List FenceId}

/-- There is only one. -/
theorem unique (walk : Walk below fences order) (walk' : Walk below fences order') :
    order = order' := by
  induction walk generalizing order' with
  | nil =>
    cases walk'
    rfl
  | cons _ _ _ ihBefore ihAfter ihLater =>
    cases walk' with
    | cons befores afters others => rw [ihBefore befores, ihAfter afters, ihLater others]

theorem congr (walk : Walk below fences order) (same : ∀ f ∈ order, below' f = below f) :
    Walk below' fences order := by
  induction walk with
  | nil => exact .nil
  | cons _ _ _ ihBefore ihAfter ihLater =>
    simp only [List.mem_append, List.mem_cons] at same
    rw [← same _ (.inl (.inr (.inl rfl)))] at ihBefore ihAfter
    exact .cons (ihBefore fun f member => same f (.inl (.inl member)))
      (ihAfter fun f member => same f (.inl (.inr (.inr member))))
      (ihLater fun f member => same f (.inr member))

theorem append {fences' : List FenceId} (walk : Walk below fences order)
    (walk' : Walk below fences' order') : Walk below (fences ++ fences') (order ++ order') := by
  induction walk with
  | nil => exact walk'
  | cons befores afters _ _ _ ih =>
    rw [List.append_assoc]
    exact .cons befores afters ih

theorem leaf {fence : FenceId} (alone : below fence = []) : Walk below [fence] [fence] := by
  have befores : Walk below (fencesOn .before (below fence)) [] := by rw [alone]; exact .nil
  have afters : Walk below (fencesOn .after (below fence)).reverse [] := by rw [alone]; exact .nil
  exact .cons befores afters .nil

theorem cons_of_same {fence : FenceId} {before after later : List FenceId}
    (same : below' fence = below fence)
    (befores : Walk below' (fencesOn .before (below fence)) before)
    (afters : Walk below' (fencesOn .after (below fence)).reverse after)
    (others : Walk below' fences later) :
    Walk below' (fence :: fences) (before ++ fence :: after ++ later) := by
  rw [← same] at befores afters
  exact .cons befores afters others

/-- Beside its target a new fence comes last. -/
theorem place_root {before after later tree : List FenceId}
    (befores : Walk below' (fencesOn .before (below r.target)) before)
    (afters : Walk below' (fencesOn .after (below r.target)).reverse after)
    (others : Walk below' fences later) (new : Walk below' [r.fence] [r.fence])
    (grown : below' r.target = below r.target ++ [r])
    (placed : r.placeIn? (r.target :: after) = some tree) :
    Walk below' (r.target :: fences) (before ++ tree ++ later) := by
  simp only [FenceRequest.placeIn?, if_pos] at placed
  split at placed
  next anchor =>
    cases placed
    rw [List.append_cons before]
    refine .cons ?_ ?_ others
    · rw [grown]
      simpa [fencesOn, anchor] using befores.append new
    · rw [grown]
      simpa [fencesOn, anchor] using afters
  next anchor =>
    cases placed
    have grownAfter : Walk below' (fencesOn .after (below' r.target)).reverse (r.fence :: after) := by
      rw [grown]
      simpa [fencesOn, anchor] using new.append afters
    refine .cons ?_ grownAfter others
    rw [grown]
    simpa [fencesOn, anchor] using befores

/-- Putting a fence beside its target adds it to the walk as the target's last request. -/
theorem place (walk : Walk below fences order) (distinct : order.Nodup)
    (alone : below r.fence = []) (apart : r.fence ≠ r.target)
    (grown : below' r.target = below r.target ++ [r])
    (same : ∀ f, f ≠ r.target → below' f = below f)
    (place : r.placeIn? order = some order') : Walk below' fences order' := by
  have keep {fences order : List FenceId} (walk : Walk below fences order)
      (unknown : r.target ∉ order) : Walk below' fences order :=
    walk.congr fun f member => same f (ne_of_mem_of_not_mem member unknown)
  have new : Walk below' [r.fence] [r.fence] := leaf (by rw [same _ apart, alone])
  induction walk generalizing order' with
  | nil => cases place
  | @cons fence rest before after later befores afters others ihBefore ihAfter ihLater =>
    obtain ⟨distinctTree, distinctLater, apartLater⟩ := List.nodup_append.mp distinct
    obtain ⟨distinctBefore, distinctRest, apartBefore⟩ := List.nodup_append.mp distinctTree
    obtain ⟨fenceFresh, distinctAfter⟩ := List.nodup_cons.mp distinctRest
    -- The target is in one of the parts, so the walks of the others stay.
    rcases FenceRequest.placeIn?_append place with ⟨tree, inTree, rfl⟩ | ⟨later', inLater, rfl⟩
    · have known := FenceRequest.target_mem_of_placeIn? inTree
      have keptLater := keep others fun member => apartLater _ known _ member rfl
      rcases FenceRequest.placeIn?_append inTree with
        ⟨before', inBefore, rfl⟩ | ⟨tree', inRest, rfl⟩
      · have apart := apartBefore _ (FenceRequest.target_mem_of_placeIn? inBefore)
        have keptAfter := keep afters fun member => apart _ (List.mem_cons_of_mem _ member) rfl
        exact cons_of_same (same fence (apart fence List.mem_cons_self).symm)
          (ihBefore distinctBefore inBefore) keptAfter keptLater
      · have known := FenceRequest.target_mem_of_placeIn? inRest
        have keptBefore := keep befores fun member => apartBefore _ member _ known rfl
        by_cases target : fence = r.target
        · subst target
          exact keptBefore.place_root (keep afters fenceFresh) keptLater new grown inRest
        · simp only [FenceRequest.placeIn?, if_neg target] at inRest
          obtain ⟨after', inAfter, rfl⟩ := Option.map_eq_some_iff.mp inRest
          exact cons_of_same (same fence target) keptBefore (ihAfter distinctAfter inAfter) keptLater
    · have known := FenceRequest.target_mem_of_placeIn? inLater
      have unknown {f : FenceId} (member : f ∈ before ++ fence :: after) : f ≠ r.target :=
        fun target => apartLater _ member _ known target
      have keptBefore := keep befores fun member => unknown (List.mem_append_left _ member) rfl
      have keptAfter := keep afters fun member => unknown (by simp [member]) rfl
      exact cons_of_same (same fence (unknown (by simp))) keptBefore keptAfter
        (ihLater distinctLater inLater)

end Walk

/-! ### Which requests a pass places -/

@[simp] theorem beside_nil (target : FenceId) : beside [] target = [] := rfl

theorem beside_cons (r : FenceRequest) (rest : List FenceRequest) (target : FenceId) :
    beside (r :: rest) target =
      if r.target = target then r :: beside rest target else beside rest target := by
  simp [beside, List.filter_cons]

/-- The request for a fence and the requests for fences beside it. -/
def FenceRequest.concerns (r : FenceRequest) (fence : FenceId) : Bool :=
  r.fence = fence || r.target = fence

/-- What does not concern a fence does not bear on its siblings. -/
theorem siblings_filter (requests : List FenceRequest) (fence : FenceId) :
    siblings (requests.filter (·.concerns fence)) fence = siblings requests fence := by
  have all (requests : List FenceRequest) :
      beside (requests.filter (·.concerns fence)) fence = beside requests fence := by
    rw [beside, beside, List.filter_filter]
    refine List.filter_congr fun r _ => ?_
    by_cases target : r.target = fence <;> simp [FenceRequest.concerns, target]
  unfold siblings
  split
  · exact all requests
  · congr 1
    · induction requests with
      | nil => rfl
      | cons r rest ih =>
        by_cases own : r.fence = fence
        · have here : r.concerns fence = true := by simp [own, FenceRequest.concerns]
          simp [own, here, beside_cons, all]
        · by_cases target : r.target = fence
          all_goals simpa [own, FenceRequest.concerns, target] using ih
    · induction requests with
      | nil => rfl
      | cons r rest ih =>
        by_cases own : r.fence = fence
        · simp [own, FenceRequest.concerns]
        · by_cases target : r.target = fence
          all_goals simpa [own, FenceRequest.concerns, target, beside_cons] using ih

namespace Pass

variable {fence : FenceId}

/-- Beside a fence that is in the order everything is placed. -/
theorem beside_of_mem (pass : Pass order requests placed left order') (known : fence ∈ order) :
    beside placed fence = beside requests fence ∧ beside left fence = [] := by
  induction pass with
  | done => exact ⟨rfl, rfl⟩
  | placed place _ ih =>
    obtain ⟨all, none⟩ := ih ((FenceRequest.sublist_of_placeIn? place).subset known)
    exact ⟨by rw [beside_cons, beside_cons, all], none⟩
  | left unknown _ ih =>
    obtain ⟨all, none⟩ := ih known
    have other := ne_of_mem_of_not_mem known unknown
    exact ⟨by simpa [beside_cons, other.symm] using all,
      by simpa [beside_cons, other.symm] using none⟩

/-- Whatever concerns a fence that does not come into the order is left. -/
theorem concerns_of_not_mem (pass : Pass order requests placed left order')
    (unknown : fence ∉ order') :
    left.filter (·.concerns fence) = requests.filter (·.concerns fence) := by
  induction pass with
  | done => rfl
  | @placed _ _ _ r _ _ _ place rest ih =>
    have pass := Pass.placed place rest
    obtain ⟨fenceKnown, targetKnown⟩ := (pass.onSide r List.mem_cons_self).mem
    have own := ne_of_mem_of_not_mem fenceKnown unknown
    have target := ne_of_mem_of_not_mem targetKnown unknown
    rw [List.filter_cons_of_neg (by simp [FenceRequest.concerns, own, target]), ih unknown]
  | left _ _ ih => rw [List.filter_cons, List.filter_cons, ih unknown]

/-- Beside a fence that the pass itself puts into the order, what was asked for later is placed. -/
theorem beside_of_new (pass : Pass order requests placed left order')
    (distinct : (requests.map FenceRequest.fence).Nodup) (unknown : fence ∉ order)
    (known : fence ∈ order') :
    beside placed fence = beside (requests.dropWhile fun r => r.fence ≠ fence) fence ∧
      beside left fence = beside (requests.takeWhile fun r => r.fence ≠ fence) fence := by
  induction pass with
  | done => exact absurd known unknown
  | @placed order next order' r requests placed left place rest ih =>
    obtain ⟨-, distinct⟩ := List.nodup_cons.mp distinct
    have members := (FenceRequest.perm_of_placeIn? place).mem_iff (a := fence)
    by_cases own : r.fence = fence
    · obtain ⟨all, none⟩ := rest.beside_of_mem (members.mpr (by simp [own]))
      exact ⟨by simp [own, beside_cons, all], by simp [own, none]⟩
    · have still : fence ∉ next := fun member =>
        (List.mem_cons.mp (members.mp member)).elim (Ne.symm own) unknown
      obtain ⟨later, earlier⟩ := ih distinct still known
      have target := ne_of_mem_of_not_mem (FenceRequest.target_mem_of_placeIn? place) unknown
      exact ⟨by simpa [own, beside_cons, target] using later,
        by simpa [own, beside_cons, target] using earlier⟩
  | @left order order' r requests placed left _ rest ih =>
    obtain ⟨fresh, distinct⟩ := List.nodup_cons.mp distinct
    have own : r.fence ≠ fence := by
      rintro rfl
      rcases List.mem_append.mp (rest.perm_order.mem_iff.mp known) with old | new
      · exact unknown old
      · exact fresh ((rest.sublist_placed.map _).subset new)
    obtain ⟨later, earlier⟩ := ih distinct unknown known
    exact ⟨by simpa [own] using later, by simp [own, beside_cons, earlier]⟩

/-- A pass keeps the order a walk of what is placed. -/
theorem walk {already : List FenceRequest} (pass : Pass order requests placed left order')
    (distinct : (order ++ requests.map FenceRequest.fence).Nodup)
    (apart : ∀ r ∈ requests, r.fence ≠ r.target) (known : ∀ r ∈ already, r.target ∈ order)
    (before : Walk (beside already) FenceId.builtins order) :
    Walk (beside (already ++ placed)) FenceId.builtins order' := by
  induction pass generalizing already with
  | done => simpa using before
  | @placed order next order' r requests placed left place _ ih =>
    have perm := FenceRequest.perm_of_placeIn? place
    obtain ⟨distinctOrder, distinctRequests, disjoint⟩ := List.nodup_append.mp distinct
    have fresh : r.fence ∉ order := fun member =>
      disjoint _ member _ (List.mem_map_of_mem List.mem_cons_self) rfl
    have distinctNext : (next ++ requests.map FenceRequest.fence).Nodup := by
      refine (List.Perm.nodup_iff ?_).mpr distinct
      exact (perm.append_right _).trans List.perm_middle.symm
    have targetKnown := FenceRequest.target_mem_of_placeIn? place
    have knownNext : ∀ other ∈ already ++ [r], other.target ∈ next := by
      intro other member
      refine (FenceRequest.sublist_of_placeIn? place).subset ?_
      rcases List.mem_append.mp member with old | new
      · exact known other old
      · rwa [List.mem_singleton.mp new]
    have alone : beside already r.fence = [] := by
      refine List.filter_eq_nil_iff.mpr fun other member same => fresh ?_
      rw [← of_decide_eq_true same]
      exact known other member
    have grown : Walk (beside (already ++ [r])) FenceId.builtins next := by
      refine before.place distinctOrder alone (apart r List.mem_cons_self) ?_ ?_ place
      · simp [beside]
      · intro f other
        simp [beside, Ne.symm other]
    have rest := ih distinctNext (fun r member => apart r (List.mem_cons_of_mem _ member))
      knownNext grown
    rwa [List.append_assoc] at rest
  | left _ _ ih =>
    refine ih (distinct.sublist ?_) (fun r member => apart r (List.mem_cons_of_mem _ member)) known
      before
    exact (List.Sublist.refl _).append (List.sublist_cons_self _ _)

end Pass

/-! ### The loop of passes -/

/-- After some passes, in the order of placement. -/
structure Spliced (requests placed left : List FenceRequest) (order : List FenceId) : Prop where
  perm : (placed ++ left).Perm requests
  sublist : left.Sublist requests
  fences : order.Perm (FenceId.builtins ++ placed.map FenceRequest.fence)
  sides : ∀ r ∈ placed, r.OnSide order
  walk : Walk (beside placed) FenceId.builtins order
  -- Nothing that concerns a fence is placed before that fence is.
  waiting : ∀ fence ∉ order,
    left.filter (·.concerns fence) = requests.filter (·.concerns fence)
  begun : ∀ fence ∈ order, beside placed fence ++ beside left fence = siblings requests fence

theorem spliced_builtins (requests : List FenceRequest) :
    Spliced requests [] requests FenceId.builtins where
  perm := .refl _
  sublist := .refl _
  fences := by simp
  sides := nofun
  walk :=
    have leaf (fence : FenceId) : Walk (beside []) [fence] [fence] := Walk.leaf rfl
    ((leaf .register).append (leaf .update)).append (leaf .unregister)
  waiting := fun _ _ => rfl
  begun := fun fence builtin => by
    have isBuiltin : fence.isBuiltin = true := by simpa [FenceId.isBuiltin] using builtin
    simp [siblings, isBuiltin]

namespace Spliced

variable {already left' : List FenceRequest}

/-- The fences in the order and those that are still waiting are different. -/
theorem nodup (registrable : Registrable requests) (spliced : Spliced requests placed left order) :
    (order ++ left.map FenceRequest.fence).Nodup := by
  refine (List.Perm.nodup_iff ?_).mpr registrable.nodup
  have all := (spliced.perm.map FenceRequest.fence).append_left FenceId.builtins
  rw [List.map_append, ← List.append_assoc] at all
  exact (spliced.fences.append_right _).trans all

theorem beside_eq_nil (spliced : Spliced requests placed left order) {fence : FenceId}
    (unknown : fence ∉ order) : beside placed fence = [] := by
  refine List.filter_eq_nil_iff.mpr fun r member same => unknown ?_
  rw [← of_decide_eq_true same]
  exact (spliced.sides r member).mem.2

/-- What a pass places comes after what earlier passes placed. For a fence that is in the order
that is the rest of its siblings; for one that comes in now it is all of them so far. -/
theorem begun_of_pass (registrable : Registrable requests)
    (spliced : Spliced requests already left order) (pass : Pass order left placed left' order')
    {fence : FenceId} (known : fence ∈ order') :
    beside (already ++ placed) fence ++ beside left' fence = siblings requests fence := by
  rw [beside, List.filter_append, List.append_assoc]
  by_cases old : fence ∈ order
  · obtain ⟨all, none⟩ := pass.beside_of_mem old
    rw [← beside, ← beside, none, all, List.append_nil]
    exact spliced.begun fence old
  · have builtin : fence.isBuiltin = false := by
      refine Bool.eq_false_iff.mpr fun builtin => old (spliced.fences.mem_iff.mpr ?_)
      exact List.mem_append_left _ (by simpa [FenceId.isBuiltin] using builtin)
    have distinct := (List.nodup_append.mp (spliced.nodup registrable)).2.1
    obtain ⟨later, earlier⟩ := pass.beside_of_new distinct old known
    have new : siblings left fence = beside placed fence ++ beside left' fence := by
      simp only [siblings, builtin, later, earlier]
      rfl
    rw [← beside, ← beside, spliced.beside_eq_nil old, List.nil_append, ← new, ← siblings_filter,
      spliced.waiting fence old, siblings_filter]

theorem pass (registrable : Registrable requests)
    (spliced : Spliced requests already left order) (pass : Pass order left placed left' order') :
    Spliced requests (already ++ placed) left' order' where
  perm := by
    rw [List.append_assoc]
    exact (pass.perm.append_left already).trans spliced.perm
  sublist := pass.sublist_left.trans spliced.sublist
  fences := by
    rw [List.map_append, ← List.append_assoc]
    exact pass.perm_order.trans (spliced.fences.append_right _)
  sides := by
    intro r member
    rcases List.mem_append.mp member with old | new
    · exact (spliced.sides r old).mono pass.sublist_order
    · exact pass.onSide r new
  walk :=
    pass.walk (spliced.nodup registrable)
      (fun r member => registrable.apart r (spliced.sublist.subset member))
      (fun r member => (spliced.sides r member).mem.2) spliced.walk
  waiting := fun fence unknown =>
    (pass.concerns_of_not_mem unknown).trans
      (spliced.waiting fence fun member => unknown (pass.sublist_order.subset member))
  begun := fun _ known => spliced.begun_of_pass registrable pass known

end Spliced

theorem spliced_placeAll (registrable : Registrable requests) :
    ∃ placed, Spliced requests placed (placeAll requests.length FenceId.builtins requests).2
      (placeAll requests.length FenceId.builtins requests).1 :=
  (settles_placeAll (Nat.le_refl _)).preserves
    (fun order left => ∃ placed, Spliced requests placed left order)
    (fun pass ⟨_, spliced⟩ => ⟨_, spliced.pass registrable pass⟩)
    ⟨[], spliced_builtins requests⟩

/-! ### The order -/

/-- The order that the requests ask for. -/
structure LaidOut (requests : List FenceRequest) (order : List FenceId) : Prop where
  walk : ∀ other, Walk (siblings requests) FenceId.builtins other ↔ other = order
  once : order.Nodup
  fences : order.Perm (FenceId.builtins ++ requests.map FenceRequest.fence)
  first : order.head? = some .register
  last : order.getLast? = some .unregister
  sides : ∀ r ∈ requests, r.OnSide order

theorem fencesOn_siblings_eq_nil {anchor : Anchor} {target : FenceId}
    (builtin : target.isBuiltin = true)
    (nobody : ∀ r ∈ requests, ¬ (r.anchor = anchor ∧ r.target = target)) :
    fencesOn anchor (siblings requests target) = [] := by
  simp only [fencesOn, siblings, builtin, if_true, beside, List.map_eq_nil_iff, List.filter_filter,
    List.filter_eq_nil_iff]
  intro r member
  simpa using nobody r member

/-- Nothing is put before Register. -/
theorem Walk.head?_eq (registrable : Registrable requests)
    (walk : Walk (siblings requests) FenceId.builtins order) :
    order.head? = some .register := by
  cases walk with
  | cons befores _ _ =>
    rw [fencesOn_siblings_eq_nil (by decide) fun r member => (registrable.fair r member).inside]
      at befores
    cases befores
    rfl

/-- Nothing is put after Unregister. -/
theorem Walk.getLast?_eq (registrable : Registrable requests)
    (walk : Walk (siblings requests) FenceId.builtins order) :
    order.getLast? = some .unregister := by
  cases walk with
  | cons _ _ others =>
    cases others with
    | cons _ _ others =>
      cases others with
      | cons _ afters others =>
        rw [fencesOn_siblings_eq_nil (by decide) registrable.within] at afters
        cases afters
        cases others
        simp [List.getLast?_cons, List.getLast?_append]

theorem Spliced.laidOut (registrable : Registrable requests)
    (spliced : Spliced requests placed [] order) : LaidOut requests order := by
  have all : placed.Perm requests := by simpa using spliced.perm
  have walk : Walk (siblings requests) FenceId.builtins order := by
    refine spliced.walk.congr fun fence member => ?_
    simpa using (spliced.begun fence member).symm
  exact
    { walk := fun other => ⟨fun walk' => walk'.unique walk, fun same => same ▸ walk⟩
      once := by simpa using spliced.nodup registrable
      fences := spliced.fences.trans ((all.map _).append_left _)
      first := walk.head?_eq registrable
      last := walk.getLast?_eq registrable
      sides := fun r member => spliced.sides r (all.mem_iff.mpr member) }

theorem laidOut_of_fenceOrder (registrable : Registrable requests) :
    (∀ fence target, fenceOrder requests ≠ .error (.orderingConflict fence target)) ∧
      ∀ order, fenceOrder requests = .ok order → LaidOut requests order := by
  obtain ⟨placed, spliced⟩ := spliced_placeAll registrable
  unfold fenceOrder
  split
  next order outcome =>
    rw [outcome] at spliced
    have laidOut := spliced.laidOut registrable
    have honoured : requests.find? (fun r => !r.isHonoured order) = none := by
      refine List.find?_eq_none.mpr fun r member => ?_
      simp [FenceRequest.isHonoured_of_onSide laidOut.once (laidOut.sides r member)]
    rw [honoured]
    refine ⟨nofun, fun order placed => ?_⟩
    cases placed
    exact laidOut
  next =>
    constructor
    · intro fence target conflict
      cases conflict
    · intro order placed
      cases placed

namespace Scheduler

variable {σ : Type} {s t : Scheduler σ} {config : WorldConfig} {kindCount : Nat}

/-- The order that is frozen is the walk that the requests ask for, and there is no conflict. -/
theorem laidOut_of_registering (registering : Registering config kindCount s) :
    (∀ fence target t, s.finalize.value ≠ (.error (.orderingConflict fence target), t)) ∧
      ∀ t, s.finalize.value = (.ok (), t) → LaidOut s.requests t.order := by
  obtain ⟨same, registrable⟩ := registering_spec registering
  have phase : s.phase = .acceptingFences := by rw [same]; rfl
  obtain ⟨peaceful, laidOut⟩ := laidOut_of_fenceOrder registrable
  rw [finalize_value phase]
  split
  next cause failed =>
    refine ⟨fun fence target t conflict => ?_, nofun⟩
    cases conflict
    exact peaceful fence target failed
  next order placed =>
    refine ⟨nofun, fun t frozen => ?_⟩
    cases frozen
    rw [order_mk_empty]
    exact laidOut order placed

/-- A scheduler that was asked for fences beside Update. -/
def besideUpdate : Scheduler Unit :=
  [⟨⟨"Contacts"⟩, ⟨"Physics"⟩, .after⟩, ⟨⟨"Physics"⟩, .update, .after⟩,
    ⟨⟨"Effects"⟩, ⟨"Physics"⟩, .after⟩, ⟨⟨"Forces"⟩, ⟨"Physics"⟩, .before⟩,
    ⟨⟨"Input"⟩, .update, .before⟩].foldl
      (fun s r => (s.request r).2) (fresh .singleThreaded 0)

/-- Contacts was asked for before Physics was, so it is placed after Effects and comes before it. -/
theorem laidOut_of_besideUpdate : ∃ t, Registering .singleThreaded 0 besideUpdate ∧
    besideUpdate.finalize.value = (.ok (), t) ∧
      t.order = [.register, ⟨"Input"⟩, .update, ⟨"Forces"⟩, ⟨"Physics"⟩, ⟨"Contacts"⟩, ⟨"Effects"⟩,
        .unregister] ∧
      LaidOut besideUpdate.requests t.order := by
  have registering : Registering .singleThreaded 0 besideUpdate :=
    .requested _ (.requested _ (.requested _ (.requested _ (.requested _ .begun))))
  have placed : fenceOrder besideUpdate.requests = .ok
      [.register, ⟨"Input"⟩, .update, ⟨"Forces"⟩, ⟨"Physics"⟩, ⟨"Contacts"⟩, ⟨"Effects"⟩,
        .unregister] := by
    decide +kernel
  have frozen := finalize_value (s := besideUpdate) rfl
  rw [placed] at frozen
  exact ⟨_, registering, frozen, order_mk_empty .., (laidOut_of_registering registering).2 _ frozen⟩

end Scheduler

end EntityWorld
