import EntityWorld.Proofs.Fence.Calls
import EntityWorld.Proofs.Fence.Walk

/-!
# What is declared

A declaration stands from the call that accepts it to the call that ends it: a one-shot ends with the
execution of its fence or is discarded, a constant update is stopped by its name, and clearing ends
everything. Whatever calls are made, the fences hold what stands. Main statements: `mem_standing_iff`
and `Scheduler.History.holds`.
-/
namespace EntityWorld

variable {σ : Type}

/-- A declaration that was accepted. -/
structure Declared (σ : Type) extends ScheduledUpdate σ where
  constant : Bool

/-- What a call to the scheduler came to. -/
inductive Entry (σ : Type) where
  | declared (d : Declared σ)
  | stopped (name : String)
  | discarded
  | cleared
  -- A fence was executed.
  | ran (fence : FenceId) (serial concurrent : List (Callback σ))
  -- A call that was refused, or that no declaration depends on.
  | other

namespace Entry

/-- A refused call comes to nothing. -/
def of (result : Except FenceError Unit) (entry : Entry σ) : Entry σ :=
  match result with
  | .error _ => .other
  | .ok () => entry

def declares : Entry σ → List (Declared σ)
  | .declared d => [d]
  | _ => []

/-- Declarations that a call ends. -/
def ends : Entry σ → Declared σ → Bool
  | .declared _, _ | .other, _ => false
  | .stopped name, d => d.constant && d.update.name == name
  | .discarded, d => !d.constant
  | .cleared, _ => true
  | .ran fence _ _, d => !d.constant && d.update.fence = fence

end Entry

/-- What stands after these calls, in the order it was declared. -/
def standing (past : List (Entry σ)) : List (Declared σ) :=
  past.foldl (fun before entry => before.filter (fun d => !entry.ends d) ++ entry.declares) []

theorem standing_concat (past : List (Entry σ)) (entry : Entry σ) :
    standing (past ++ [entry]) =
      (standing past).filter (fun d => !entry.ends d) ++ entry.declares := by
  simp [standing]

/-- It was declared, and nothing has ended it since. -/
def Stands (past : List (Entry σ)) (d : Declared σ) : Prop :=
  ∃ before after, past = before ++ .declared d :: after ∧ ∀ entry ∈ after, entry.ends d = false

theorem mem_declares_iff {entry : Entry σ} {d : Declared σ} :
    d ∈ entry.declares ↔ entry = .declared d := by
  cases entry <;> simp [Entry.declares, eq_comm]

theorem mem_standing_iff {past : List (Entry σ)} {d : Declared σ} :
    d ∈ standing past ↔ Stands past d := by
  induction past using List.reverseRecOn with
  | nil => simp [standing, Stands]
  | append_singleton past last ih =>
    rw [standing_concat, List.mem_append, List.mem_filter, ih, mem_declares_iff]
    constructor
    · rintro (⟨⟨before, after, rfl, spared⟩, lasts⟩ | rfl)
      · refine ⟨before, after ++ [last], by simp, fun entry member => ?_⟩
        rcases List.mem_append.mp member with earlier | final
        · exact spared entry earlier
        · rw [List.mem_singleton.mp final]
          simpa using lasts
      · exact ⟨past, [], rfl, nofun⟩
    · rintro ⟨before, after, same, spared⟩
      rcases after.eq_nil_or_concat with rfl | ⟨after, final, rfl⟩
      · exact .inr (List.append_inj_right' same rfl |> List.singleton_inj.mp)
      · rw [List.concat_eq_append] at same spared
        rw [← List.cons_append, ← List.append_assoc] at same
        obtain ⟨rfl, final⟩ := List.append_inj' same rfl
        obtain rfl := List.singleton_inj.mp final
        refine .inl ⟨⟨before, after, rfl, fun entry member => ?_⟩, ?_⟩
        · exact spared entry (List.mem_append_left _ member)
        · simp [spared last (by simp)]

/-- What stands is in the order in which it was declared. -/
theorem standing_sublist (past : List (Entry σ)) :
    (standing past).Sublist (past.flatMap Entry.declares) := by
  induction past using List.reverseRecOn with
  | nil => exact .refl _
  | append_singleton past last ih =>
    rw [standing_concat, List.flatMap_append, List.flatMap_singleton]
    exact (List.filter_sublist.trans ih).append (.refl _)

namespace Scheduler

variable {s s₀ s' : Scheduler σ} {past : List (Entry σ)} {stands : List (Declared σ)}

/-- A call, and what it came to. Callbacks leave the lock table alone. -/
inductive Call : Scheduler σ → Entry σ → Scheduler σ → Prop
  | registering (s : Scheduler σ) : Call s .other s.beginRegistration.2
  | requested (s : Scheduler σ) (r : FenceRequest) : Call s .other (s.request r).2
  | finalized (s : Scheduler σ) : Call s .other s.finalize.value.2
  | opened (s : Scheduler σ) : Call s .other s.openDeclarations.2
  | scheduled (s : Scheduler σ) (u : Update σ) (calm : u.Calm) :
      Call s (.of (s.schedule u).value.1 (.declared ⟨⟨u, s.nextSequence⟩, false⟩))
        (s.schedule u).value.2
  | started (s : Scheduler σ) (u : Update σ) (calm : u.Calm) :
      Call s (.of (s.startConstant u).value.1 (.declared ⟨⟨u, s.nextSequence⟩, true⟩))
        (s.startConstant u).value.2
  | stopped (s : Scheduler σ) (name : String) :
      Call s (.of (s.stopConstant name).value.1 (.stopped name)) (s.stopConstant name).value.2
  | discarded (s : Scheduler σ) : Call s .discarded s.discardOneShots.2
  | cleared (s : Scheduler σ) : Call s .cleared s.clearUpdates.2
  | begun (s : Scheduler σ) : Call s .other s.beginPass.2
  | ended (s : Scheduler σ) : Call s .other s.endPass
  | ran {s : Scheduler σ} {fence : FenceId} {shared shared' : Shared σ}
      {serial concurrent : List (Callback σ)} (fits : s.Fits shared)
      (executed : Executes s fence shared serial concurrent shared') :
      Call s (.ran fence serial concurrent) (s.spend fence)
  | unrun {s s' : Scheduler σ} {fence : FenceId} {elapsed : Duration} {shared shared' : Shared σ}
      {cause : FenceError}
      (refused : (s.runFence fence elapsed shared).value = (.error (.error cause), s', shared')) :
      Call s .other s'
  | unpassed {s s' : Scheduler σ} {timing : Timing} {shared shared' : Shared σ} {cause : FenceError}
      (refused : (s.runPass timing shared).value = (.error (.error cause), s', shared')) :
      Call s .other s'

/-- Calls made one after another. -/
inductive History (s₀ : Scheduler σ) : List (Entry σ) → Scheduler σ → Prop
  | start : History s₀ [] s₀
  | call {past : List (Entry σ)} {s s' : Scheduler σ} {entry : Entry σ} (before : History s₀ past s)
      (call : Call s entry s') : History s₀ (past ++ [entry]) s'

/-! ### What the fences hold -/

/-- What stands on a fence. -/
def slotOf (stands : List (Declared σ)) (fence : FenceId) : Fence σ where
  id := fence
  oneShots := (stands.filter fun d => !d.constant && d.update.fence = fence).map
    Declared.toScheduledUpdate
  constants := (stands.filter fun d => d.constant && d.update.fence = fence).map
    Declared.toScheduledUpdate

/-- The same scheduler with these declarations. -/
def holding (s : Scheduler σ) (stands : List (Declared σ)) : Scheduler σ :=
  { s with fences := s.order.map (slotOf stands) }

/-- A scheduler holds what stands, fence by fence. -/
structure Holds (s₀ : Scheduler σ) (stands : List (Declared σ)) (s : Scheduler σ) : Prop where
  distinct : s₀.order.Nodup
  tasks : s.tasks = s₀.tasks
  fences : s.fences = s₀.order.map (slotOf stands)
  ascending : stands.Pairwise fun d e => d.sequence < e.sequence
  earlier : ∀ d ∈ stands, d.sequence < s.nextSequence
  placed : ∀ d ∈ stands, d.update.fence ∈ s₀.order
  sound : ∀ d ∈ stands, d.update.validate s.kindCount = .ok () ∧ d.update.Calm
  names : ((stands.filter Declared.constant).map fun d => d.update.name).Nodup
  phase : s.phase ∈ [.acceptingUpdates, .running, .steady]
  staffed : 0 < s.workers

/-- The only fence with a name is changed. -/
theorem modifyFence_eq (distinct : s.order.Nodup) (fence : FenceId) (change : Fence σ → Fence σ) :
    s.modifyFence fence change =
      { s with fences := s.fences.map fun f => if f.id = fence then change f else f } := by
  unfold modifyFence
  split
  next unknown =>
    have others : ∀ f ∈ s.fences, f.id ≠ fence := by simpa using List.findIdx?_eq_none_iff.mp unknown
    rw [List.map_congr_left fun f member => if_neg (others f member), List.map_id']
  next place found =>
    have only : s.fences.Pairwise fun f g =>
        ¬ (decide (f.id = fence) = true ∧ decide (g.id = fence) = true) := by
      refine (List.pairwise_map.mp distinct).imp fun other both => other ?_
      exact (of_decide_eq_true both.1).trans (of_decide_eq_true both.2).symm
    rw [modify_findIdx? change only found]
    simp only [decide_eq_true_eq]

theorem fence?_spec {fence : FenceId} {slot : Fence σ} (found : s.fence? fence = some slot) :
    slot ∈ s.fences ∧ slot.id = fence :=
  ⟨List.mem_of_find?_eq_some found, by simpa using List.find?_some found⟩

namespace Holds

theorem order (holds : Holds s₀ stands s) : s.order = s₀.order := by
  rw [Scheduler.order, holds.fences, List.map_map]
  exact List.map_id s₀.order

/-- Another phase or another frame changes nothing. -/
theorem of_fences (holds : Holds s₀ stands s) (fences : s'.fences = s.fences)
    (tasks : s'.tasks = s.tasks) (kindCount : s'.kindCount = s.kindCount)
    (workers : s'.workers = s.workers) (nextSequence : s'.nextSequence = s.nextSequence)
    (phase : s'.phase ∈ [.acceptingUpdates, .running, .steady]) : Holds s₀ stands s' :=
  { holds with
    tasks := tasks.trans holds.tasks
    fences := fences.trans holds.fences
    earlier := nextSequence ▸ holds.earlier
    sound := kindCount ▸ holds.sound
    phase
    staffed := workers ▸ holds.staffed }

/-- Some declarations end. -/
theorem spare (holds : Holds s₀ stands s) (keep : Declared σ → Bool) :
    Holds s₀ (stands.filter keep) (s.holding (stands.filter keep)) where
  distinct := holds.distinct
  tasks := holds.tasks
  fences := by rw [holding, holds.order]
  ascending := holds.ascending.sublist List.filter_sublist
  earlier := fun d member => holds.earlier d (List.mem_filter.mp member).1
  placed := fun d member => holds.placed d (List.mem_filter.mp member).1
  sound := fun d member => holds.sound d (List.mem_filter.mp member).1
  names := holds.names.sublist ((List.filter_sublist.filter _).map _)
  phase := holds.phase
  staffed := holds.staffed

/-- A declaration is accepted. -/
theorem declare (holds : Holds s₀ stands s) {d : Declared σ} (number : d.sequence = s.nextSequence)
    (placed : d.update.fence ∈ s₀.order)
    (sound : d.update.validate s.kindCount = .ok () ∧ d.update.Calm)
    (unused : d.constant = true → ∀ e ∈ stands, e.constant = true → e.update.name ≠ d.update.name) :
    Holds s₀ (stands ++ [d])
      { s.holding (stands ++ [d]) with nextSequence := s.nextSequence + 1 } := by
  have all {P : Declared σ → Prop} (old : ∀ e ∈ stands, P e) (new : P d) :
      ∀ e ∈ stands ++ [d], P e := by
    intro e member
    rcases List.mem_append.mp member with known | last
    · exact old e known
    · rwa [List.mem_singleton.mp last]
  exact
    { distinct := holds.distinct
      tasks := holds.tasks
      fences := by rw [holding, holds.order]
      ascending := by
        refine List.pairwise_append.mpr ⟨holds.ascending, List.pairwise_singleton _ _, ?_⟩
        intro e known other last
        rw [List.mem_singleton.mp last, number]
        exact holds.earlier e known
      earlier := all (fun e known => Nat.lt_succ_of_lt (holds.earlier e known))
        (by simp [number])
      placed := all holds.placed placed
      sound := all holds.sound sound
      names := by
        rw [List.filter_append, List.map_append]
        cases constant : d.constant with
        | false => simpa [constant] using holds.names
        | true =>
          refine List.nodup_append.mpr ⟨holds.names, by simp [constant], ?_⟩
          intro name known other last
          obtain ⟨e, member, rfl⟩ := List.mem_map.mp known
          obtain ⟨member, constant'⟩ := List.mem_filter.mp member
          simp only [List.filter_cons, constant, if_true, List.filter_nil, List.map_cons,
            List.map_nil, List.mem_singleton] at last
          rw [last]
          exact unused constant e member constant'
      phase := holds.phase
      staffed := holds.staffed }

theorem hasConstant_iff (holds : Holds s₀ stands s) {name : String} :
    s.hasConstant name = true ↔ ∃ d ∈ stands, d.constant = true ∧ d.update.name = name := by
  simp only [hasConstant, holds.fences, List.any_map, List.any_eq_true, Function.comp_apply,
    Fence.runsConstant, slotOf, List.mem_filter, Bool.and_eq_true, decide_eq_true_eq, beq_iff_eq]
  constructor
  · rintro ⟨fence, -, d, ⟨known, constant, -⟩, same⟩
    exact ⟨d, known, constant, same⟩
  · rintro ⟨d, known, constant, same⟩
    exact ⟨d.update.fence, holds.placed d known, d, ⟨known, constant, rfl⟩, same⟩

theorem discard_eq (holds : Holds s₀ stands s) :
    s.discardOneShots.2 = s.holding (stands.filter fun d => !Entry.discarded.ends d) := by
  simp only [discardOneShots, holding, holds.order, holds.fences, List.map_map]
  congr 1
  refine List.map_congr_left fun fence _ => ?_
  simp only [Function.comp_apply, slotOf, List.filter_filter, Entry.ends, Fence.mk.injEq, true_and]
  refine ⟨Eq.symm ?_, congrArg _ (List.filter_congr fun d _ => ?_)⟩
  · refine List.map_eq_nil_iff.mpr (List.filter_eq_nil_iff.mpr fun d _ => ?_)
    cases d.constant <;> simp
  · cases d.constant <;> simp

theorem clear_eq (holds : Holds s₀ stands s) :
    s.clearUpdates.2 = s.holding (stands.filter fun d => !Entry.cleared.ends d) := by
  simp only [clearUpdates, holding, holds.order, holds.fences, List.map_map]
  congr 1
  refine List.map_congr_left fun fence _ => ?_
  simp [slotOf, Entry.ends, Fence.empty]

theorem spend_eq (holds : Holds s₀ stands s) (fence : FenceId)
    (serial concurrent : List (Callback σ)) :
    s.spend fence =
      s.holding (stands.filter fun d => !(Entry.ran fence serial concurrent).ends d) := by
  rw [spend, modifyFence_eq (holds.order ▸ holds.distinct), holding, holds.order, holds.fences,
    List.map_map]
  congr 1
  refine List.map_congr_left fun other _ => ?_
  by_cases same : other = fence
  · simp only [Function.comp_apply, slotOf, List.filter_filter, Entry.ends, same, if_true,
      Fence.mk.injEq, true_and]
    refine ⟨Eq.symm ?_, congrArg _ (List.filter_congr fun d _ => ?_)⟩
    · refine List.map_eq_nil_iff.mpr (List.filter_eq_nil_iff.mpr fun d _ => ?_)
      cases d.constant <;> simp
    · cases d.constant <;> simp
  · simp only [Function.comp_apply, slotOf, List.filter_filter, Entry.ends, same, if_false,
      Fence.mk.injEq, true_and]
    refine ⟨congrArg _ (List.filter_congr fun d _ => ?_), congrArg _ (List.filter_congr fun d _ => ?_)⟩
    · by_cases here : d.update.fence = other <;> cases d.constant <;> simp [here, same]
    · cases d.constant <;> simp

/-- No two fences run constant updates with one name. -/
theorem apart (holds : Holds s₀ stands s) : s.fences.Pairwise fun f g => ∀ name,
    ¬ (f.runsConstant name = true ∧ g.runsConstant name = true) := by
  rw [holds.fences, List.pairwise_map]
  refine holds.distinct.imp fun {fence other} different name both => different ?_
  simp only [Fence.runsConstant, slotOf, List.any_map, List.any_eq_true, List.mem_filter,
    Bool.and_eq_true, decide_eq_true_eq, Function.comp_apply, beq_iff_eq] at both
  obtain ⟨⟨d, ⟨known, constant, rfl⟩, here⟩, ⟨e, ⟨known', constant', rfl⟩, there⟩⟩ := both
  have same : d = e := List.inj_on_of_nodup_map holds.names
    (List.mem_filter.mpr ⟨known, constant⟩) (List.mem_filter.mpr ⟨known', constant'⟩)
    (here.trans there.symm)
  rw [same]

theorem nodup_constants (holds : Holds s₀ stands s) (fence : FenceId) :
    ((slotOf stands fence).constants.map fun u => u.update.name).Nodup := by
  refine List.pairwise_map.mpr (List.pairwise_map.mpr ((List.pairwise_map.mp holds.names).sublist ?_))
  exact List.monotone_filter_right stands fun d both => (Bool.and_eq_true_iff.mp both).1

theorem erase_constant (holds : Holds s₀ stands s) (name : String) (fence : FenceId) :
    ((slotOf stands fence).constants.eraseP fun u => u.update.name == name) =
      (slotOf stands fence).constants.filter fun u => !(u.update.name == name) := by
  refine eraseP_eq_filter ((List.pairwise_map.mp (holds.nodup_constants fence)).imp ?_)
  exact fun different both => different ((eq_of_beq both.1).trans (eq_of_beq both.2).symm)

/-- The constant updates of all fences have different names. -/
theorem nodup_names (holds : Holds s₀ stands s) :
    ((s.fences.flatMap Fence.constants).map fun u => u.update.name).Nodup := by
  rw [List.map_flatMap]
  refine List.nodup_flatMap.mpr ⟨fun f member => ?_, holds.apart.imp fun apart name here there => ?_⟩
  · rw [holds.fences] at member
    obtain ⟨fence, -, rfl⟩ := List.mem_map.mp member
    exact holds.nodup_constants fence
  · obtain ⟨u, known, same⟩ := List.mem_map.mp here
    obtain ⟨v, known', same'⟩ := List.mem_map.mp there
    refine apart name ⟨?_, ?_⟩
    · exact List.any_eq_true.mpr ⟨u, known, beq_iff_eq.mpr same⟩
    · exact List.any_eq_true.mpr ⟨v, known', beq_iff_eq.mpr same'⟩

theorem stop_eq (holds : Holds s₀ stands s) {name : String} {place : Nat}
    (found : s.fences.findIdx? (fun f => f.runsConstant name) = some place) :
    { s with fences := s.fences.modify place fun f =>
      { f with constants := f.constants.eraseP fun u => u.update.name == name } } =
        s.holding (stands.filter fun d => !(Entry.stopped name).ends d) := by
  rw [modify_findIdx? _ (holds.apart.imp fun apart => apart name) found, holding, holds.order, holds.fences,
    List.map_map]
  congr 1
  refine List.map_congr_left fun fence _ => ?_
  have erased : (if (slotOf stands fence).runsConstant name then
      { slotOf stands fence with
        constants := (slotOf stands fence).constants.eraseP fun u => u.update.name == name }
      else slotOf stands fence) =
        { slotOf stands fence with
          constants := (slotOf stands fence).constants.filter fun u => !(u.update.name == name) } := by
    rw [holds.erase_constant]
    split
    next => rfl
    next absent =>
      have all : ∀ u ∈ (slotOf stands fence).constants, (!(u.update.name == name)) = true := by
        simpa [Fence.runsConstant] using absent
      rw [List.filter_eq_self.mpr all]
  rw [Function.comp_apply, erased]
  simp only [slotOf, List.filter_map, List.filter_filter, Entry.ends, Fence.mk.injEq, true_and]
  refine ⟨congrArg _ (List.filter_congr fun d _ => ?_), congrArg _ (List.filter_congr fun d _ => ?_)⟩
  · cases d.constant <;> simp
  · cases d.constant <;> simp [Bool.and_comm]

/-- A declaration that is accepted was checked, and its fence is there. -/
theorem admitted (holds : Holds s₀ stands s) {operation : String} {u : Update σ} {taken : Bool}
    (accepted : s.admissible operation u taken = .ok ()) :
    u.fence ∈ s₀.order ∧ taken = false ∧ u.validate s.kindCount = .ok () := by
  simp only [admissible, bind, Except.bind] at accepted
  split at accepted
  · cases accepted
  split at accepted
  · cases accepted
  next found =>
    split at accepted
    · cases accepted
    next free =>
      obtain ⟨f, found⟩ := Option.ne_none_iff_exists'.mp (by simpa using found)
      obtain ⟨member, same⟩ := fence?_spec found
      refine ⟨?_, by simpa using free, accepted⟩
      rw [← holds.order, ← same]
      exact List.mem_map_of_mem member

theorem slotOf_concat (stands : List (Declared σ)) (d : Declared σ) (fence : FenceId) :
    slotOf (stands ++ [d]) fence =
      if fence = d.update.fence then
        if d.constant then
          { slotOf stands fence with
            constants := (slotOf stands fence).constants ++ [d.toScheduledUpdate] }
        else
          { slotOf stands fence with
            oneShots := (slotOf stands fence).oneShots ++ [d.toScheduledUpdate] }
      else slotOf stands fence := by
  by_cases here : fence = d.update.fence
  · cases constant : d.constant <;> simp [slotOf, constant, here]
  · simp [slotOf, here, Ne.symm here]

theorem declare_eq (holds : Holds s₀ stands s) (d : Declared σ) :
    (s.modifyFence d.update.fence fun f =>
      if d.constant then { f with constants := f.constants ++ [d.toScheduledUpdate] }
      else { f with oneShots := f.oneShots ++ [d.toScheduledUpdate] }) =
        s.holding (stands ++ [d]) := by
  rw [modifyFence_eq (holds.order ▸ holds.distinct), holding, holds.order, holds.fences,
    List.map_map]
  congr 1
  refine List.map_congr_left fun fence _ => ?_
  rw [Function.comp_apply, slotOf_concat]
  rfl

/-! ### What calls do to it -/

/-- A declaration is accepted and stands, or nothing changes. -/
theorem schedule (holds : Holds s₀ stands s) {u : Update σ} (calm : u.Calm) :
    (∃ cause, (s.schedule u).value = (.error cause, s)) ∨
      ∃ s', (s.schedule u).value = (.ok (), s') ∧
        Holds s₀ (stands ++ [⟨⟨u, s.nextSequence⟩, false⟩]) s' := by
  unfold Scheduler.schedule
  split
  next cause _ => exact .inl ⟨cause, rfl⟩
  next accepted =>
    obtain ⟨placed, -, valid⟩ := holds.admitted accepted
    refine .inr ⟨_, rfl, ?_⟩
    have changed := holds.declare_eq ⟨⟨u, s.nextSequence⟩, false⟩
    simp only [Bool.false_eq_true, if_false] at changed
    simp only [changed]
    exact holds.declare rfl placed ⟨valid, calm⟩ nofun

theorem startConstant (holds : Holds s₀ stands s) {u : Update σ} (calm : u.Calm) :
    (∃ cause, (s.startConstant u).value = (.error cause, s)) ∨
      ∃ s', (s.startConstant u).value = (.ok (), s') ∧
        Holds s₀ (stands ++ [⟨⟨u, s.nextSequence⟩, true⟩]) s' := by
  unfold Scheduler.startConstant
  split
  next cause _ => exact .inl ⟨cause, rfl⟩
  next accepted =>
    obtain ⟨placed, free, valid⟩ := holds.admitted accepted
    refine .inr ⟨_, rfl, ?_⟩
    have changed := holds.declare_eq ⟨⟨u, s.nextSequence⟩, true⟩
    simp only [if_true] at changed
    simp only [changed]
    refine holds.declare rfl placed ⟨valid, calm⟩ fun _ e known constant same => ?_
    rw [holds.hasConstant_iff.mpr ⟨e, known, constant, same⟩] at free
    cases free

theorem stopConstant (holds : Holds s₀ stands s) (name : String) :
    (∃ cause, (s.stopConstant name).value = (.error cause, s)) ∨
      ∃ s', (s.stopConstant name).value = (.ok (), s') ∧
        Holds s₀ (stands.filter fun d => !(Entry.stopped name).ends d) s' := by
  unfold Scheduler.stopConstant
  split
  next cause _ => exact .inl ⟨cause, rfl⟩
  next =>
    split
    next => exact .inl ⟨_, rfl⟩
    next place found =>
      refine .inr ⟨_, rfl, ?_⟩
      simp only [holds.stop_eq found]
      exact holds.spare _

/-- What is declared was checked. -/
theorem admissible (holds : Holds s₀ stands s) : s.Admissible := by
  intro f member d declared
  rw [holds.fences] at member
  obtain ⟨fence, -, rfl⟩ := List.mem_map.mp member
  simp only [slotOf, ← List.map_append] at declared
  obtain ⟨d, known, rfl⟩ := List.mem_map.mp declared
  rcases List.mem_append.mp known with once | constant
  · exact holds.sound d (List.mem_filter.mp once).1
  · exact holds.sound d (List.mem_filter.mp constant).1

theorem fence?_eq (holds : Holds s₀ stands s) {fence : FenceId} {slot : Fence σ}
    (found : s.fence? fence = some slot) : slot = slotOf stands fence := by
  obtain ⟨member, same⟩ := fence?_spec found
  rw [holds.fences] at member
  obtain ⟨other, -, rfl⟩ := List.mem_map.mp member
  rw [← same]
  rfl

/-- The queue of a fence is what stands there, as the numbers are those of the order of declaration. -/
theorem queue_eq (holds : Holds s₀ stands s) (fence : FenceId) :
    (slotOf stands fence).queue =
      (stands.filter fun d => d.update.fence = fence).map Declared.toScheduledUpdate := by
  have ascending : ((stands.filter fun d => d.update.fence = fence).map
      Declared.toScheduledUpdate).Pairwise fun a b => a.sequence < b.sequence :=
    List.pairwise_map.mpr (holds.ascending.sublist List.filter_sublist)
  have perm : (slotOf stands fence).queue.Perm
      ((stands.filter fun d => d.update.fence = fence).map Declared.toScheduledUpdate) := by
    refine (List.mergeSort_perm _ _).trans ?_
    simp only [slotOf, ← List.map_append]
    refine (List.Perm.map _ ?_)
    have split := List.filter_append_perm (fun d : Declared σ => !d.constant)
      (stands.filter fun d => d.update.fence = fence)
    simpa only [List.filter_filter, Bool.not_not] using split
  have sorted : (slotOf stands fence).queue.Pairwise fun a b => a.sequence ≤ b.sequence := by
    have steps : (slotOf stands fence).queue.Pairwise fun a b =>
        decide (a.sequence ≤ b.sequence) = true :=
      List.pairwise_mergeSort
        (fun a b c ab bc => by
          simpa using Nat.le_trans (of_decide_eq_true ab) (of_decide_eq_true bc))
        (fun a b => by simpa using Nat.le_total a.sequence b.sequence) _
    exact steps.imp of_decide_eq_true
  refine List.Perm.eq_of_pairwise (fun a b here there below above => ?_) sorted
    (ascending.imp Nat.le_of_lt) perm
  have numbers : (List.map ScheduledUpdate.sequence _).Nodup :=
    List.pairwise_map.mpr (ascending.imp Nat.ne_of_lt)
  exact List.inj_on_of_nodup_map numbers (perm.mem_iff.mp here) there (Nat.le_antisymm below above)

end Holds

/-! ### What calls do to it -/

/-- A call that refuses to execute a fence changes nothing. -/
theorem eq_of_unrun {fence : FenceId} {elapsed : Duration} {shared shared' : Shared σ}
    {cause : FenceError}
    (refused : (s.runFence fence elapsed shared).value = (.error (.error cause), s', shared')) :
    s' = s := by
  unfold runFence at refused
  split at refused
  · cases refused
    rfl
  · cases refused
    rfl
  · simp only [Logged.value_within, Logged.value_bind] at refused
    split at refused
    · cases refused
    · simp only [Logged.value_ite, Logged.value_bind, Logged.value_pure, ite_self] at refused
      cases refused

/-- Only a fault ends a pass before its last fence. -/
theorem runFences_fault {timing : Timing} {left : List FenceId} {reports : List FenceReport}
    {shared shared' : Shared σ} {failure : Failure FenceError} (running : s.phase = .running)
    (inside : ∀ fence ∈ left, fence ∈ s.order)
    (ran : (runFences timing left reports s shared).value = (.error failure, s', shared')) :
    ∃ fault, failure = .fault fault := by
  induction left generalizing s reports shared with
  | nil => cases ran
  | cons fence rest ih =>
    simp only [runFences, Logged.value_bind] at ran
    split at ran
    next failure s₁ shared₁ outcome =>
      cases ran
      exact runFence_fault running (inside fence List.mem_cons_self) outcome
    next report s₁ shared₁ outcome =>
      obtain ⟨rfl, -⟩ := fenceRun_of_runFence outcome
      have plan := samePlan_spend s fence
      refine ih (plan.phase.trans running) (fun other later => ?_) ran
      rw [plan.order]
      exact inside other (List.mem_cons_of_mem _ later)

theorem eq_of_unpassed {timing : Timing} {shared shared' : Shared σ} {cause : FenceError}
    (refused : (s.runPass timing shared).value = (.error (.error cause), s', shared')) : s' = s := by
  unfold runPass at refused
  split at refused
  next cause t begun =>
    cases refused
    unfold beginPass at begun
    split at begun
    · cases begun
      rfl
    · cases begun
  next frame s₁ begun =>
    exfalso
    obtain ⟨order, running⟩ := beginPass_spec begun
    simp only [Logged.value_bind] at refused
    split at refused
    · cases refused
    next cause s₂ shared₂ outcome =>
      obtain ⟨fault, impossible⟩ := runFences_fault running (fun _ member => member) outcome
      cases impossible
    · cases refused

/-- Registration is over. -/
theorem Holds.refused (holds : Holds s₀ stands s) (operation : String) {p : Phase}
    (early : p = .uninitialized ∨ p = .acceptingFences) :
    s.expectPhase [p] operation = .error (.wrongPhase operation s.phase) := by
  refine if_neg fun member => ?_
  have phase := holds.phase
  rw [List.mem_singleton.mp member] at phase
  rcases early with rfl | rfl
  all_goals simp at phase

theorem holds_of_call {entry : Entry σ} (holds : Holds s₀ stands s) (call : Call s entry s') :
    Holds s₀ (stands.filter (fun d => !entry.ends d) ++ entry.declares) s' := by
  have idle {t : Scheduler σ} (holds : Holds s₀ stands t) :
      Holds s₀ (stands.filter (fun d => !Entry.other.ends d) ++ Entry.other.declares) t := by
    simpa [Entry.ends, Entry.declares] using holds
  cases call with
  | registering =>
    rw [beginRegistration, holds.refused _ (.inl rfl)]
    exact idle holds
  | requested r =>
    rw [request, holds.refused _ (.inr rfl)]
    exact idle holds
  | finalized =>
    rw [finalize, holds.refused _ (.inr rfl)]
    exact idle holds
  | opened =>
    refine idle ?_
    unfold openDeclarations
    split
    · exact holds
    · exact holds.of_fences rfl rfl rfl rfl rfl (by simp)
  | scheduled u calm =>
    rcases holds.schedule calm with ⟨cause, refused⟩ | ⟨s', accepted, holds'⟩
    · rw [refused]
      exact idle holds
    · rw [accepted]
      simpa [Entry.of, Entry.ends, Entry.declares] using holds'
  | started u calm =>
    rcases holds.startConstant calm with ⟨cause, refused⟩ | ⟨s', accepted, holds'⟩
    · rw [refused]
      exact idle holds
    · rw [accepted]
      simpa [Entry.of, Entry.ends, Entry.declares] using holds'
  | stopped name =>
    rcases holds.stopConstant name with ⟨cause, refused⟩ | ⟨s', accepted, holds'⟩
    · rw [refused]
      exact idle holds
    · rw [accepted]
      simpa [Entry.of, Entry.declares] using holds'
  | discarded =>
    rw [holds.discard_eq]
    simpa [Entry.declares] using holds.spare _
  | cleared =>
    rw [holds.clear_eq]
    simpa [Entry.declares] using holds.spare _
  | begun =>
    refine idle ?_
    unfold beginPass
    split
    · exact holds
    · exact holds.of_fences rfl rfl rfl rfl rfl (by simp)
  | ended =>
    refine idle ?_
    unfold endPass
    split
    · exact holds.of_fences rfl rfl rfl rfl rfl (by simp)
    · exact holds
  | @ran fence shared shared' serial concurrent fits executed =>
    rw [holds.spend_eq fence serial concurrent]
    simpa [Entry.declares] using holds.spare _
  | unrun refused =>
    rw [eq_of_unrun refused]
    exact idle holds
  | unpassed refused =>
    rw [eq_of_unpassed refused]
    exact idle holds

theorem History.holds (start : Holds s₀ [] s₀) (history : History s₀ past s) :
    Holds s₀ (standing past) s := by
  induction history with
  | start => exact start
  | call _ call ih =>
    rw [standing_concat]
    exact holds_of_call ih call

/-- What was frozen holds nothing. -/
theorem holds_of_registering {config : WorldConfig} {kindCount : Nat} {r : Scheduler σ}
    (registering : Registering config kindCount r) (frozen : r.finalize.value = (.ok (), s₀)) :
    Holds s₀ [] s₀ := by
  obtain ⟨same, registrable⟩ := registering_spec registering
  have phase : r.phase = .acceptingFences := by rw [same]; rfl
  rw [finalize_value phase] at frozen
  split at frozen
  · cases frozen
  next order placed =>
    have laidOut := (laidOut_of_fenceOrder registrable).2 order placed
    have ids := order_mk_empty r order .acceptingUpdates
    cases frozen
    exact
      { distinct := ids.symm ▸ laidOut.once
        tasks := rfl
        fences := by rw [ids]; rfl
        ascending := .nil
        earlier := nofun
        placed := nofun
        sound := nofun
        names := .nil
        phase := by simp
        staffed := by
          rw [same]
          exact Nat.lt_of_lt_of_le Nat.one_pos (Nat.le_max_right _ _) }

end Scheduler

end EntityWorld
