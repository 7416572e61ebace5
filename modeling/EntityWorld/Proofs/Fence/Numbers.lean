import EntityWorld.Proofs.Fence.Order
import EntityWorld.Proofs.Fence.Replay
import EntityWorld.Proofs.Lists

/-!
# The numbers of declarations

Every declaration gets the next number, so what a scheduler holds beyond an earlier one has a number that
was given in the meantime. Only the order of numbers matters: a scheduler that has left some out answers
every call alike and runs the same callbacks. Main statements: `Scheduler.Later.numbered`,
`Scheduler.runFence_postpone` and `Scheduler.replayFence?_postpone`.
-/
namespace EntityWorld

variable {σ : Type}

/-! ### Numbers that were given -/

namespace Scheduler

variable {s t u : Scheduler σ}

/-- Every number that is in use was given. -/
def Numbered (s : Scheduler σ) : Prop :=
  ∀ f ∈ s.fences, ∀ d ∈ f.oneShots ++ f.constants, d.sequence < s.nextSequence

/-- The declaration got its number between an earlier scheduler and a later one. -/
def Between (s t : Scheduler σ) (d : ScheduledUpdate σ) : Prop :=
  s.nextSequence ≤ d.sequence ∧ d.sequence < t.nextSequence

/-- What a scheduler holds beyond an earlier one was declared in the meantime. -/
structure Later (s t : Scheduler σ) : Prop where
  numbers : s.nextSequence ≤ t.nextSequence
  fences : ∀ f ∈ t.fences, ∃ g ∈ s.fences, g.id = f.id ∧
    (∀ d ∈ f.oneShots, d ∈ g.oneShots ∨ Between s t d) ∧
      ∀ d ∈ f.constants, d ∈ g.constants ∨ Between s t d

theorem Later.of_fences (fences : t.fences = s.fences) (numbers : t.nextSequence = s.nextSequence) :
    Later s t where
  numbers := Nat.le_of_eq numbers.symm
  fences := fun f member =>
    ⟨f, fences ▸ member, rfl, fun _ held => .inl held, fun _ held => .inl held⟩

theorem Later.refl (s : Scheduler σ) : Later s s := .of_fences rfl rfl

theorem Later.trans (first : Later s t) (second : Later t u) : Later s u where
  numbers := Nat.le_trans first.numbers second.numbers
  fences := fun f member => by
    obtain ⟨g, there, same, oneShots, constants⟩ := second.fences f member
    obtain ⟨h, here, same', oneShots', constants'⟩ := first.fences g there
    have early {d : ScheduledUpdate σ} (between : Between s t d) : Between s u d :=
      ⟨between.1, Nat.lt_of_lt_of_le between.2 second.numbers⟩
    have late {d : ScheduledUpdate σ} (between : Between t u d) : Between s u d :=
      ⟨Nat.le_trans first.numbers between.1, between.2⟩
    refine ⟨h, here, same'.trans same, fun d held => ?_, fun d held => ?_⟩
    · rcases oneShots d held with old | new
      · exact (oneShots' d old).imp_right early
      · exact .inr (late new)
    · rcases constants d held with old | new
      · exact (constants' d old).imp_right early
      · exact .inr (late new)

/-- What is held is old, or its number is one of the later ones. -/
theorem Later.held (later : Later s t) {f : Fence σ} (member : f ∈ t.fences) {d : ScheduledUpdate σ}
    (held : d ∈ f.oneShots ++ f.constants) :
    (∃ g ∈ s.fences, d ∈ g.oneShots ++ g.constants) ∨ Between s t d := by
  obtain ⟨g, there, -, oneShots, constants⟩ := later.fences f member
  rcases List.mem_append.mp held with once | always
  · exact (oneShots d once).imp_left fun old => ⟨g, there, List.mem_append_left _ old⟩
  · exact (constants d always).imp_left fun old => ⟨g, there, List.mem_append_right _ old⟩

theorem Later.numbered (later : Later s t) (numbered : s.Numbered) : t.Numbered := by
  intro f member d held
  rcases later.held member held with ⟨g, there, old⟩ | between
  · exact Nat.lt_of_lt_of_le (numbered g there d old) later.numbers
  · exact between.2

/-! ### Calls -/

/-- A change of one fence that brings new declarations only. -/
theorem later_modify {next : Nat} (more : s.nextSequence ≤ next) (change : Fence σ → Fence σ)
    (kept : ∀ f, (change f).id = f.id ∧
      (∀ d ∈ (change f).oneShots, d ∈ f.oneShots ∨ s.nextSequence ≤ d.sequence ∧ d.sequence < next) ∧
        ∀ d ∈ (change f).constants, d ∈ f.constants ∨ s.nextSequence ≤ d.sequence ∧ d.sequence < next)
    (place : Nat) : Later s { s with fences := s.fences.modify place change, nextSequence := next } where
  numbers := more
  fences := fun f member => by
    rcases mem_modify member with old | ⟨g, there, rfl⟩
    · exact ⟨f, old, rfl, fun _ held => .inl held, fun _ held => .inl held⟩
    · obtain ⟨same, oneShots, constants⟩ := kept g
      exact ⟨g, there, same.symm, oneShots, constants⟩

theorem nextSequence_modifyFence (s : Scheduler σ) (fence : FenceId) (change : Fence σ → Fence σ) :
    (s.modifyFence fence change).nextSequence = s.nextSequence := by
  unfold modifyFence
  split <;> rfl

theorem later_modifyFence {next : Nat} (more : s.nextSequence ≤ next) (fence : FenceId)
    (change : Fence σ → Fence σ)
    (kept : ∀ f, (change f).id = f.id ∧
      (∀ d ∈ (change f).oneShots, d ∈ f.oneShots ∨ s.nextSequence ≤ d.sequence ∧ d.sequence < next) ∧
        ∀ d ∈ (change f).constants,
          d ∈ f.constants ∨ s.nextSequence ≤ d.sequence ∧ d.sequence < next) :
    Later s { s.modifyFence fence change with nextSequence := next } := by
  unfold modifyFence
  split
  · exact ⟨more, fun f member => ⟨f, member, rfl, fun _ held => .inl held, fun _ held => .inl held⟩⟩
  next place _ => exact later_modify more change kept place

theorem mem_concat_of_next {next : Nat} {old : List (ScheduledUpdate σ)} {update : Update σ} :
    ∀ d ∈ old ++ [⟨update, next⟩], d ∈ old ∨ next ≤ d.sequence ∧ d.sequence < next + 1 := by
  intro d held
  refine (List.mem_append.mp held).imp_right fun new => ?_
  rw [List.mem_singleton.mp new]
  exact ⟨Nat.le_refl _, Nat.lt_succ_self _⟩

theorem later_schedule (s : Scheduler σ) (update : Update σ) : Later s (s.schedule update).value.2 := by
  unfold schedule
  split
  · exact .refl s
  · simp only [Logged.value_bind, Logged.value_pure, nextSequence_modifyFence]
    exact later_modifyFence (Nat.le_succ _) update.fence
      (fun f => { f with oneShots := f.oneShots ++ [⟨update, s.nextSequence⟩] })
      fun f => ⟨rfl, mem_concat_of_next, fun _ held => .inl held⟩

theorem later_startConstant (s : Scheduler σ) (update : Update σ) :
    Later s (s.startConstant update).value.2 := by
  unfold startConstant
  split
  · exact .refl s
  · simp only [Logged.value_bind, Logged.value_pure, nextSequence_modifyFence]
    exact later_modifyFence (Nat.le_succ _) update.fence
      (fun f => { f with constants := f.constants ++ [⟨update, s.nextSequence⟩] })
      fun f => ⟨rfl, fun _ held => .inl held, mem_concat_of_next⟩

theorem later_stopConstant (s : Scheduler σ) (name : String) :
    Later s (s.stopConstant name).value.2 := by
  unfold stopConstant
  split
  · exact .refl s
  · split
    · exact .refl s
    next place _ =>
      exact later_modify (Nat.le_refl _)
        (fun f => { f with constants := f.constants.eraseP fun d => d.update.name == name })
        (fun f => ⟨rfl, fun _ held => .inl held, fun _ held => .inl (List.mem_of_mem_eraseP held)⟩) place

theorem later_discardOneShots (s : Scheduler σ) : Later s s.discardOneShots.2 where
  numbers := Nat.le_refl _
  fences := fun f member => by
    obtain ⟨g, there, rfl⟩ := List.mem_map.mp member
    exact ⟨g, there, rfl, nofun, fun _ held => .inl held⟩

theorem later_spend (s : Scheduler σ) (fence : FenceId) : Later s (s.spend fence) := by
  have later := later_modifyFence (Nat.le_refl s.nextSequence) fence
    (fun f => { f with oneShots := [] }) fun f => ⟨rfl, nofun, fun _ held => .inl held⟩
  have same : (s.spend fence).nextSequence = s.nextSequence := nextSequence_modifyFence s fence _
  rwa [← same] at later

theorem later_openDeclarations (s : Scheduler σ) : Later s s.openDeclarations.2 := by
  unfold openDeclarations
  split
  · exact .refl s
  · exact .of_fences rfl rfl

theorem later_beginPass (s : Scheduler σ) : Later s s.beginPass.2 := by
  unfold beginPass
  split
  · exact .refl s
  · exact .of_fences rfl rfl

theorem later_endPass (s : Scheduler σ) : Later s s.endPass := by
  unfold endPass
  split
  · exact .of_fences rfl rfl
  · exact .refl s

/-! ### Declarations for one frame -/

/-- But for the numbers, a one-shot leaves nothing when it is discarded. -/
theorem discardOneShots_schedule (s : Scheduler σ) (update : Update σ) :
    (s.schedule update).value.2.discardOneShots.2 =
      { s.discardOneShots.2 with nextSequence := (s.schedule update).value.2.nextSequence } := by
  unfold schedule
  split
  · rfl
  · simp only [Logged.value_bind, Logged.value_pure, modifyFence]
    split
    · rfl
    next place _ =>
      have same : (s.fences.modify place fun f =>
          { f with oneShots := f.oneShots ++ [⟨update, s.nextSequence⟩] }).map
            (fun f : Fence σ => { f with oneShots := [] }) =
          s.fences.map fun f : Fence σ => { f with oneShots := [] } := by
        refine map_modify_of_eq (fun f => ?_) s.fences place
        rfl
      simp only [discardOneShots, same]

theorem startConstant_of_error {update : Update σ} {cause : FenceError}
    (refused : (s.startConstant update).value.1 = .error cause) :
    (s.startConstant update).value.2 = s := by
  unfold startConstant at refused ⊢
  split at refused
  · rfl
  · cases refused

theorem stopConstant_of_error {name : String} {cause : FenceError}
    (refused : (s.stopConstant name).value.1 = .error cause) : (s.stopConstant name).value.2 = s := by
  unfold stopConstant at refused ⊢
  split at refused
  · rfl
  · split at refused
    · rfl
    · cases refused

theorem discardOneShots_of_spent (spent : ∀ f ∈ s.fences, f.oneShots = []) :
    s.discardOneShots.2 = s := by
  have same : (s.fences.map fun f => { f with oneShots := [] }) = s.fences := by
    refine (List.map_congr_left fun f member => ?_).trans (List.map_id s.fences)
    rw [← spent f member]
    rfl
  simp only [discardOneShots, same]

end Scheduler

/-! ### Numbers that were left out -/

/-- The same declaration; the numbers from `since` on are greater by `delay`. -/
def ScheduledUpdate.postpone (since delay : Nat) (d : ScheduledUpdate σ) : ScheduledUpdate σ :=
  if d.sequence < since then d else { d with sequence := d.sequence + delay }

def Fence.postpone (since delay : Nat) (f : Fence σ) : Fence σ where
  id := f.id
  oneShots := f.oneShots.map (ScheduledUpdate.postpone since delay)
  constants := f.constants.map (ScheduledUpdate.postpone since delay)

def Scheduler.postpone (since delay : Nat) (s : Scheduler σ) : Scheduler σ :=
  { s with fences := s.fences.map (Fence.postpone since delay), nextSequence := s.nextSequence + delay }

variable {since delay : Nat}

@[simp] theorem ScheduledUpdate.update_postpone (d : ScheduledUpdate σ) :
    (d.postpone since delay).update = d.update := by
  unfold postpone
  split <;> rfl

theorem ScheduledUpdate.postpone_of_le {update : Update σ} {sequence : Nat} (late : since ≤ sequence) :
    (ScheduledUpdate.mk update sequence).postpone since delay = ⟨update, sequence + delay⟩ :=
  if_neg (Nat.not_lt.mpr late)

@[simp] theorem Fence.id_postpone (f : Fence σ) : (f.postpone since delay).id = f.id := rfl

/-- The order of numbers is the same. -/
@[simp] theorem Fence.due_postpone (f : Fence σ) : (f.postpone since delay).due = f.due := by
  have order (d e : ScheduledUpdate σ) : decide (d.sequence ≤ e.sequence) =
      decide ((d.postpone since delay).sequence ≤ (e.postpone since delay).sequence) := by
    rw [decide_eq_decide]
    unfold ScheduledUpdate.postpone
    split <;> split <;> simp only <;> omega
  unfold due
  rw [postpone, ← List.map_append, ← List.map_mergeSort fun d _ e _ => order d e, List.map_map]
  exact List.map_congr_left fun d _ => d.update_postpone

@[simp] theorem Fence.runsConstant_postpone (f : Fence σ) (name : String) :
    (f.postpone since delay).runsConstant name = f.runsConstant name := by
  simp only [runsConstant, postpone, List.any_map, Function.comp_def, ScheduledUpdate.update_postpone]

namespace Scheduler

variable {s : Scheduler σ}

theorem postpone_of_numbered (early : ∀ f ∈ s.fences, ∀ d ∈ f.oneShots ++ f.constants, d.sequence < since) :
    s.postpone since delay = { s with nextSequence := s.nextSequence + delay } := by
  have same : s.fences.map (Fence.postpone since delay) = s.fences := by
    refine (List.map_congr_left fun f member => ?_).trans (List.map_id s.fences)
    have kept (list : List (ScheduledUpdate σ)) (inside : ∀ d ∈ list, d ∈ f.oneShots ++ f.constants) :
        list.map (ScheduledUpdate.postpone since delay) = list :=
      (List.map_congr_left fun d held => if_pos (early f member d (inside d held))).trans
        (List.map_id list)
    rw [Fence.postpone, kept _ fun _ => List.mem_append_left _, kept _ fun _ => List.mem_append_right _]
    rfl
  rw [postpone, same]

@[simp] theorem order_postpone : (s.postpone since delay).order = s.order := by
  simp only [order, postpone, List.map_map, Function.comp_def, Fence.id_postpone]

theorem fence?_postpone (fence : FenceId) :
    (s.postpone since delay).fence? fence = (s.fence? fence).map (Fence.postpone since delay) := by
  simp only [fence?, postpone, List.find?_map]
  rfl

theorem modifyFence_postpone (since delay : Nat) (s : Scheduler σ) (fence : FenceId)
    (change change' : Fence σ → Fence σ)
    (commutes : ∀ f, (change f).postpone since delay = change' (f.postpone since delay)) :
    (s.postpone since delay).modifyFence fence change' =
      (s.modifyFence fence change).postpone since delay := by
  have place : (s.postpone since delay).fences.findIdx? (fun f => f.id = fence) =
      s.fences.findIdx? fun f => f.id = fence := by
    simp only [postpone, List.findIdx?_map]
    rfl
  unfold modifyFence
  rw [place]
  split
  · rfl
  · simp only [postpone, map_modify commutes]

theorem hasConstant_postpone (name : String) :
    (s.postpone since delay).hasConstant name = s.hasConstant name := by
  simp only [hasConstant, postpone, List.any_map, Function.comp_def, Fence.runsConstant_postpone]

theorem admissible_postpone (operation : String) (update : Update σ) (taken : Bool) :
    (s.postpone since delay).admissible operation update taken =
      s.admissible operation update taken := by
  simp only [admissible, fence?_postpone, Option.isNone_map]
  rfl

theorem succ_postpone (s : Scheduler σ) :
    { s.postpone since delay with nextSequence := s.nextSequence + delay + 1 } =
      ({ s with nextSequence := s.nextSequence + 1 } : Scheduler σ).postpone since delay := by
  simp only [postpone, Nat.add_right_comm]

theorem schedule_postpone (late : since ≤ s.nextSequence) (update : Update σ) :
    ((s.postpone since delay).schedule update).value =
      ((s.schedule update).value.1, (s.schedule update).value.2.postpone since delay) := by
  unfold schedule
  rw [admissible_postpone]
  split
  · rfl
  · have number : (s.postpone since delay).nextSequence = s.nextSequence + delay := rfl
    have declared := modifyFence_postpone since delay s update.fence
      (fun f => { f with oneShots := f.oneShots ++ [⟨update, s.nextSequence⟩] })
      (fun f => { f with oneShots := f.oneShots ++ [⟨update, s.nextSequence + delay⟩] })
      fun f => by simp [Fence.postpone, ScheduledUpdate.postpone_of_le late]
    simp only [Logged.value_bind, Logged.value_pure, number, declared]
    exact congrArg (Prod.mk _) (succ_postpone _)

theorem startConstant_postpone (late : since ≤ s.nextSequence) (update : Update σ) :
    ((s.postpone since delay).startConstant update).value =
      ((s.startConstant update).value.1, (s.startConstant update).value.2.postpone since delay) := by
  unfold startConstant
  rw [hasConstant_postpone, admissible_postpone]
  split
  · rfl
  · have number : (s.postpone since delay).nextSequence = s.nextSequence + delay := rfl
    have declared := modifyFence_postpone since delay s update.fence
      (fun f => { f with constants := f.constants ++ [⟨update, s.nextSequence⟩] })
      (fun f => { f with constants := f.constants ++ [⟨update, s.nextSequence + delay⟩] })
      fun f => by simp [Fence.postpone, ScheduledUpdate.postpone_of_le late]
    simp only [Logged.value_bind, Logged.value_pure, number, declared]
    exact congrArg (Prod.mk _) (succ_postpone _)

theorem stopConstant_postpone (name : String) :
    ((s.postpone since delay).stopConstant name).value =
      ((s.stopConstant name).value.1, (s.stopConstant name).value.2.postpone since delay) := by
  have place : (s.postpone since delay).fences.findIdx? (fun f => f.runsConstant name) =
      s.fences.findIdx? fun f => f.runsConstant name := by
    simp only [postpone, List.findIdx?_map, Function.comp_def, Fence.runsConstant_postpone]
  have phase : (s.postpone since delay).expectPhase [.acceptingUpdates] "stop_constant_update" =
      s.expectPhase [.acceptingUpdates] "stop_constant_update" := rfl
  unfold stopConstant
  rw [phase, place]
  split
  · rfl
  · split
    · rfl
    next place _ =>
      let strike (f : Fence σ) : Fence σ :=
        { f with constants := f.constants.eraseP fun d => d.update.name == name }
      have struck (f : Fence σ) : (strike f).postpone since delay = strike (f.postpone since delay) := by
        simp only [strike, Fence.postpone, List.eraseP_map, Function.comp_def,
          ScheduledUpdate.update_postpone]
      exact congrArg (fun fences => (_, { s.postpone since delay with fences }))
        (map_modify struck s.fences place).symm

theorem beginPass_postpone : (s.postpone since delay).beginPass =
    (s.beginPass.1, s.beginPass.2.postpone since delay) := by
  have phase : (s.postpone since delay).expectPhase [.acceptingUpdates, .steady] "begin_pass" =
      s.expectPhase [.acceptingUpdates, .steady] "begin_pass" := rfl
  unfold beginPass
  rw [phase]
  split <;> rfl

theorem endPass_postpone : (s.postpone since delay).endPass = s.endPass.postpone since delay := by
  have phase : (s.postpone since delay).phase = s.phase := rfl
  unfold endPass
  rw [phase]
  split <;> rfl

theorem discardOneShots_postpone : (s.postpone since delay).discardOneShots.2 =
    s.discardOneShots.2.postpone since delay := by
  simp only [discardOneShots, postpone, List.map_map]
  rfl

theorem spend_postpone (fence : FenceId) :
    (s.postpone since delay).spend fence = (s.spend fence).postpone since delay :=
  modifyFence_postpone since delay s fence _ _ fun _ => rfl

theorem runSerial_postpone (fence : FenceId) (updates : List (Update σ)) (shared : Shared σ) :
    (s.postpone since delay).runSerial fence updates shared = s.runSerial fence updates shared := by
  induction updates generalizing shared with
  | nil => rfl
  | cons update rest ih =>
    simp only [runSerial, ih]
    rfl

theorem heardSerial_postpone (fence : FenceId) (updates : List (Update σ)) (shared : Shared σ) :
    (s.postpone since delay).heardSerial fence updates shared =
      s.heardSerial fence updates shared := by
  induction updates generalizing shared with
  | nil => rfl
  | cons update rest ih =>
    simp only [heardSerial, ih]
    rfl

/-- The same callbacks are run, in the same order. -/
theorem runFence_postpone (fence : FenceId) (elapsed : Duration) (shared : Shared σ) :
    ((s.postpone since delay).runFence fence elapsed shared).value =
      ((s.runFence fence elapsed shared).value.1,
        (s.runFence fence elapsed shared).value.2.1.postpone since delay,
        (s.runFence fence elapsed shared).value.2.2) := by
  have phase : (s.postpone since delay).expectPhase [.running] "run_fence" =
      s.expectPhase [.running] "run_fence" := rfl
  unfold runFence
  rw [phase, fence?_postpone]
  match s.expectPhase [.running] "run_fence", s.fence? fence with
  | .error cause, _ => rfl
  | .ok (), none => rfl
  | .ok (), some slot =>
    have batch : (s.postpone since delay).batch fence = s.batch fence := rfl
    simp only [Option.map_some, Fence.due_postpone, Logged.value_within, Logged.value_bind,
      runSerial_postpone, batch, spend_postpone]
    split
    · rfl
    · simp only [Logged.value_ite, Logged.value_bind, Logged.value_pure, ite_self]

theorem replayFence?_postpone (fence : FenceId) (moves : List Batch.Move) (shared : Shared σ) :
    (s.postpone since delay).replayFence? fence moves shared = s.replayFence? fence moves shared := by
  have phase : (s.postpone since delay).phase = s.phase := rfl
  have batch : (s.postpone since delay).batch fence = s.batch fence := rfl
  simp only [replayFence?, phase, batch, fence?_postpone, runSerial_postpone, heardSerial_postpone]
  cases s.fence? fence with
  | none => rfl
  | some slot => simp only [Option.map_some, Option.bind_eq_bind, Option.bind_some, Fence.due_postpone]

end Scheduler

end EntityWorld
