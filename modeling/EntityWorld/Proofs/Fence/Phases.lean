import EntityWorld.Proofs.Fence.Standing

/-!
# Phases of a scheduler

Every call belongs to some phases, and is refused in the others. A refused call changes nothing, unless
it is the one that freezes the order; one that is accepted moves the phase along an edge or leaves it.
So fences are only asked for while they are accepted, updates are only declared while those are, and the
order stays once it is frozen. Main statements: `Scheduler.perform_cases`, `Scheduler.exists_performs`
and `Scheduler.orderly_of_course`.
-/
namespace EntityWorld

variable {σ : Type}

namespace Phase

/-- From one phase to another. -/
inductive Moves : Phase → Phase → Prop where
  | stays (p : Phase) : Moves p p
  | registering : Moves .uninitialized .acceptingFences
  | frozen : Moves .acceptingFences .acceptingUpdates
  | begun : Moves .acceptingUpdates .running
  | ended : Moves .running .steady
  | reopened : Moves .steady .acceptingUpdates
  | begunAgain : Moves .steady .running

/-- The order of the fences is frozen. -/
def IsFrozen (p : Phase) : Prop := p ∈ [acceptingUpdates, running, steady]

theorem Moves.isFrozen {p q : Phase} (moves : p.Moves q) (frozen : p.IsFrozen) : q.IsFrozen := by
  unfold IsFrozen at frozen ⊢
  cases moves <;> simp_all

theorem IsFrozen.ne {p : Phase} (frozen : p.IsFrozen) : p ≠ .acceptingFences := by
  rintro rfl
  simp [IsFrozen] at frozen

end Phase

/-- The same fence, with nothing declared on it that was not declared before. -/
structure Fence.Within (g f : Fence σ) : Prop where
  id : g.id = f.id
  oneShots : g.oneShots.Sublist f.oneShots
  constants : g.constants.Sublist f.constants

theorem Fence.Within.refl (f : Fence σ) : f.Within f := ⟨rfl, .refl _, .refl _⟩

theorem Fence.within_spent (f : Fence σ) : ({ f with oneShots := [] } : Fence σ).Within f :=
  ⟨rfl, List.nil_sublist _, .refl _⟩

namespace Scheduler

/-- A call that executes no update. -/
inductive Command (σ : Type) where
  | beginRegistration
  | request (r : FenceRequest)
  | finalize
  | openDeclarations
  | schedule (u : Update σ)
  | startConstant (u : Update σ)
  | stopConstant (name : String)
  | clearUpdates
  | discardOneShots
  | beginPass
  | endPass

/-- A call. Executing updates changes what is shared. -/
inductive Operation (σ : Type) where
  | command (c : Command σ)
  | runFence (fence : FenceId) (shared : Shared σ)
  | runPass (shared : Shared σ)

inductive Outcome where
  | done
  | refused (cause : FenceError)
  -- An execution that a fault ended.
  | broken (fault : Fault)
  deriving DecidableEq, Repr

def Outcome.of {α : Type} : Except FenceError α → Outcome
  | .ok _ => .done
  | .error cause => .refused cause

def Outcome.ofRun {α : Type} : Except (Failure FenceError) α → Outcome
  | .ok _ => .done
  | .error (.error cause) => .refused cause
  | .error (.fault fault) => .broken fault

def perform (s : Scheduler σ) : Command σ → Outcome × Scheduler σ
  | .beginRegistration => (.of s.beginRegistration.1, s.beginRegistration.2)
  | .request r => (.of (s.request r).1, (s.request r).2)
  | .finalize => (.of s.finalize.value.1, s.finalize.value.2)
  | .openDeclarations => (.of s.openDeclarations.1, s.openDeclarations.2)
  | .schedule u => (.of (s.schedule u).value.1, (s.schedule u).value.2)
  | .startConstant u => (.of (s.startConstant u).value.1, (s.startConstant u).value.2)
  | .stopConstant name => (.of (s.stopConstant name).value.1, (s.stopConstant name).value.2)
  | .clearUpdates => (.done, s.clearUpdates.2)
  | .discardOneShots => (.done, s.discardOneShots.2)
  | .beginPass => (.of s.beginPass.1, s.beginPass.2)
  | .endPass => (.done, s.endPass)

variable {s t s₀ : Scheduler σ} {c : Command σ} {shared shared' : Shared σ} {fence : FenceId}
  {cause : FenceError} {outcome : Outcome} {states : List (Scheduler σ)}

/-! ### What an accepted call does -/

/-- What a call does that is accepted, and in which phase it is. -/
inductive Accepts (s : Scheduler σ) : Command σ → Scheduler σ → Prop where
  | registering (phase : s.phase = .uninitialized) :
      Accepts s .beginRegistration { s with phase := .acceptingFences }
  | requested {r : FenceRequest} (phase : s.phase = .acceptingFences) :
      Accepts s (.request r) { s with requests := s.requests ++ [r] }
  | finalized {order : List FenceId} (phase : s.phase = .acceptingFences) :
      Accepts s .finalize
        { s with requests := [], fences := order.map Fence.empty, phase := .acceptingUpdates }
  | opened (phase : s.phase = .acceptingUpdates ∨ s.phase = .steady) :
      Accepts s .openDeclarations { s with phase := .acceptingUpdates }
  | scheduled {u : Update σ} (phase : s.phase = .acceptingUpdates) :
      Accepts s (.schedule u) { s with
        fences := (s.modifyFence u.fence fun f =>
          { f with oneShots := f.oneShots ++ [⟨u, s.nextSequence⟩] }).fences
        nextSequence := s.nextSequence + 1 }
  | started {u : Update σ} (phase : s.phase = .acceptingUpdates) :
      Accepts s (.startConstant u) { s with
        fences := (s.modifyFence u.fence fun f =>
          { f with constants := f.constants ++ [⟨u, s.nextSequence⟩] }).fences
        nextSequence := s.nextSequence + 1 }
  | stopped {name : String} {place : Nat} (phase : s.phase = .acceptingUpdates) :
      Accepts s (.stopConstant name) { s with fences := s.fences.modify place fun f =>
        { f with constants := f.constants.eraseP fun u => u.update.name == name } }
  | cleared : Accepts s .clearUpdates s.clearUpdates.2
  | discarded : Accepts s .discardOneShots s.discardOneShots.2
  | begun (phase : s.phase = .acceptingUpdates ∨ s.phase = .steady) :
      Accepts s .beginPass { s with phase := .running, frame := s.frame + 1 }
  | ended : Accepts s .endPass s.endPass

/-- A call in another phase is refused. -/
theorem expectPhase_cases (s : Scheduler σ) (allowed : List Phase) (operation : String) :
    s.phase ∈ allowed ∧ s.expectPhase allowed operation = .ok () ∨
      s.expectPhase allowed operation = .error (.wrongPhase operation s.phase) := by
  unfold expectPhase
  split
  next inside => exact .inl ⟨inside, rfl⟩
  next => exact .inr rfl

theorem modifyFence_eq_mk (s : Scheduler σ) (fence : FenceId) (change : Fence σ → Fence σ) :
    s.modifyFence fence change = { s with fences := (s.modifyFence fence change).fences } := by
  unfold modifyFence
  split <;> rfl

theorem spend_eq_mk (s : Scheduler σ) (fence : FenceId) :
    s.spend fence = { s with fences := (s.spend fence).fences } := s.modifyFence_eq_mk fence _

theorem phase_of_admissible {operation : String} {u : Update σ} {taken : Bool}
    (accepted : s.admissible operation u taken = .ok ()) : s.phase = .acceptingUpdates := by
  rcases s.expectPhase_cases [.acceptingUpdates] operation with ⟨inside, -⟩ | refused
  · exact List.mem_singleton.mp inside
  · simp only [admissible, refused] at accepted
    cases accepted

/-- A call is accepted, or it is refused and changes nothing; but freezing the order drops what was
asked for when it is refused. -/
theorem perform_cases (s : Scheduler σ) (c : Command σ) :
    (∃ t, s.perform c = (.done, t) ∧ Accepts s c t) ∨
      (∃ cause, s.perform c = (.refused cause, s)) ∨
        c = .finalize ∧ s.phase = .acceptingFences ∧
          ∃ cause, s.perform c = (.refused cause, { s with requests := [], fences := builtinFences }) := by
  cases c with
  | beginRegistration =>
    rcases s.expectPhase_cases [.uninitialized] "begin_fence_registration" with
      ⟨inside, allowed⟩ | refused
    · simp only [perform, beginRegistration, allowed]
      exact .inl ⟨_, rfl, .registering (List.mem_singleton.mp inside)⟩
    · simp only [perform, beginRegistration, refused]
      exact .inr (.inl ⟨_, rfl⟩)
  | request r =>
    rcases s.expectPhase_cases [.acceptingFences] r.anchor.operation with ⟨inside, allowed⟩ | refused
    · simp only [perform, request, allowed]
      cases s.refusal? r with
      | none => exact .inl ⟨_, rfl, .requested (List.mem_singleton.mp inside)⟩
      | some cause => exact .inr (.inl ⟨cause, rfl⟩)
    · simp only [perform, request, refused]
      exact .inr (.inl ⟨_, rfl⟩)
  | finalize =>
    rcases s.expectPhase_cases [.acceptingFences] "finalize" with ⟨inside, -⟩ | refused
    · have phase := List.mem_singleton.mp inside
      simp only [perform, finalize_value phase]
      cases fenceOrder s.requests with
      | ok order => exact .inl ⟨_, rfl, .finalized phase⟩
      | error cause => exact .inr (.inr ⟨trivial, phase, cause, rfl⟩)
    · simp only [perform, finalize, refused]
      exact .inr (.inl ⟨_, rfl⟩)
  | openDeclarations =>
    rcases s.expectPhase_cases [.acceptingUpdates, .steady] "open_declarations" with
      ⟨inside, allowed⟩ | refused
    · simp only [perform, openDeclarations, allowed]
      exact .inl ⟨_, rfl, .opened (by simpa using inside)⟩
    · simp only [perform, openDeclarations, refused]
      exact .inr (.inl ⟨_, rfl⟩)
  | schedule u =>
    cases admitted : s.admissible "schedule_update" u false with
    | error cause =>
      simp only [perform, schedule, admitted]
      exact .inr (.inl ⟨cause, rfl⟩)
    | ok =>
      simp only [perform, schedule, admitted, Logged.value_bind, Logged.value_pure]
      rw [modifyFence_eq_mk]
      exact .inl ⟨_, rfl, .scheduled (phase_of_admissible admitted)⟩
  | startConstant u =>
    cases admitted : s.admissible "start_constant_update" u (s.hasConstant u.name) with
    | error cause =>
      simp only [perform, startConstant, admitted]
      exact .inr (.inl ⟨cause, rfl⟩)
    | ok =>
      simp only [perform, startConstant, admitted, Logged.value_bind, Logged.value_pure]
      rw [modifyFence_eq_mk]
      exact .inl ⟨_, rfl, .started (phase_of_admissible admitted)⟩
  | stopConstant name =>
    rcases s.expectPhase_cases [.acceptingUpdates] "stop_constant_update" with
      ⟨inside, allowed⟩ | refused
    · simp only [perform, stopConstant, allowed]
      cases s.fences.findIdx? fun f => f.runsConstant name with
      | none => exact .inr (.inl ⟨_, rfl⟩)
      | some place => exact .inl ⟨_, rfl, .stopped (List.mem_singleton.mp inside)⟩
    · simp only [perform, stopConstant, refused]
      exact .inr (.inl ⟨_, rfl⟩)
  | clearUpdates => exact .inl ⟨_, rfl, .cleared⟩
  | discardOneShots => exact .inl ⟨_, rfl, .discarded⟩
  | beginPass =>
    rcases s.expectPhase_cases [.acceptingUpdates, .steady] "begin_pass" with
      ⟨inside, allowed⟩ | refused
    · simp only [perform, beginPass, allowed]
      exact .inl ⟨_, rfl, .begun (by simpa using inside)⟩
    · simp only [perform, beginPass, refused]
      exact .inr (.inl ⟨_, rfl⟩)
  | endPass => exact .inl ⟨_, rfl, .ended⟩

/-! ### From state to state -/

/-- From one state of a scheduler to the next: the phase moves along an edge, no fence is added unless
fences are accepted, and no update unless updates are. -/
structure Goes (s t : Scheduler σ) : Prop where
  phase : s.phase.Moves t.phase
  fences : s.phase ≠ .acceptingFences → t.order = s.order ∧ t.requests = s.requests
  updates : s.phase ≠ .acceptingUpdates → t.nextSequence = s.nextSequence ∧
    ∀ g ∈ t.fences, g = .empty g.id ∨ ∃ f ∈ s.fences, g.Within f

theorem Goes.refl (s : Scheduler σ) : Goes s s where
  phase := .stays _
  fences := fun _ => ⟨rfl, rfl⟩
  updates := fun _ => ⟨rfl, fun g member => .inr ⟨g, member, .refl g⟩⟩

/-- Another phase, and maybe another frame. -/
theorem Goes.of_phase (moves : s.phase.Moves t.phase) (fences : t.fences = s.fences)
    (requests : t.requests = s.requests) (numbers : t.nextSequence = s.nextSequence) : Goes s t where
  phase := moves
  fences := fun _ => ⟨by rw [order, fences, order], requests⟩
  updates := fun _ => ⟨numbers, fun g member => .inr ⟨g, fences ▸ member, .refl g⟩⟩

/-- Updates are declared, or stopped, while that is allowed. -/
theorem Goes.of_declaring (phase : s.phase = .acceptingUpdates) (plan : SamePlan s t)
    (requests : t.requests = s.requests) : Goes s t where
  phase := by
    rw [plan.phase]
    exact .stays _
  fences := fun _ => ⟨plan.order, requests⟩
  updates := fun other => absurd phase other

theorem goes_endPass (s : Scheduler σ) : Goes s s.endPass := by
  unfold endPass
  split
  next running => exact .of_phase (by rw [running]; exact .ended) rfl rfl rfl
  next => exact .refl s

theorem goes_spend (s : Scheduler σ) (fence : FenceId) : Goes s (s.spend fence) := by
  have plan := samePlan_spend s fence
  refine ⟨by rw [plan.phase]; exact .stays _,
    fun _ => ⟨plan.order, by rw [spend_eq_mk]⟩, fun _ => ⟨by rw [spend_eq_mk], fun g member => ?_⟩⟩
  · unfold spend modifyFence at member
    split at member
    · exact .inr ⟨g, member, .refl g⟩
    next place _ =>
      obtain ⟨i, here⟩ := List.mem_iff_getElem?.mp member
      simp only at here
      rw [List.getElem?_modify] at here
      obtain ⟨f, there, same⟩ := Option.map_eq_some_iff.mp here
      refine .inr ⟨f, List.mem_of_getElem? there, ?_⟩
      rw [← same]
      split
      · exact f.within_spent
      · exact .refl f

theorem goes_of_accepts (accepts : Accepts s c t) : Goes s t := by
  cases accepts with
  | registering phase => exact .of_phase (by rw [phase]; exact .registering) rfl rfl rfl
  | requested phase =>
    exact ⟨.stays _, fun other => absurd phase other,
      fun _ => ⟨rfl, fun g member => .inr ⟨g, member, .refl g⟩⟩⟩
  | finalized phase =>
    refine ⟨by rw [phase]; exact .frozen, fun other => absurd phase other, fun _ => ⟨rfl, ?_⟩⟩
    intro g member
    obtain ⟨fence, -, rfl⟩ := List.mem_map.mp member
    exact .inl rfl
  | opened phase =>
    refine .of_phase ?_ rfl rfl rfl
    rcases phase with phase | phase <;> rw [phase]
    · exact .stays _
    · exact .reopened
  | @scheduled u phase =>
    have plan := samePlan_modifyFence s u.fence
      (fun f => { f with oneShots := f.oneShots ++ [⟨u, s.nextSequence⟩] }) fun _ => rfl
    exact .of_declaring phase ⟨plan.order, rfl⟩ rfl
  | @started u phase =>
    have plan := samePlan_modifyFence s u.fence
      (fun f => { f with constants := f.constants ++ [⟨u, s.nextSequence⟩] }) fun _ => rfl
    exact .of_declaring phase ⟨plan.order, rfl⟩ rfl
  | stopped phase => exact .of_declaring phase (samePlan_modify s _ _ fun _ => rfl) rfl
  | cleared =>
    refine ⟨.stays _, fun _ => ⟨?_, rfl⟩, fun _ => ⟨rfl, fun g member => ?_⟩⟩
    · simp only [clearUpdates, order, List.map_map]
      rfl
    · obtain ⟨f, -, rfl⟩ := List.mem_map.mp member
      exact .inl rfl
  | discarded =>
    refine ⟨.stays _, fun _ => ⟨(samePlan_discardOneShots s).order, rfl⟩, fun _ => ⟨rfl, ?_⟩⟩
    intro g member
    obtain ⟨f, inside, rfl⟩ := List.mem_map.mp member
    exact .inr ⟨f, inside, f.within_spent⟩
  | begun phase =>
    refine .of_phase ?_ rfl rfl rfl
    rcases phase with phase | phase <;> rw [phase]
    · exact .begun
    · exact .begunAgain
  | ended => exact s.goes_endPass

/-- The states that a scheduler goes through, the last one included. -/
inductive Leads : Scheduler σ → List (Scheduler σ) → Scheduler σ → Prop where
  | refl (s : Scheduler σ) : Leads s [] s
  | step {s t u : Scheduler σ} {states : List (Scheduler σ)} (goes : Goes s t)
      (rest : Leads t states u) : Leads s (t :: states) u

namespace Leads

variable {u : Scheduler σ} {more : List (Scheduler σ)}

theorem single (goes : Goes s t) : Leads s [t] t := .step goes (.refl t)

theorem trans (first : Leads s states t) (second : Leads t more u) : Leads s (states ++ more) u := by
  induction first with
  | refl => exact second
  | step goes _ ih => exact .step goes (ih second)

theorem isChain (leads : Leads s states t) : (s :: states).IsChain Goes := by
  induction leads with
  | refl => exact .singleton _
  | step goes _ ih => exact .cons_cons goes ih

theorem frozen (leads : Leads s states t) (frozen : s.phase.IsFrozen) :
    t.phase.IsFrozen ∧ t.order = s.order ∧ ∀ u ∈ states, u.order = s.order := by
  induction leads with
  | refl => exact ⟨frozen, rfl, nofun⟩
  | step goes _ ih =>
    have order := (goes.fences frozen.ne).1
    obtain ⟨later, last, all⟩ := ih (goes.phase.isFrozen frozen)
    refine ⟨later, last.trans order, fun u member => ?_⟩
    rcases List.mem_cons.mp member with rfl | member
    · exact order
    · exact (all u member).trans order

end Leads

/-! ### Executing updates -/

/-- One execution of a fence, and what it comes to. The callbacks are called in any order that there
is. -/
inductive Fencing (s : Scheduler σ) (fence : FenceId) (shared : Shared σ) :
    Outcome → Scheduler σ → Shared σ → Prop where
  | ran {shared' : Shared σ} (executed : FenceRun s fence shared shared') :
      Fencing s fence shared .done (s.spend fence) shared'
  -- The call was refused, or a fault ended it.
  | failed {elapsed : Duration} {failure : Failure FenceError} {t : Scheduler σ} {shared' : Shared σ}
      (failed : (s.runFence fence elapsed shared).value = (.error failure, t, shared')) :
      Fencing s fence shared (.ofRun (.error failure : Except _ FenceReport)) t shared'
  -- A fault in another order.
  | stopped {slot : Fence σ} {serial concurrent : List (Update σ)} {b : Batch σ} {t : Batch.State σ}
      {moves : List (Batch.State σ × Batch.Move)} {fault : Fault} (running : s.phase = .running)
      (found : s.fence? fence = some slot)
      (due : slot.due.partition (fun u => u.mode.isSerial) = (serial, concurrent))
      (batch : b = s.batch fence concurrent)
      (run : Batch.Run b (b.start (s.runSerial fence serial shared).value) moves t)
      (stopped : t.control = .stopped fault) :
      Fencing s fence shared (.broken fault) (s.spend fence) t.shared

theorem spent_of_runFence {elapsed : Duration} {fault : Fault}
    (ran : (s.runFence fence elapsed shared).value = (.error (.fault fault), t, shared')) :
    t = s.spend fence := by
  unfold runFence at ran
  split at ran
  · cases ran
  · cases ran
  · simp only [Logged.value_within, Logged.value_bind] at ran
    split at ran
    · cases ran
      rfl
    · simp only [Logged.value_ite, Logged.value_bind, Logged.value_pure, ite_self] at ran
      cases ran

/-- Unless the call is refused, the one-shots are gone. -/
theorem Fencing.spent (fencing : Fencing s fence shared outcome t shared') :
    (∃ cause, outcome = .refused cause) ∧ t = s ∨
      (∀ cause, outcome ≠ .refused cause) ∧ t = s.spend fence := by
  cases fencing with
  | ran executed => exact .inr ⟨nofun, rfl⟩
  | @failed elapsed failure _ _ failed =>
    cases failure with
    | error cause => exact .inl ⟨⟨cause, rfl⟩, eq_of_unrun failed⟩
    | fault fault => exact .inr ⟨nofun, spent_of_runFence failed⟩
  | stopped => exact .inr ⟨nofun, rfl⟩

theorem Fencing.leads (fencing : Fencing s fence shared outcome t shared') : Leads s [t] t := by
  rcases fencing.spent with ⟨-, rfl⟩ | ⟨-, rfl⟩
  · exact .single (.refl _)
  · exact .single (s.goes_spend fence)

/-- A fence of the order can be executed while a pass is running. -/
theorem Fencing.not_refused (fencing : Fencing s fence shared outcome t shared')
    (running : s.phase = .running) (member : fence ∈ s.order) : outcome ≠ .refused cause := by
  cases fencing with
  | ran | stopped => nofun
  | failed failed =>
    obtain ⟨fault, rfl⟩ := runFence_fault running member failed
    nofun

/-- The fences that are left of a pass are executed one after another, up to the first that does not
end well. A fault leaves the pass running. -/
inductive Passing : Scheduler σ → List FenceId → Shared σ → Outcome → List (Scheduler σ) →
    Scheduler σ → Prop where
  | ended (s : Scheduler σ) (shared : Shared σ) : Passing s [] shared .done [s.endPass] s.endPass
  | ran {s t u : Scheduler σ} {fence : FenceId} {left : List FenceId} {shared shared' : Shared σ}
      {outcome : Outcome} {states : List (Scheduler σ)}
      (fenced : Fencing s fence shared .done t shared')
      (rest : Passing t left shared' outcome states u) :
      Passing s (fence :: left) shared outcome (t :: states) u
  | refused {s t : Scheduler σ} {fence : FenceId} {left : List FenceId} {shared shared' : Shared σ}
      {cause : FenceError} (fenced : Fencing s fence shared (.refused cause) t shared') :
      Passing s (fence :: left) shared (.refused cause) [t, t.endPass] t.endPass
  | broken {s t : Scheduler σ} {fence : FenceId} {left : List FenceId} {shared shared' : Shared σ}
      {fault : Fault} (fenced : Fencing s fence shared (.broken fault) t shared') :
      Passing s (fence :: left) shared (.broken fault) [t] t

variable {left : List FenceId}

theorem Passing.leads (passing : Passing s left shared outcome states t) : Leads s states t := by
  induction passing with
  | ended s => exact .single s.goes_endPass
  | ran fenced _ ih => exact fenced.leads.trans ih
  | refused fenced => exact fenced.leads.trans (.single (goes_endPass _))
  | broken fenced => exact fenced.leads

theorem Passing.not_refused (passing : Passing s left shared outcome states t)
    (running : s.phase = .running) (inside : ∀ fence ∈ left, fence ∈ s.order) :
    outcome ≠ .refused cause := by
  induction passing with
  | ended => nofun
  | @ran s t _ fence left _ _ _ _ fenced _ ih =>
    rcases fenced.spent with ⟨⟨_, impossible⟩, -⟩ | ⟨-, rfl⟩
    · cases impossible
    · have plan := samePlan_spend s fence
      refine ih (plan.phase.trans running) fun other later => ?_
      rw [plan.order]
      exact inside other (List.mem_cons_of_mem _ later)
  | refused fenced => exact absurd rfl (fenced.not_refused running (inside _ List.mem_cons_self))
  | broken => nofun

theorem endPass_counts (s : Scheduler σ) :
    s.endPass.frame = s.frame ∧ s.endPass.nextSequence = s.nextSequence := by
  unfold endPass
  split <;> exact ⟨rfl, rfl⟩

theorem Fencing.counts (fencing : Fencing s fence shared outcome t shared') :
    t.frame = s.frame ∧ t.nextSequence = s.nextSequence := by
  rcases fencing.spent with ⟨-, rfl⟩ | ⟨-, rfl⟩
  · exact ⟨rfl, rfl⟩
  · rw [spend_eq_mk]
    exact ⟨rfl, rfl⟩

theorem Passing.counts (passing : Passing s left shared outcome states t) :
    t.frame = s.frame ∧ t.nextSequence = s.nextSequence := by
  induction passing with
  | ended s => exact s.endPass_counts
  | ran fenced _ ih => exact ⟨ih.1.trans fenced.counts.1, ih.2.trans fenced.counts.2⟩
  | @refused _ t _ _ _ _ _ fenced =>
    exact ⟨t.endPass_counts.1.trans fenced.counts.1, t.endPass_counts.2.trans fenced.counts.2⟩
  | broken fenced => exact fenced.counts

/-! ### Calls -/

/-- A call, what it comes to, and the states it leads through. -/
inductive Performs (s : Scheduler σ) : Operation σ → Outcome → List (Scheduler σ) → Scheduler σ → Prop
    where
  | command (c : Command σ) : Performs s (.command c) (s.perform c).1 [(s.perform c).2] (s.perform c).2
  | fenced {fence : FenceId} {shared shared' : Shared σ} {outcome : Outcome} {t : Scheduler σ}
      (fencing : Fencing s fence shared outcome t shared') :
      Performs s (.runFence fence shared) outcome [t] t
  | unpassed {shared : Shared σ} {cause : FenceError} {t : Scheduler σ}
      (refused : s.beginPass = (.error cause, t)) : Performs s (.runPass shared) (.refused cause) [t] t
  | passed {shared : Shared σ} {frame : Nat} {outcome : Outcome} {t u : Scheduler σ}
      {states : List (Scheduler σ)} (begun : s.beginPass = (.ok frame, t))
      (passing : Passing t t.order shared outcome states u) :
      Performs s (.runPass shared) outcome (t :: states) u

/-- The call begins a pass. -/
def begins : Operation σ → Outcome → Bool
  | .command .beginPass, .done => true
  | .runPass _, .refused _ => false
  | .runPass _, _ => true
  | _, _ => false

variable {operation : Operation σ}

theorem beginPass_cases (s : Scheduler σ) :
    (∃ cause, s.beginPass = (.error cause, s)) ∨
      s.beginPass = (.ok (s.frame + 1), { s with phase := .running, frame := s.frame + 1 }) ∧
        Accepts s .beginPass { s with phase := .running, frame := s.frame + 1 } := by
  rcases s.expectPhase_cases [.acceptingUpdates, .steady] "begin_pass" with ⟨inside, allowed⟩ | refused
  · simp only [beginPass, allowed]
    exact .inr ⟨trivial, .begun (by simpa using inside)⟩
  · simp only [beginPass, refused]
    exact .inl ⟨_, rfl⟩

theorem eq_of_unbegun (refused : s.beginPass = (.error cause, t)) : t = s := by
  rcases s.beginPass_cases with ⟨_, same⟩ | ⟨begun, -⟩
  · exact (Prod.mk.inj (same.symm.trans refused)).2.symm
  · cases begun.symm.trans refused

theorem accepts_of_begun {frame : Nat} (begun : s.beginPass = (.ok frame, t)) :
    Accepts s .beginPass t := by
  rcases s.beginPass_cases with ⟨_, refused⟩ | ⟨same, accepts⟩
  · cases refused.symm.trans begun
  · rwa [(Prod.mk.inj (same.symm.trans begun)).2] at accepts

theorem goes_perform (s : Scheduler σ) (c : Command σ) : Goes s (s.perform c).2 := by
  rcases s.perform_cases c with ⟨t, done, accepts⟩ | ⟨cause, refused⟩ | ⟨-, phase, cause, refused⟩
  · rw [done]
    exact goes_of_accepts accepts
  · rw [refused]
    exact .refl s
  · rw [refused]
    refine ⟨.stays _, fun other => absurd phase other, fun _ => ⟨rfl, fun g member => ?_⟩⟩
    obtain ⟨fence, -, rfl⟩ := List.mem_map.mp member
    exact .inl rfl

theorem Performs.leads (performs : Performs s operation outcome states t) : Leads s states t := by
  cases performs with
  | command c => exact .single (s.goes_perform c)
  | fenced fencing => exact fencing.leads
  | unpassed refused =>
    obtain rfl := eq_of_unbegun refused
    exact .single (.refl _)
  | passed begun passing => exact .step (goes_of_accepts (accepts_of_begun begun)) passing.leads

/-- A refused call changes nothing. -/
theorem Performs.kept (performs : Performs s operation (.refused cause) states t)
    (other : operation ≠ .command .finalize) : states = [s] ∧ t = s := by
  generalize answered : Outcome.refused cause = outcome at performs
  cases performs with
  | command c =>
    rcases s.perform_cases c with ⟨t, done, -⟩ | ⟨_, refused⟩ | ⟨rfl, -⟩
    · rw [done] at answered
      cases answered
    · rw [refused]
      exact ⟨rfl, rfl⟩
    · exact absurd rfl other
  | fenced fencing =>
    rcases fencing.spent with ⟨-, rfl⟩ | ⟨never, -⟩
    · exact ⟨rfl, rfl⟩
    · exact absurd answered.symm (never cause)
  | unpassed refused =>
    obtain rfl := eq_of_unbegun refused
    exact ⟨rfl, rfl⟩
  | passed begun passing =>
    exact absurd answered.symm (passing.not_refused (beginPass_spec begun).2 fun _ member => member)

theorem Accepts.counts (accepts : Accepts s c t) :
    t.frame = s.frame + (if begins (.command c) .done then 1 else 0) ∧
      t.nextSequence ≤ s.nextSequence + 1 := by
  cases accepts with
  | begun => exact ⟨rfl, Nat.le_succ _⟩
  | ended =>
    obtain ⟨frame, number⟩ := s.endPass_counts
    exact ⟨frame, number ▸ Nat.le_succ _⟩
  | scheduled | started => exact ⟨rfl, Nat.le_refl _⟩
  | registering | requested | finalized | opened | stopped | cleared | discarded =>
    exact ⟨rfl, Nat.le_succ _⟩

theorem begins_refused (operation : Operation σ) (cause : FenceError) :
    begins operation (.refused cause) = false := by
  cases operation with
  | command c => cases c <;> rfl
  | runFence | runPass => rfl

theorem Performs.counts (performs : Performs s operation outcome states t) :
    t.frame = s.frame + (if begins operation outcome then 1 else 0) ∧
      t.nextSequence ≤ s.nextSequence + 1 := by
  cases performs with
  | command c =>
    rcases s.perform_cases c with ⟨t, done, accepts⟩ | ⟨cause, refused⟩ | ⟨rfl, -, cause, refused⟩
    · rw [done]
      exact accepts.counts
    · rw [refused, begins_refused]
      exact ⟨rfl, Nat.le_succ _⟩
    · rw [refused]
      exact ⟨rfl, Nat.le_succ _⟩
  | fenced fencing => exact ⟨fencing.counts.1, fencing.counts.2 ▸ Nat.le_succ _⟩
  | unpassed refused =>
    obtain rfl := eq_of_unbegun refused
    exact ⟨rfl, Nat.le_succ _⟩
  | passed begun passing =>
    obtain ⟨frame, number⟩ := passing.counts
    obtain ⟨frame', number'⟩ := (accepts_of_begun begun).counts
    -- The pass has begun, so it was not refused.
    have began : begins (.runPass ‹_› : Operation σ) outcome = true := by
      cases outcome with
      | done | broken => rfl
      | refused => exact absurd rfl (passing.not_refused (beginPass_spec begun).2 fun _ member => member)
    refine ⟨?_, number ▸ number'⟩
    rw [began, frame, frame']
    rfl

/-- What a call comes to when callbacks are called in the order of the frame thread. -/
def call (s : Scheduler σ) (timing : Timing) : Operation σ → Outcome × Scheduler σ
  | .command c => s.perform c
  | .runFence fence shared =>
    let answer := (s.runFence fence (timing.fence fence) shared).value
    (.ofRun answer.1, answer.2.1)
  | .runPass shared =>
    let answer := (s.runPass timing shared).value
    (.ofRun answer.1, answer.2.1)

theorem fencing_of_runFence {elapsed : Duration} {result : Except (Failure FenceError) FenceReport}
    (ran : (s.runFence fence elapsed shared).value = (result, t, shared')) :
    Fencing s fence shared (.ofRun result) t shared' := by
  cases result with
  | ok report =>
    obtain ⟨rfl, executed⟩ := fenceRun_of_runFence ran
    exact .ran executed
  | error failure => exact .failed ran

/-- The end of a pass. -/
def endRun (s : Scheduler σ) : Outcome → Scheduler σ
  | .done | .refused _ => s.endPass
  | .broken _ => s

theorem passing_of_runFences {timing : Timing} {reports : List FenceReport}
    {result : Except (Failure FenceError) (List FenceReport)}
    (ran : (runFences timing left reports s shared).value = (result, t, shared')) :
    ∃ states, Passing s left shared (.ofRun result) states (t.endRun (.ofRun result)) := by
  induction left generalizing s reports shared with
  | nil =>
    cases ran
    exact ⟨_, .ended _ _⟩
  | cons fence rest ih =>
    simp only [runFences, Logged.value_bind] at ran
    split at ran
    next failure s₁ shared₁ outcome =>
      cases ran
      have fenced := fencing_of_runFence outcome
      cases failure with
      | error cause => exact ⟨_, .refused fenced⟩
      | fault fault => exact ⟨_, .broken fenced⟩
    next report s₁ shared₁ outcome =>
      obtain ⟨states, passing⟩ := ih ran
      exact ⟨_, .ran (fencing_of_runFence outcome) passing⟩

/-- Every call comes to something, and this is one of the ways it can go. -/
theorem exists_performs (s : Scheduler σ) (timing : Timing) (operation : Operation σ) :
    ∃ states, Performs s operation (s.call timing operation).1 states (s.call timing operation).2 := by
  cases operation with
  | command c => exact ⟨_, .command c⟩
  | runFence fence shared => exact ⟨_, .fenced (fencing_of_runFence rfl)⟩
  | runPass shared =>
    simp only [call, runPass]
    cases begun : s.beginPass with
    | mk result t =>
      cases result with
      | error cause => exact ⟨_, .unpassed begun⟩
      | ok frame =>
        simp only [Logged.value_bind]
        rcases ran : (runFences timing t.order [] t shared).value with ⟨result, u, shared'⟩
        obtain ⟨states, passing⟩ := passing_of_runFences ran
        rcases result with (cause | fault) | reports
        all_goals exact ⟨_, .passed begun passing⟩

/-! ### Calls in any order -/

/-- A call that was made. -/
structure Record (σ : Type) where
  before : Scheduler σ
  operation : Operation σ
  outcome : Outcome
  -- The states it led through, the last one included.
  states : List (Scheduler σ)
  after : Scheduler σ

/-- Calls made one after another. -/
inductive Course : Scheduler σ → List (Record σ) → Scheduler σ → Prop where
  | refl (s : Scheduler σ) : Course s [] s
  | call {s t u : Scheduler σ} {operation : Operation σ} {outcome : Outcome}
      {states : List (Scheduler σ)} {past : List (Record σ)}
      (performs : Performs s operation outcome states t) (rest : Course t past u) :
      Course s (⟨s, operation, outcome, states, t⟩ :: past) u

/-- How calls go, whatever their order. -/
structure Orderly (s₀ : Scheduler σ) (past : List (Record σ)) (s : Scheduler σ) : Prop where
  -- From state to state, also within a pass.
  goes : (s₀ :: past.flatMap Record.states).IsChain Goes
  -- The order is frozen for good.
  frozen : ∀ early r late, past = early ++ r :: late → r.operation = .command .finalize →
    r.outcome = .done → s.order = r.after.order ∧ ∀ q ∈ late, ∀ t ∈ q.states, t.order = r.after.order
  frame : s.frame = past.countP fun r => begins r.operation r.outcome
  kept : ∀ r ∈ past, r.operation ≠ .command .finalize → ∀ cause, r.outcome = .refused cause →
    r.states = [r.before] ∧ r.after = r.before
  -- No number grows faster than the calls, so none reaches a bound that the calls stay below.
  counted : s.frame ≤ past.length ∧ s.nextSequence ≤ past.length

namespace Course

variable {past late : List (Record σ)}

theorem leads (course : Course s past t) : Leads s (past.flatMap Record.states) t := by
  induction course with
  | refl s => exact .refl s
  | call performs _ ih => exact performs.leads.trans ih

theorem performs_of_mem {r : Record σ} (course : Course s past t) (member : r ∈ past) :
    Performs r.before r.operation r.outcome r.states r.after := by
  induction course with
  | refl => cases member
  | call performs _ ih =>
    rcases List.mem_cons.mp member with rfl | later
    · exact performs
    · exact ih later

/-- What comes after a call starts where the call ends. -/
theorem after_of_append {early : List (Record σ)} {r : Record σ}
    (course : Course s (early ++ r :: late) t) : Course r.after late t := by
  induction early generalizing s with
  | nil =>
    cases course with
    | call _ rest => exact rest
  | cons first early ih =>
    cases course with
    | call _ rest => exact ih rest

theorem counts (course : Course s past t) :
    t.frame = s.frame + (past.countP fun r => begins r.operation r.outcome) ∧
      t.nextSequence ≤ s.nextSequence + past.length := by
  induction course with
  | refl s => exact ⟨rfl, Nat.le_refl _⟩
  | call performs _ ih =>
    obtain ⟨frame, number⟩ := performs.counts
    simp only [List.countP_cons, List.length_cons]
    omega

end Course

/-- The order is frozen by the call that freezes it. -/
theorem Performs.isFrozen (performs : Performs s (.command .finalize) .done states t) :
    t.phase.IsFrozen := by
  generalize answered : Outcome.done = outcome at performs
  cases performs with
  | command =>
    rcases s.perform_cases .finalize with ⟨t, done, accepts⟩ | ⟨cause, refused⟩ | ⟨-, -, cause, refused⟩
    · rw [done]
      cases accepts
      simp [Phase.IsFrozen]
    · rw [refused] at answered
      cases answered
    · rw [refused] at answered
      cases answered

/-- Whatever calls are made of a new scheduler, in whatever order: the phase moves along the edges, the
order stays once it is frozen, frames count the passes that began, and a refused call changes nothing. -/
theorem orderly_of_course {config : WorldConfig} {kindCount : Nat} {past : List (Record σ)}
    (course : Course (.new config kindCount) past s) : Orderly (.new config kindCount) past s := by
  obtain ⟨frame, number⟩ := course.counts
  refine ⟨course.leads.isChain, fun early r late same freezes done => ?_, by simpa [new] using frame,
    fun r member other cause refused => ?_, ?_⟩
  · have rest := (same ▸ course).after_of_append
    have performs := course.performs_of_mem (r := r) (by simp [same])
    rw [freezes, done] at performs
    obtain ⟨-, last, all⟩ := rest.leads.frozen performs.isFrozen
    exact ⟨last, fun q member t inside => all t (List.mem_flatMap.mpr ⟨q, member, inside⟩)⟩
  · have performs := course.performs_of_mem member
    rw [refused] at performs
    exact performs.kept other
  · refine ⟨?_, by simpa [new] using number⟩
    rw [frame]
    simpa [new] using List.countP_le_length

/-! ### Two passes -/

/-- Makes calls one after another and says what each comes to. -/
def calls (s : Scheduler σ) (timing : Timing) : List (Operation σ) → List Outcome × Scheduler σ
  | [] => ([], s)
  | operation :: rest =>
    let first := s.call timing operation
    let later := first.2.calls timing rest
    (first.1 :: later.1, later.2)

theorem exists_course (s : Scheduler σ) (timing : Timing) (operations : List (Operation σ)) :
    ∃ past, Course s past (s.calls timing operations).2 ∧
      past.map Record.operation = operations ∧
        past.map Record.outcome = (s.calls timing operations).1 := by
  induction operations generalizing s with
  | nil => exact ⟨[], .refl s, rfl, rfl⟩
  | cons operation rest ih =>
    obtain ⟨states, performs⟩ := s.exists_performs timing operation
    obtain ⟨past, course, same, outcomes⟩ := ih (s.call timing operation).2
    exact ⟨_, .call performs course, congrArg _ same, congrArg _ outcomes⟩

/-- Half of these calls are refused: out of phase, misplaced, named twice or unknown. -/
def halfRefused : List (Operation (List (String × Nat))) :=
  let physics : FenceId := ⟨"Physics"⟩
  let audio : FenceId := ⟨"Audio"⟩
  let serialNote := Batch.noting "serialNote" .serial [] []
  let oneShot := { Batch.noting "oneShot" .concurrent [] [] with fence := physics }
  let shared := Shared.ofRegistry .empty []
  [.command (.schedule oneShot), .command .beginRegistration,
    .command (.request ⟨physics, .update, .after⟩), .command (.request ⟨physics, physics, .after⟩),
    .command (.request ⟨physics, .register, .after⟩), .command .finalize,
    .command (.request ⟨audio, .update, .after⟩), .command (.startConstant serialNote),
    .command (.startConstant serialNote), .command (.schedule oneShot), .runFence .update shared,
    .runPass shared, .command (.schedule oneShot), .command .openDeclarations,
    .command (.stopConstant "oneShot"), .command .beginPass, .runFence audio shared,
    .runFence .update shared, .runPass shared, .command .endPass]

theorem orderly_of_halfRefused : ∃ past s,
    Course (.new .singleThreaded 0) past s ∧ past.map Record.operation = halfRefused ∧
      (past.map fun r => decide (r.outcome = .done)) =
        [false, true, true, false, false, true, false, true, false, true, false, true, false, true,
          false, true, false, true, false, true] ∧
      s.frame = 2 ∧ Orderly (.new .singleThreaded 0) past s := by
  obtain ⟨past, course, operations, outcomes⟩ :=
    exists_course (.new .singleThreaded 0) .zero halfRefused
  refine ⟨past, _, course, operations, ?_, by decide +kernel, orderly_of_course course⟩
  have answers : (past.map fun r => decide (r.outcome = .done)) =
      (past.map Record.outcome).map fun outcome => decide (outcome = .done) := by
    rw [List.map_map]
    rfl
  rw [answers, outcomes]
  decide +kernel

end Scheduler

end EntityWorld
