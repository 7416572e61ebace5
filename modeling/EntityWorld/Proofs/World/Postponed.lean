import EntityWorld.Proofs.World.Declarations
import EntityWorld.Proofs.World.Prepared

/-!
# Passes of two worlds

Once systems have declared, a frame depends on them no more, nor on the numbers that their declarations
got: two worlds that differ in nothing else answer everything alike until the frame is over. Main
statements: `play?_postpone`, `runFrame_of_declares` and `sameFrame_of_postpone`.
-/
namespace EntityWorld

variable {σ : Type}

/-- Is about the pass of a frame. -/
def Ask.InPass : Ask σ → Prop
  | .execute _ | .bound _ | .finish => True
  | _ => False

namespace World

variable {w w' v p q : World σ} {m n : Moment σ} {systems : List (System σ)} {since delay : Nat}

/-- A world under other systems that has left numbers out. -/
def postpone (systems : List (System σ)) (since delay : Nat) (w : World σ) : World σ :=
  w.staffed systems (w.scheduler.postpone since delay) w.shared.memory

end World

def Moment.postpone (systems : List (System σ)) (since delay : Nat) : Moment σ → Moment σ
  | .resting w => .resting (w.postpone systems since delay)
  | .declaring w => .declaring (w.postpone systems since delay)
  | .passing w left => .passing (w.postpone systems since delay) left
  | .leaving w fence left => .leaving (w.postpone systems since delay) fence left

def Turn.postpone (systems : List (System σ)) (since delay : Nat) (turn : Turn σ) : Turn σ :=
  { turn with after := turn.after.postpone systems since delay }

namespace World

variable {w w' v p q : World σ} {m n : Moment σ} {systems : List (System σ)} {since delay : Nat}

/-- Worlds that differ in their systems and in the numbers of declarations only. -/
structure Matches (w v : World σ) : Prop where
  config : v.config = w.config
  shared : v.shared = w.shared
  registering : v.registering = w.registering
  unregistering : v.unregistering = w.unregistering
  nextUnregistering : v.nextUnregistering = w.nextUnregistering
  phase : v.phase = w.phase
  frame : v.frame = w.frame
  order : v.fenceOrder = w.fenceOrder
  oneShots : v.scheduler.fences.map (fun f => f.oneShots.map ScheduledUpdate.update) =
    w.scheduler.fences.map fun f => f.oneShots.map ScheduledUpdate.update
  constants : v.scheduler.fences.map (fun f => f.constants.map ScheduledUpdate.update) =
    w.scheduler.fences.map fun f => f.constants.map ScheduledUpdate.update
  due : v.scheduler.fences.map Fence.due = w.scheduler.fences.map Fence.due

theorem matches_postpone (w : World σ) : Matches (w.postpone systems since delay) w where
  config := rfl
  shared := rfl
  registering := rfl
  unregistering := rfl
  nextUnregistering := rfl
  phase := rfl
  frame := rfl
  order := Scheduler.order_postpone.symm
  oneShots := by
    simp [postpone, staffed, Scheduler.postpone, Fence.postpone, Function.comp_def]
  constants := by
    simp [postpone, staffed, Scheduler.postpone, Fence.postpone, Function.comp_def]
  due := by
    simp [postpone, staffed, Scheduler.postpone, Function.comp_def]

/-! ### Asking -/

/-- Boundaries leave the scheduler and the memory alone. -/
theorem applyBoundary_postpone (fence : FenceId) (life : LifecycleReport) :
    ((w.postpone systems since delay).applyBoundary fence life).value =
      ((w.applyBoundary fence life).value.1,
        (w.applyBoundary fence life).value.2.postpone systems since delay) := by
  have same : (w.applyBoundary fence life).value.2 =
      (w.applyBoundary fence life).value.2.staffed w.systems w.scheduler w.shared.memory :=
    congrArg Prod.snd (applyBoundary_staffed (w := w) fence life)
  have scheduler : (w.applyBoundary fence life).value.2.scheduler = w.scheduler :=
    (congrArg World.scheduler same).trans rfl
  have memory : (w.applyBoundary fence life).value.2.shared.memory = w.shared.memory :=
    (congrArg (fun v : World σ => v.shared.memory) same).trans rfl
  rw [postpone, applyBoundary_staffed, postpone, scheduler, memory]

theorem serve?_postpone (ask : Ask σ) (inPass : ask.InPass) :
    (m.postpone systems since delay).serve? ask =
      (m.serve? ask).map fun (answer, next) => (answer, next.postpone systems since delay) := by
  cases ask with
  | execute moves =>
    cases m with
    | passing w left =>
      cases left with
      | nil => rfl
      | cons fence left =>
        have scheduler : (w.postpone systems since delay).scheduler =
            w.scheduler.postpone since delay := rfl
        have shared : (w.postpone systems since delay).shared = w.shared := rfl
        simp only [Moment.postpone, Moment.serve?, scheduler, shared, Scheduler.replayFence?_postpone,
          Scheduler.spend_postpone]
        cases w.scheduler.replayFence? fence moves w.shared <;> rfl
    | _ => rfl
  | bound life =>
    cases m with
    | leaving w fence left =>
      simp only [Moment.postpone, Moment.serve?, applyBoundary_postpone]
      rcases (w.applyBoundary fence life).value with ⟨fault | life', after⟩ <;> rfl
    | _ => rfl
  | finish =>
    cases m with
    | passing w left =>
      cases left with
      | nil =>
        have ended : (w.postpone systems since delay).scheduler.endPass =
            w.scheduler.endPass.postpone since delay := Scheduler.endPass_postpone
        simp only [Moment.postpone, Moment.serve?, ended, Option.map_some]
        rfl
      | cons fence left => rfl
    | _ => rfl
  | _ => cases inPass

theorem play?_postpone {asks : List (Ask σ)} (inPass : ∀ ask ∈ asks, ask.InPass) :
    (m.postpone systems since delay).play? asks =
      (m.play? asks).map fun (turns, last) =>
        (turns.map (Turn.postpone systems since delay), last.postpone systems since delay) := by
  induction asks generalizing m with
  | nil => rfl
  | cons ask rest ih =>
    have later : ∀ ask ∈ rest, ask.InPass := fun ask member => inPass ask (List.mem_cons_of_mem _ member)
    simp only [Moment.play?, serve?_postpone ask (inPass ask List.mem_cons_self)]
    cases m.serve? ask with
    | none => rfl
    | some served =>
      simp only [Option.map_some, Option.bind_some, ih later, Option.map_map]
      rfl

/-! ### Frames -/

theorem executeFences_postpone (timing : Timing) (left : List FenceId) (reports : List FenceReport)
    (life : LifecycleReport) :
    (executeFences timing left reports life (w.postpone systems since delay)).value =
      ((executeFences timing left reports life w).value.1,
        (executeFences timing left reports life w).value.2.postpone systems since delay) := by
  induction left generalizing w reports life with
  | nil => rfl
  | cons fence rest ih =>
    have scheduler : (w.postpone systems since delay).scheduler =
        w.scheduler.postpone since delay := rfl
    have shared : (w.postpone systems since delay).shared = w.shared := rfl
    simp only [executeFences, Logged.value_bind, scheduler, shared, Scheduler.runFence_postpone]
    rcases (w.scheduler.runFence fence (timing.fence fence) w.shared).value with
      ⟨failure | report, s, t⟩
    · rfl
    · have beside : ({ w.postpone systems since delay with
          scheduler := s.postpone since delay, shared := t } : World σ) =
            ({ w with scheduler := s, shared := t } : World σ).postpone systems since delay := rfl
      simp only [beside, Logged.value_bind, applyBoundary_postpone]
      rcases (applyBoundary { w with scheduler := s, shared := t } fence life).value with
        ⟨fault | life', after⟩
      · rfl
      · exact ih (reports ++ [report]) life'

/-- The declarations of the next frame, if every system declares, and the world in which its pass
begins. -/
inductive Declares (w : World σ) : List (Declaration.Request σ) → World σ → Prop
  | intro {report : CommitReport} {d p : World σ} {left : List FenceId}
      (attempted : (Moment.resting w).serve? .attempt = some (report, .declaring d))
      (declared : (Moment.declaring d).serve? .declare = some (none, .passing p left)) :
      Declares w (declarations w.systems d) p

/-- What a frame comes to from the beginning of its pass on. -/
def concluded (timing : Timing) (commit : CommitReport) (indexRebuilt : Bool) (p : World σ) :
    Except (Failure WorldError) FrameReport × World σ :=
  match (executeFences timing p.fenceOrder [] .none p).value with
  | (.error (.fault fault), u) => (.error (.fault fault), u)
  | (.error (.error cause), u) =>
    (.error (.error (.fence cause)), { u with scheduler := u.scheduler.endPass.discardOneShots.2 })
  | (.ok (fences, lifecycle), u) =>
    (.ok
      { frame := p.frame
        migrated := commit.migrated.size
        removed := commit.removed.size
        indexRebuilt
        pass := ⟨p.frame, fences⟩
        lifecycle
        elapsed := timing.frame }, { u with scheduler := u.scheduler.endPass })

theorem runFrame_of_declares {declared : List (Declaration.Request σ)} (declares : Declares w declared p) :
    ∃ commit rebuilt, ∀ timing, (w.runFrame timing).value = concluded timing commit rebuilt p := by
  cases declares with
  | @intro report d p left attempted declared =>
    cases served_of_serve? attempted with
    | @attempted _ after _ scheduler committed opened =>
      cases served_of_serve? declared with
      | @declared _ e frame begun done begins =>
        obtain rfl := Scheduler.frame_of_beginPass begins
        refine ⟨report, after.refresh.value.1, fun timing => ?_⟩
        simp only [runFrame, Logged.value_within, Logged.value_bind, committed, opened, playFrame, done,
          execute, begins, concluded, fenceOrder]
        rcases (executeFences timing begun.order [] .none { e with scheduler := begun }).value with
          ⟨failure | ⟨fences, life⟩, u⟩
        · cases failure <;> rfl
        · rfl

/-- The same pass and the same changes of life states; the worlds match afterwards. -/
structure SameFrame (a b : Except (Failure WorldError) FrameReport × World σ) : Prop where
  answer : b.1.map (fun report => (report.frame, report.pass, report.lifecycle)) =
    a.1.map fun report => (report.frame, report.pass, report.lifecycle)
  world : Matches a.2 b.2

theorem sameFrame_of_postpone (timing : Timing) (commit commit' : CommitReport)
    (rebuilt rebuilt' : Bool) :
    SameFrame (concluded timing commit rebuilt (q.postpone systems since delay))
      (concluded timing commit' rebuilt' q) := by
  have order : (q.postpone systems since delay).fenceOrder = q.fenceOrder := Scheduler.order_postpone
  simp only [concluded, order, executeFences_postpone]
  rcases (executeFences timing q.fenceOrder [] .none q).value with ⟨failure | ⟨fences, life⟩, u⟩
  · cases failure with
    | fault fault => exact ⟨rfl, matches_postpone u⟩
    | error cause =>
      have ended : (u.postpone systems since delay).scheduler.endPass.discardOneShots.2 =
          u.scheduler.endPass.discardOneShots.2.postpone since delay := by
        rw [← Scheduler.discardOneShots_postpone, ← Scheduler.endPass_postpone]
        rfl
      simp only [ended]
      exact ⟨rfl, matches_postpone { u with scheduler := u.scheduler.endPass.discardOneShots.2 }⟩
  · have ended : (u.postpone systems since delay).scheduler.endPass =
        u.scheduler.endPass.postpone since delay := Scheduler.endPass_postpone
    simp only [ended]
    exact ⟨rfl, matches_postpone { u with scheduler := u.scheduler.endPass }⟩

end World

end EntityWorld
