import EntityWorld.Proofs.World.Frames
import EntityWorld.Proofs.World.Postponed

/-!
# Abandoned frames

Frames that systems fail to declare for leave nothing behind but what their first steps prepared: no
callback has run, nothing that was declared for them alone is left, and a later frame goes as it would
have gone without them. Main statement: `stutter_of_reaches`.
-/
namespace EntityWorld.World

open Declaration (Request)

variable {σ : Type} {w w' w₀ v p q : World σ} {past : List (Passage σ)}

/-- A frame in which a system answers an error: nothing is done but the first two steps and the
declarations, up to those of the system, which leave the world `failed`. -/
inductive Fails (w : World σ) (cause : WorldError) (failed w' : World σ) : Prop where
  | intro {report : CommitReport} {d u : World σ} {before rest : List (System σ)} {system : System σ}
      (attempted : (Moment.resting w).serve? .attempt = some (report, .declaring d))
      (systems : w.systems = before ++ system :: rest)
      (declared : (declare before d).value = (.ok (), u))
      (answered : (system.declare.run performDeclaration u).value = (.error cause, failed))
      (abandoned : (Moment.declaring d).serve? .declare =
        some (some (system.name, cause), .resting w')) : Fails w cause failed w'

/-- What systems hear while they declare in the next frame. -/
def heardNext (w : World σ) : List (Heard (Declaration.interface σ)) :=
  match (Moment.resting w).serve? .attempt with
  | some (_, .declaring d) => heardDeclaring w.systems d
  | _ => []

/-- A frame that answers an error. -/
structure Attempt (σ : Type) where
  before : World σ
  cause : WorldError
  after : World σ

/-- Frames that are run one after another and answer errors. Constant updates are neither started nor
stopped. -/
inductive Stutters : World σ → List (Attempt σ) → World σ → Prop where
  | none (w : World σ) : Stutters w [] w
  | more {w w₁ w' : World σ} {attempts : List (Attempt σ)} {timing : Timing} {cause : WorldError}
      (abandoned : (w.runFrame timing).value = (.error (.error cause), w₁))
      (kept : KeepsConstants w.heardNext) (later : Stutters w₁ attempts w') :
      Stutters w (⟨w, cause, w₁⟩ :: attempts) w'

/-- Two frames go on alike, whatever moves the workers make. -/
structure Resumes (w p v q : World σ) : Prop where
  begins : Matches p q
  asked : ∀ asks : List (Ask σ), (∀ ask ∈ asks, ask.InPass) →
    Option.Rel (fun a b => b.1.map Turn.dealing = a.1.map Turn.dealing ∧ Matches a.2.world b.2.world)
      ((Moment.passing p p.fenceOrder).play? asks) ((Moment.passing q q.fenceOrder).play? asks)
  frames : ∀ timing, SameFrame (w.runFrame timing).value (v.runFrame timing).value

/-- What is left of frames that answer errors. -/
structure Stutter (w : World σ) (attempts : List (Attempt σ)) (w' : World σ) : Prop where
  fails : ∀ a ∈ attempts, ∃ failed, Fails a.before a.cause failed a.after ∧
    ∀ f ∈ failed.scheduler.fences, ∀ d ∈ f.oneShots, Scheduler.Between w.scheduler w'.scheduler d
  frame : w'.frame = w.frame
  fences : w'.scheduler.fences = w.scheduler.fences
  destroys : w'.shared.destroys = w.shared.destroys
  forgotten : ∀ asks turns m, (Moment.resting w').play? asks = some (turns, m) →
    ∀ f ∈ m.world.scheduler.fences, ∀ d ∈ f.oneShots ++ f.constants,
      ¬ Scheduler.Between w.scheduler w'.scheduler d
  completes : ∀ timing report u, (w'.runFrame timing).value = (.ok report, u) →
    ∃ declared p, Declares w' declared p
  direct : ∀ declared p, Declares w' declared p → ∃ v q,
    v = { w with systems := v.systems, shared.memory := v.shared.memory } ∧
      Declares v declared q ∧ q.shared.memory = p.shared.memory
  resumes : ∀ declared p v q, Declares w' declared p →
    v = { w with systems := v.systems, shared.memory := v.shared.memory } → Declares v declared q →
      q.shared.memory = p.shared.memory → Resumes w' p v q

/-! ### One frame -/

theorem exists_failing {systems : List (System σ)} {culprit : String} {cause : WorldError}
    (failed : (declare systems w).value = (.error (culprit, cause), w')) :
    ∃ before system rest u, systems = before ++ system :: rest ∧ culprit = system.name ∧
      (declare before w).value = (.ok (), u) ∧
        (system.declare.run performDeclaration u).value = (.error cause, w') := by
  induction systems generalizing w with
  | nil => cases failed
  | cons system rest ih =>
    simp only [declare, Logged.value_bind] at failed
    rcases outcome : (system.declare.run performDeclaration w).value with ⟨cause' | ok, after⟩
    · rw [outcome] at failed
      cases failed
      exact ⟨[], system, rest, w, rfl, rfl, rfl, outcome⟩
    · rw [outcome] at failed
      obtain ⟨before, other, left, u, rfl, name, declared, answered⟩ := ih failed
      refine ⟨system :: before, other, left, u, rfl, name, ?_, answered⟩
      simp only [declare, Logged.value_bind, outcome, declared]

/-- A frame begins with an attempt. -/
theorem exists_attempt (settled : Settled (.resting w)) : ∃ report d rebuilt,
    (Moment.resting w).serve? .attempt = some (report, .declaring d) ∧
      ∀ timing, (w.runFrame timing).value = (d.playFrame timing report rebuilt).value := by
  obtain ⟨report, w₁, scheduler, committed, opened, same⟩ := runFrame_eq settled
  exact ⟨report, _, _, serve?_eq_some_iff.mpr (.attempted committed opened), same⟩

/-- Only a system that fails to declare makes a frame answer an error. -/
theorem fails_of_runFrame {timing : Timing} {cause : WorldError} (started : Started w₀)
    (reached : Reaches w₀ past (.resting w))
    (abandoned : (w.runFrame timing).value = (.error (.error cause), w')) :
    ∃ failed, Fails w cause failed w' := by
  obtain ⟨report, d, rebuilt, attempted, ran⟩ :=
    exists_attempt (settled_of_reaches started reached)
  have systems := systems_of_attempt attempted
  obtain ⟨what, step⟩ := (served_of_serve? attempted).step
  have reached₁ := reached.step step
  rw [ran] at abandoned
  cases played_of_playFrame started.settled reached₁ abandoned with
  | @abandoned culprit cause' e failed =>
    obtain ⟨before, system, rest, u, split, rfl, declared, answered⟩ := exists_failing failed
    exact ⟨e, .intro attempted (systems ▸ split) declared answered
      (serve?_eq_some_iff.mpr (.abandoned failed))⟩

/-- In a frame that is completed every system declares. -/
theorem declares_of_runFrame {timing : Timing} {report : FrameReport} (settled : Settled (.resting w))
    (completed : (w.runFrame timing).value = (.ok report, w')) :
    ∃ declared p, Declares w declared p := by
  obtain ⟨commit, d, rebuilt, attempted, ran⟩ := exists_attempt settled
  obtain ⟨what, step⟩ := (served_of_serve? attempted).step
  rw [ran] at completed
  cases played_of_playFrame settled (.step .start step) completed with
  | completed declared begins =>
    exact ⟨_, _, .intro attempted (serve?_eq_some_iff.mpr (.declared declared begins))⟩

/-- What frames that answer errors leave as it was. -/
structure Rewound (w w' : World σ) : Prop where
  prepared : w'.prepared = w.prepared.staffed w'.systems w'.scheduler w'.shared.memory
  scheduler : w'.scheduler =
    { w.scheduler with phase := w'.scheduler.phase, nextSequence := w'.scheduler.nextSequence }
  numbers : w.scheduler.nextSequence ≤ w'.scheduler.nextSequence
  destroys : w'.shared.destroys = w.shared.destroys

theorem Rewound.refl (w : World σ) : Rewound w w where
  prepared := prepared_staffed (w := w)
  scheduler := rfl
  numbers := Nat.le_refl _
  destroys := rfl

theorem Rewound.trans {w'' : World σ} (first : Rewound w w') (second : Rewound w' w'') :
    Rewound w w'' where
  prepared := by
    rw [second.prepared, first.prepared]
    rfl
  scheduler := by
    rw [second.scheduler, first.scheduler]
  numbers := Nat.le_trans first.numbers second.numbers
  destroys := second.destroys.trans first.destroys

/-- What was declared in the frame alone is gone, and its number is not given again. -/
theorem Fails.rewound {cause : WorldError} {failed : World σ} (fails : Fails w cause failed w')
    (settled : Settled (.resting w)) (orderly : Orderly (.resting w))
    (kept : KeepsConstants w.heardNext) :
    Rewound w w' ∧ ∀ f ∈ failed.scheduler.fences, ∀ d ∈ f.oneShots,
      Scheduler.Between w.scheduler w'.scheduler d := by
  cases fails with
  | @intro report d u before rest system attempted systems declared answered abandoned =>
    obtain ⟨memory, same⟩ := eq_of_attempt attempted
    have heard : w.heardNext = heardDeclaring w.systems d := by simp only [heardNext, attempted]
    have ran : (declare w.systems d).value = (.error (system.name, cause), failed) := by
      simp only [systems, declare_append, declared, declare, Logged.value_bind, answered,
        Logged.value_pure]
    have opened := scheduler_of_attempt attempted
    have numbers : d.scheduler.nextSequence = w.scheduler.nextSequence := by rw [opened]
    have idle : ∀ f ∈ d.scheduler.fences, f.oneShots = [] := by
      rw [opened]
      exact fun f member => orderly.spent f member List.not_mem_nil
    have later := later_declare w.systems d
    have dropped := discardOneShots_declare (heard ▸ kept)
    rw [ran] at later dropped
    rw [Scheduler.discardOneShots_of_spent idle, opened] at dropped
    obtain ⟨memory', scheduler, untouched, -⟩ := eq_of_declare ran
    have after : w' = w.prepared.staffed w.systems
        { w.scheduler with
          phase := .acceptingUpdates
          nextSequence := failed.scheduler.nextSequence } memory' := by
      cases served_of_serve? abandoned with
      | @abandoned _ e _ _ ran' =>
        rw [systems_of_attempt attempted, ran] at ran'
        cases ran'
        change { failed with scheduler := failed.scheduler.discardOneShots.2 } = _
        rw [dropped]
        subst untouched same
        rfl
    subst after
    refine ⟨⟨?_, rfl, numbers ▸ later.numbers, destroys_prepared settled.sound⟩, ?_⟩
    · have again : w.prepared.prepared = w.prepared := prepared_prepared settled.sound
      rw [prepared_staffed, again]
      rfl
    · intro f member x held
      obtain ⟨g, there, -, oneShots, -⟩ := later.fences f member
      rcases oneShots x held with old | between
      · rw [idle g there] at old
        cases old
      · exact ⟨numbers ▸ between.1, between.2⟩

/-! ### Frames that follow -/

/-- What is held later was held then, or its number is a later one. -/
theorem later_of_play? {asks : List (Ask σ)} {turns : List (Turn σ)} {m n : Moment σ}
    (settled : Settled m) (played : m.play? asks = some (turns, n)) :
    Scheduler.Later m.world.scheduler n.world.scheduler := by
  induction asks generalizing m turns with
  | nil =>
    cases played
    exact .refl _
  | cons ask rest ih =>
    obtain ⟨answer, next, later, served, rest_played, rfl⟩ := play?_cons_iff.mp played
    obtain ⟨what, step⟩ := (served_of_serve? served).step
    exact (step.rescheduled settled.sound).later.trans (ih (settled.step step) rest_played)

/-- The scheduler in which a frame begins its pass. -/
theorem eq_of_declares {declared : List (Request σ)} (declares : Declares w declared p) :
    p = w.prepared.staffed w.systems
      (declared.foldl Request.enter { w.scheduler with phase := .acceptingUpdates }).beginPass.2
      p.shared.memory := by
  cases declares with
  | @intro report d p left attempted declared =>
    obtain ⟨memory, same⟩ := eq_of_attempt attempted
    cases served_of_serve? declared with
    | @declared _ e frame begun done begins =>
      have entered := scheduler_declare d.systems d
      obtain ⟨memory', scheduler, untouched, -⟩ := eq_of_declare done
      rw [done] at entered
      have begun_eq : begun = e.scheduler.beginPass.2 := (congrArg Prod.snd begins).symm
      rw [systems_of_attempt attempted, scheduler_of_attempt attempted] at entered
      rw [begun_eq, entered]
      subst untouched same
      rfl

/-- Where the same is declared and remembered, the pass begins alike. -/
theorem Rewound.postpone_eq {declared : List (Request σ)} (rewound : Rewound w w')
    (numbered : w.scheduler.Numbered) (declares : Declares w' declared p)
    (direct : v = { w with systems := v.systems, shared.memory := v.shared.memory })
    (declares' : Declares v declared q) (memory : q.shared.memory = p.shared.memory) :
    p = q.postpone w'.systems w.scheduler.nextSequence
      (w'.scheduler.nextSequence - w.scheduler.nextSequence) := by
  have scheduler : v.scheduler = w.scheduler := (congrArg World.scheduler direct).trans rfl
  have prepared : v.prepared = w.prepared.staffed v.systems w.scheduler v.shared.memory :=
    (congrArg World.prepared direct).trans (prepared_staffed (w := w))
  have opened : ({ w'.scheduler with phase := .acceptingUpdates } : Scheduler σ) =
      { w.scheduler with
        phase := .acceptingUpdates
        nextSequence := w'.scheduler.nextSequence } :=
    (congrArg (fun s : Scheduler σ => { s with phase := .acceptingUpdates }) rewound.scheduler).trans rfl
  have begun := eq_of_declares declares
  have begun' := eq_of_declares declares'
  rw [rewound.prepared, opened, Scheduler.begun_postpone numbered rewound.numbers, ← memory] at begun
  rw [prepared, scheduler] at begun'
  rw [begun]
  exact (congrArg (World.postpone w'.systems w.scheduler.nextSequence
    (w'.scheduler.nextSequence - w.scheduler.nextSequence)) begun').symm

theorem world_postpone {systems : List (System σ)} {since delay : Nat} (m : Moment σ) :
    (m.postpone systems since delay).world = m.world.postpone systems since delay := by
  cases m <;> rfl

/-- A frame goes on alike where its pass begins alike. -/
theorem resumes_of_postpone {declared : List (Request σ)} {systems : List (System σ)}
    {since delay : Nat} (declares : Declares w declared (q.postpone systems since delay))
    (declares' : Declares v declared q) : Resumes w (q.postpone systems since delay) v q where
  begins := matches_postpone q
  asked := fun asks inPass => by
    have order : (q.postpone systems since delay).fenceOrder = q.fenceOrder :=
      Scheduler.order_postpone
    rw [order]
    change Option.Rel _ (((Moment.passing q q.fenceOrder).postpone systems since delay).play? asks) _
    rw [play?_postpone inPass]
    rcases (Moment.passing q q.fenceOrder).play? asks with _ | ⟨turns, last⟩
    · exact .none
    · refine .some ⟨?_, ?_⟩
      · simp only [List.map_map]
        rfl
      · rw [world_postpone]
        exact matches_postpone last.world
  frames := fun timing => by
    obtain ⟨commit, rebuilt, ran⟩ := runFrame_of_declares declares
    obtain ⟨commit', rebuilt', ran'⟩ := runFrame_of_declares declares'
    rw [ran, ran']
    exact sameFrame_of_postpone timing commit commit' rebuilt rebuilt'

/-! ### The same frame without them -/

/-- Declares what it is told to, and remembers what it is told to. -/
def repeating (requests : List (Request σ)) (memory : σ) : System σ where
  name := "repeating"
  setUp := return .ok ()
  declare := requests.foldr (fun request rest => .call request fun _ => rest)
    (.call (.exchange fun _ => memory) fun _ => .done (.ok ()))

theorem run_repeating (requests : List (Request σ)) (memory : σ) (w : World σ) :
    ∃ u, ((repeating requests memory).declare.run performDeclaration w).value = (.ok (), u) ∧
      u.shared.memory = memory := by
  induction requests generalizing w with
  | nil => exact ⟨_, rfl, rfl⟩
  | cons request rest ih => exact ih (performDeclaration request w).value.2

theorem heard_repeating (requests : List (Request σ)) (memory : σ) (w : World σ) :
    ((repeating requests memory).declare.heard performDeclaration w).map Heard.command =
      requests ++ [.exchange fun _ => memory] := by
  induction requests generalizing w with
  | nil => rfl
  | cons request rest ih =>
    exact congrArg (request :: ·) (ih (performDeclaration request w).value.2)

theorem declarations_repeating {requests : List (Request σ)} (memory : σ) (w : World σ)
    (all : ∀ request ∈ requests, request.declares = true) :
    declarations [repeating requests memory] w = requests := by
  obtain ⟨u, ran, -⟩ := run_repeating requests memory w
  have heard : (heardDeclaring [repeating requests memory] w).map Heard.command =
      requests ++ [.exchange fun _ => memory] := by
    simp only [heardDeclaring, ran, List.append_nil]
    exact heard_repeating requests memory w
  rw [declarations, heard, List.filter_append, List.filter_eq_self.mpr all]
  exact List.append_nil requests

theorem Declares.declares {declared : List (Request σ)} (declares : Declares w declared p) :
    ∀ request ∈ declared, request.declares = true := by
  cases declares with
  | intro => exact fun request member => (List.mem_filter.mp member).2

/-- Whatever is declared and remembered may be declared and remembered in the next frame. -/
theorem exists_declares {requests : List (Request σ)} (settled : Settled (.resting w)) (memory : σ)
    (all : ∀ request ∈ requests, request.declares = true) : ∃ v q,
    v = { w with systems := v.systems, shared.memory := v.shared.memory } ∧
      Declares v requests q ∧ q.shared.memory = memory := by
  let v : World σ := { w with systems := [repeating requests memory] }
  have settled' : Settled (.resting v) := ⟨settled.sound, settled.planned, settled.placed⟩
  obtain ⟨report, d, -, attempted, -⟩ := exists_attempt settled'
  have systems : d.systems = [repeating requests memory] := systems_of_attempt attempted
  obtain ⟨u, ran, remembered⟩ := run_repeating requests memory d
  have done : (declare d.systems d).value = (.ok (), u) := by
    simp only [systems, declare, Logged.value_bind, ran, Logged.value_pure]
  obtain ⟨what, step⟩ := (served_of_serve? attempted).step
  obtain ⟨frame, begun, begins⟩ := exists_beginPass (settled'.step step) done
  have declares : Declares v (declarations [repeating requests memory] d) _ :=
    .intro attempted (serve?_eq_some_iff.mpr (.declared done begins))
  rw [declarations_repeating memory d all] at declares
  exact ⟨v, _, rfl, declares, remembered⟩

/-! ### Any number of frames -/

theorem Stutters.rewound {config : WorldConfig} {types : List ComponentType}
    {systems : List (System σ)} {memory : σ} {attempts : List (Attempt σ)}
    (built : (World.new config types systems memory).value = .ok w₀)
    (reached : Reaches w₀ past (.resting w)) (stutters : Stutters w attempts w') :
    (∃ past, Reaches w₀ past (.resting w')) ∧ Rewound w w' ∧
      ∀ a ∈ attempts, ∃ failed, Fails a.before a.cause failed a.after ∧
        ∀ f ∈ failed.scheduler.fences, ∀ d ∈ f.oneShots,
          Scheduler.Between w.scheduler w'.scheduler d := by
  have started := started_of_new built
  induction stutters generalizing past with
  | none w => exact ⟨⟨past, reached⟩, .refl w, fun a member => absurd member List.not_mem_nil⟩
  | @more w w₁ w' attempts timing cause abandoned kept later ih =>
    obtain ⟨failed, fails⟩ := fails_of_runFrame started reached abandoned
    obtain ⟨rewound, between⟩ := fails.rewound (settled_of_reaches started reached)
      (orderly_of_reaches built reached) kept
    rcases reaches_of_runFrame started.settled reached abandoned with ⟨fault, same⟩ | ⟨more, reached₁, -⟩
    · cases same
    · obtain ⟨again, rewound', others⟩ := ih reached₁
      refine ⟨again, rewound.trans rewound', fun a member => ?_⟩
      rcases List.mem_cons.mp member with rfl | earlier
      · refine ⟨failed, fails, fun f inside d held => ?_⟩
        obtain ⟨from_, until_⟩ := between f inside d held
        exact ⟨from_, Nat.lt_of_lt_of_le until_ rewound'.numbers⟩
      · obtain ⟨failed', fails', between'⟩ := others a earlier
        refine ⟨failed', fails', fun f inside d held => ?_⟩
        obtain ⟨from_, until_⟩ := between' f inside d held
        exact ⟨Nat.le_trans rewound.numbers from_, until_⟩

/-- Frames that answer errors leave a world in which the next frame goes as it would have gone without
them. -/
theorem stutter_of_reaches {config : WorldConfig} {types : List ComponentType}
    {systems : List (System σ)} {memory : σ} {attempts : List (Attempt σ)}
    (built : (World.new config types systems memory).value = .ok w₀)
    (reached : Reaches w₀ past (.resting w)) (stutters : Stutters w attempts w') :
    Stutter w attempts w' := by
  have started := started_of_new built
  have settled := settled_of_reaches started reached
  have numbered : w.scheduler.Numbered := (orderly_of_reaches built reached).numbered
  obtain ⟨⟨past', reached'⟩, rewound, fails⟩ := stutters.rewound built reached
  have fences : w'.scheduler.fences = w.scheduler.fences :=
    (congrArg Scheduler.fences rewound.scheduler).trans rfl
  exact
    { fails
      frame := (congrArg Scheduler.frame rewound.scheduler).trans rfl
      fences
      destroys := rewound.destroys
      forgotten := fun asks turns m played f member d held between => by
        have later := later_of_play? (settled_of_reaches started reached') played
        rcases later.held member held with ⟨g, there, old⟩ | new
        · rw [Moment.world, fences] at there
          exact Nat.lt_irrefl _ (Nat.lt_of_le_of_lt between.1 (numbered g there d old))
        · exact Nat.lt_irrefl _ (Nat.lt_of_le_of_lt new.1 between.2)
      completes := fun _ _ _ completed =>
        declares_of_runFrame (settled_of_reaches started reached') completed
      direct := fun declared p declares =>
        exists_declares settled p.shared.memory declares.declares
      resumes := fun declared p v q declares direct declares' memory => by
        have same := rewound.postpone_eq numbered declares direct declares' memory
        rw [same] at declares ⊢
        exact resumes_of_postpone declares declares' }

/-! ### Two frames that are abandoned -/

/-- Declares an update in each of three attempts at a frame; only the third is not abandoned. -/
def failsTwice : System Nat where
  name := "failsTwice"
  setUp := return .ok ()
  declare := do
    let attempts ← Declaration.exchange (· + 1)
    let declared ← Declaration.schedule replaceSecond
    return if attempts < 2 then .error (.unknownDefinition ⟨0⟩) else declared

/-- Asks to start or to stop a constant update. -/
def lasting : Request σ → Bool
  | .start _ | .stop _ => true
  | _ => false

theorem keepsConstants_of_lasting {heard : List (Heard (Declaration.interface σ))}
    (fleeting : (heard.any fun h => lasting h.command) = false) : KeepsConstants heard := by
  have others := List.any_eq_false.mp fleeting
  exact ⟨fun update given => others _ given rfl, fun name given => others _ given rfl⟩

/-- The updates of the first two attempts are gone, with their numbers; the third changes the lives of
three entities as it would have done without them. -/
theorem stutter_of_failsTwice : ∃ w₀ past w w₁ w' attempts declared p v q,
    (World.new .singleThreaded ageNameTypes [failsTwice] 0).value = .ok w₀ ∧
      Reaches w₀ past (.resting w) ∧ attempts = [⟨w, .unknownDefinition ⟨0⟩, w₁⟩,
        ⟨w₁, .unknownDefinition ⟨0⟩, w'⟩] ∧
      Stutters w attempts w' ∧ w'.scheduler.nextSequence = 2 ∧
      (w'.runFrame .zero).value.1.map FrameReport.lifecycle = .ok ⟨1, 1, 1⟩ ∧
      Declares w' declared p ∧ Stutter w attempts w' ∧ Resumes w' p v q := by
  have ran : ((session? .singleThreaded ageNameTypes [failsTwice] 0
      [.createWith [⟨1⟩], .createWith [⟨1⟩], .destroy (.ofRaw 1)]).any fun w =>
        let first := (w.runFrame .zero).value
        let second := (first.2.runFrame .zero).value
        let third := (second.2.runFrame .zero).value
        first.1 = .error (.error (.unknownDefinition ⟨0⟩)) ∧
          second.1 = .error (.error (.unknownDefinition ⟨0⟩)) ∧
            third.1.map FrameReport.lifecycle = .ok ⟨1, 1, 1⟩ ∧
              second.2.scheduler.nextSequence = 2 ∧
                (w.heardNext.any fun h => lasting h.command) = false ∧
                  (first.2.heardNext.any fun h => lasting h.command) = false) = true := by
    decide +kernel
  obtain ⟨w, made, facts⟩ := (Option.any_eq_true _ _).mp ran
  obtain ⟨failed, failed', counted, numbers, kept, kept'⟩ := of_decide_eq_true facts
  obtain ⟨w₀, past, built, reached⟩ := reaches_of_session? made
  have stutters := Stutters.more (Prod.ext failed rfl) (keepsConstants_of_lasting kept)
    (.more (Prod.ext failed' rfl) (keepsConstants_of_lasting kept') (.none _))
  have stutter := stutter_of_reaches built reached stutters
  obtain ⟨report, completed⟩ : ∃ report, (((w.runFrame .zero).value.2.runFrame .zero).value.2.runFrame
      .zero).value.1 = .ok report := by
    cases outcome : (((w.runFrame .zero).value.2.runFrame .zero).value.2.runFrame .zero).value.1 with
    | ok report => exact ⟨report, rfl⟩
    | error cause =>
      rw [outcome] at counted
      cases counted
  obtain ⟨declared, p, declares⟩ := stutter.completes .zero report _ (Prod.ext completed rfl)
  obtain ⟨v, q, direct, declares', memory⟩ := stutter.direct declared p declares
  exact ⟨w₀, past, w, _, _, _, declared, p, v, q, built, reached, rfl, stutters, numbers, counted,
    declares, stutter, stutter.resumes declared p v q declares direct declares' memory⟩

end EntityWorld.World
