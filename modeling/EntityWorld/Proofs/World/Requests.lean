import EntityWorld.Proofs.World.Lifetimes
import EntityWorld.Proofs.World.Overwrites
import Mathlib.Data.List.DropRight

/-!
# Destroy requests

A request waits in a queue from the step that makes it to the next boundary, which applies it by raw
id alone. In the meantime frames may be abandoned and commits may take entities away, so what counts
is whether the entity that was asked for still has its raw id then. It has, unless it was destroyed
already and the request was made between frames: then the next commit takes it away, and the request
is for whoever gets the raw id. Main statement: `requests_of_reaches`.
-/
namespace EntityWorld

/-- The boundary of a fence, where requests are applied. -/
def Happening.isBoundary : Happening → Bool
  | .bounded _ => true
  | _ => false

namespace World

open Shared

variable {σ : Type} {w w' w₀ : World σ} {m m' : Moment σ} {what : Happening} {past : List (Passage σ)}
  {raw : Nat}

/-- The requests that a step adds to the queue. -/
def Passage.asks (p : Passage σ) : List EntityId :=
  p.after.world.shared.destroys.drop p.before.world.shared.destroys.length

/-! ### What changes the queue -/

theorem overwritable_destroys (requests : List EntityId) :
    Overwritable fun s : Shared σ => s.destroys = requests where
  stored := fun _ _ _ same => same
  waiting := by
    intro s raw change same
    unfold modifyDeferred
    split
    · exact same
    · exact same

/-- Only public calls and updates ask, and only boundaries take requests off the queue. -/
inductive Queued (s t : Shared σ) : Happening → Prop where
  | asked {what : Happening} (asking : what = .called ∨ ∃ fence, what = .executed fence)
      (added : s.destroys <+: t.destroys) : Queued s t what
  | kept {what : Happening} (quiet : what.isBoundary = false) (same : t.destroys = s.destroys) :
      Queued s t what
  | taken (fence : FenceId) (empty : t.destroys = []) : Queued s t (.bounded fence)

theorem Step.queued (step : Step m what m') (sound : m.world.shared.Sound) :
    Queued m.world.shared m'.world.shared what := by
  cases step with
  | created w d =>
    obtain ⟨store, allocator, same⟩ := w.shared.create_eq d
    exact .kept rfl (by simp only [Moment.world, create, same])
  | createdWith w types =>
    obtain ⟨store, allocator, deferred, same⟩ := w.shared.createWith_eq types
    exact .kept rfl (by simp only [Moment.world, World.createWith, same])
  | destroyed w id => exact .kept rfl ((overwritable_destroys _).destroy id rfl)
  | prioritised w id p => exact .kept rfl ((overwritable_destroys _).setPriority id p rfl)
  | loaded w d state => exact .kept rfl rfl
  | accessed w program =>
    have added : w.shared.destroys <+: (program.run Access.perform w.shared).value.2.destroys :=
      Program.run_preserves (P := fun s : Shared σ => w.shared.destroys <+: s.destroys)
        (fun command _ s added => added.trans (s.destroys_perform command))
        (Program.only_true program) (List.prefix_refl _)
    exact .asked (.inl rfl) added
  | @attempted w w' report scheduler committed opened =>
    obtain ⟨t, rfl, same, -⟩ := committed_of_commit (w := w) sound committed
    obtain ⟨index, dirty, memory, refreshed, -⟩ :=
      refresh_eq (({ w with shared := t } : World σ).oweChanges report)
    rw [refreshed]
    exact .kept rfl same
  | @abandoned w w' culprit cause frame failed =>
    obtain ⟨memory, scheduler, rfl, -⟩ := eq_of_declare failed
    exact .kept rfl rfl
  | @declared w w' frame scheduler declared begun =>
    obtain ⟨memory, scheduler', rfl, -⟩ := eq_of_declare declared
    exact .kept rfl rfl
  | @executed w fence left shared ran =>
    have added : w.shared.destroys <+: shared.destroys :=
      ran.preserves (P := fun s => w.shared.destroys <+: s.destroys)
        (fun command s added => added.trans (s.destroys_perform command)) (fun _ _ added => added)
        (List.prefix_refl _)
    exact .asked (.inr ⟨fence, rfl⟩) added
  | @bounded w w' fence left life life' applied =>
    have empty := (overwritable_destroys []).applyBoundary (w := w) fence life rfl
    rw [applied] at empty
    exact .taken fence empty
  | finished w => exact .kept rfl rfl

/-- The steps since the last boundary. -/
def sinceBoundary (past : List (Passage σ)) : List (Passage σ) :=
  past.rtakeWhile fun p => !p.what.isBoundary

theorem sinceBoundary_concat (past : List (Passage σ)) (p : Passage σ) :
    sinceBoundary (past ++ [p]) =
      if p.what.isBoundary then [] else sinceBoundary past ++ [p] := by
  unfold sinceBoundary
  split
  next boundary => exact List.rtakeWhile_concat_neg _ _ _ (by simpa using boundary)
  next calm => exact List.rtakeWhile_concat_pos _ _ _ (by simpa using calm)

/-- The queue holds what has been asked for since the last boundary. -/
theorem queue_of_reaches (started : Started w₀) (reached : Reaches w₀ past m) :
    m.world.shared.destroys = (sinceBoundary past).flatMap Passage.asks := by
  induction reached with
  | start => exact started.empty.destroys
  | @step past m m' what reached step ih =>
    rw [sinceBoundary_concat]
    -- A step that is no boundary adds what it asks for at the end.
    have later (calm : what.isBoundary = false)
        (added : m.world.shared.destroys <+: m'.world.shared.destroys) :
        m'.world.shared.destroys =
          (sinceBoundary past ++ [(⟨m, what, m'⟩ : Passage σ)]).flatMap Passage.asks := by
      obtain ⟨new, whole⟩ := added
      rw [List.flatMap_append, ← ih, List.flatMap_singleton, Passage.asks, ← whole, List.drop_left]
    cases step.queued (settled_of_reaches started reached).sound with
    | asked asking added =>
      have calm : what.isBoundary = false := by rcases asking with rfl | ⟨fence, rfl⟩ <;> rfl
      rw [if_neg (by simp [calm])]
      exact later calm added
    | kept quiet same =>
      rw [if_neg (by simp [quiet])]
      exact later quiet (same ▸ List.prefix_refl _)
    | taken fence empty => simpa [Happening.isBoundary] using empty

/-! ### What becomes of the entity that was asked for -/

/-- A commit takes the entity with this raw id away. -/
def Passage.Takes (p : Passage σ) (raw : Nat) : Prop :=
  ∃ report, p.what = .attempted report ∧ raw ∈ report.removed.toList.map EntityId.raw

variable {p q : Passage σ} {early late : List (Passage σ)} {x : EntityId}

/-- Until a boundary, nobody is destroyed, nobody else is taken away, and who is on the way out stays on
the way out. -/
theorem Lawful.stays (lawful : Lawful q) (calm : q.what.isBoundary = false)
    (found : q.before.world.entity? raw = some x) (intact : x.life ≠ .destroyed) :
    ¬ q.Takes raw ∧ ∃ y, q.after.world.entity? raw = some y ∧ y.life ≠ .destroyed ∧
      (canUnregister x.life = false → canUnregister y.life = false) := by
  constructor
  · intro taken
    obtain ⟨report, attempt, member⟩ := taken
    obtain ⟨y, there, dead⟩ := ((lawful.removed report attempt).2 raw).mp member
    obtain rfl := Option.some.inj (found.symm.trans there)
    exact intact dead
  · cases after : q.after.world.entity? raw with
    | none => exact absurd ((lawful.gone raw x found).mp after).2 intact
    | some y =>
      refine ⟨y, rfl, ?_⟩
      have no_boundary (fence : FenceId) : q.what ≠ .bounded fence := by
        intro boundary
        rw [boundary] at calm
        cases calm
      have edge := lawful.edge raw x y found after
      generalize x.life = before, y.life = next at edge intact
      cases edge with
      | kept => exact ⟨intact, id⟩
      | promoted boundary => exact absurd boundary (no_boundary _)
      | unregistered => exact ⟨nofun, fun _ => rfl⟩
      | destroyed boundary => exact absurd boundary (no_boundary _)

theorem Passage.Edge.of_destroyed {life : LifeState} (edge : Passage.Edge q raw .destroyed life) :
    life = .destroyed := by
  cases edge with
  | kept => rfl
  | unregistered early => rcases early with early | early <;> cases early

/-- Who is destroyed is there until the next commit takes it away. -/
theorem Lawful.taken_or_destroyed (lawful : Lawful q)
    (found : q.before.world.entity? raw = some x) (dead : x.life = .destroyed) :
    q.Takes raw ∨ q.what.isAttempt = false ∧
      ∃ y, q.after.world.entity? raw = some y ∧ y.life = .destroyed := by
  cases attempt : q.what with
  | attempted report =>
    exact .inl ⟨report, attempt, ((lawful.removed report attempt).2 raw).mpr ⟨x, found, dead⟩⟩
  | _ =>
    right
    refine ⟨rfl, ?_⟩
    cases after : q.after.world.entity? raw with
    | none =>
      have attempted := ((lawful.gone raw x found).mp after).1
      rw [attempt] at attempted
      cases attempted
    | some y =>
      have edge := lawful.edge raw x y found after
      rw [dead] at edge
      exact ⟨y, rfl, edge.of_destroyed⟩

theorem Reaches.last (reached : Reaches w₀ (past ++ [p]) m) :
    Reaches w₀ past p.before ∧ Step p.before p.what p.after ∧ p.after = m := by
  generalize whole : past ++ [p] = all at reached
  cases reached with
  | start => exact absurd whole (by simp)
  | step reached step =>
    obtain ⟨rfl, same⟩ := List.append_inj' whole rfl
    cases same
    exact ⟨reached, step, rfl⟩

/-- What the steps after `p` keep holds before and after each of them. -/
theorem Reaches.since {K : Moment σ → Prop} (reached : Reaches w₀ (early ++ p :: late) m)
    (initial : K p.after)
    (kept : ∀ q ∈ late, Step q.before q.what q.after → K q.before → K q.after) :
    K m ∧ ∀ q ∈ late, Step q.before q.what q.after ∧ K q.before := by
  induction late using List.reverseRecOn generalizing m with
  | nil =>
    obtain ⟨-, -, rfl⟩ := reached.last
    exact ⟨initial, fun _ member => absurd member List.not_mem_nil⟩
  | append_singleton late q ih =>
    rw [← List.cons_append, ← List.append_assoc] at reached
    obtain ⟨before, step, rfl⟩ := reached.last
    obtain ⟨held, all⟩ := ih before fun r member => kept r (List.mem_append_left [q] member)
    refine ⟨kept q (by simp) step held, fun r member => ?_⟩
    rcases List.mem_append.mp member with earlier | last
    · exact all r earlier
    · rw [List.mem_singleton.mp last]
      exact ⟨step, held⟩

theorem Reaches.middle (reached : Reaches w₀ (early ++ p :: late) m) :
    Reaches w₀ (early ++ [p]) p.after := by
  induction late using List.reverseRecOn generalizing m with
  | nil =>
    obtain ⟨-, -, same⟩ := reached.last
    rwa [same]
  | append_singleton late q ih =>
    rw [← List.cons_append, ← List.append_assoc] at reached
    exact ih reached.last.1

theorem Step.rests {w : World σ} (step : Step (.resting w) what m')
    (calm : what.isAttempt = false) : ∃ w', m' = .resting w' := by
  cases step with
  | attempted => cases calm
  | _ => exact ⟨_, rfl⟩

theorem Step.resting_of_called (step : Step m .called m') : ∃ w', m' = .resting w' := by
  cases step <;> exact ⟨_, rfl⟩

theorem Step.isBoundary_of_leaving {w : World σ} {fence : FenceId} {left : List FenceId}
    (step : Step (.leaving w fence left) what m') : what.isBoundary = true := by
  cases step
  rfl

theorem Step.leaving_of_executed {fence : FenceId} (step : Step m (.executed fence) m') :
    ∃ w left, m' = .leaving w fence left := by
  cases step
  exact ⟨_, _, rfl⟩

/-- What has become at a boundary of the entity `x` that a request in step `p` was for. -/
structure Awaited (p : Passage σ) (late : List (Passage σ)) (x : EntityId) (w : World σ) : Prop where
  -- It was taken away, and its raw id may be someone else's, in this case only.
  taken : (∃ q ∈ late, q.Takes x.raw) ↔ p.what = .called ∧ x.life = .destroyed
  -- Else it is there, and if it was past being put on its way out it still is.
  there : ¬ (p.what = .called ∧ x.life = .destroyed) → ∃ y, w.entity? x.raw = some y ∧
    (canUnregister x.life = false → canUnregister y.life = false)

theorem awaited_of_reaches {fence : FenceId} {left : List FenceId} {id : EntityId}
    (started : Started w₀) (reached : Reaches w₀ (early ++ p :: late) (.leaving w fence left))
    (calm : ∀ q ∈ p :: late, q.what.isBoundary = false) (asked : id ∈ p.asks)
    (found : p.after.world.entity? x.raw = some x) : Awaited p late x w := by
  have lawful (q : Passage σ) (member : q ∈ late) : Lawful q :=
    (course_of_reaches started reached).lawful q (by simp [member])
  obtain ⟨before, step, -⟩ := reached.middle.last
  -- Only two kinds of steps ask for anything.
  have asking : p.what = .called ∨ ∃ fence, p.what = .executed fence := by
    have queued := step.queued (settled_of_reaches started before).sound
    have quiet := calm p List.mem_cons_self
    generalize p.what = what at queued quiet
    cases queued with
    | asked asking => exact asking
    | kept _ same => simp [Passage.asks, same] at asked
    | taken => cases quiet
  rcases asking with called | ⟨at_, executed⟩
  · by_cases dead : x.life = .destroyed
    · refine ⟨iff_of_true ?_ ⟨called, dead⟩, fun other => absurd ⟨called, dead⟩ other⟩
      -- If no commit takes it away, the world is at rest to the end.
      by_contra spared
      have resting := reached.since
        (K := fun m => (∃ w, m = .resting w) ∧ ∃ y, m.world.entity? x.raw = some y ∧
          y.life = .destroyed) ?_ fun q member stepped held => ?_
      · obtain ⟨⟨⟨w', same⟩, -⟩, -⟩ := resting
        cases same
      · rw [called] at step
        exact ⟨step.resting_of_called, x, found, dead⟩
      · obtain ⟨⟨v, same⟩, y, there, gone⟩ := held
        rcases (lawful q member).taken_or_destroyed there gone with taken | ⟨noAttempt, still⟩
        · exact absurd ⟨q, member, taken⟩ spared
        · rw [same] at stepped
          exact ⟨stepped.rests noAttempt, still⟩
    · have stays := reached.since
        (K := fun m => ∃ y, m.world.entity? x.raw = some y ∧ y.life ≠ .destroyed ∧
          (canUnregister x.life = false → canUnregister y.life = false)) 
          ⟨x, found, dead, fun passed => passed⟩
        fun q member _ held => ?_
      · obtain ⟨⟨y, there, -, late⟩, all⟩ := stays
        refine ⟨iff_of_false ?_ fun both => dead both.2, fun _ => ⟨y, there, late⟩⟩
        intro taken
        obtain ⟨q, member, taken⟩ := taken
        obtain ⟨-, z, there, intact, -⟩ := all q member
        exact ((lawful q member).stays (calm q (by simp [member])) there intact).1 taken
      · obtain ⟨y, there, intact, late⟩ := held
        obtain ⟨-, z, next, still, later⟩ :=
          (lawful q member).stays (calm q (by simp [member])) there intact
        exact ⟨z, next, still, fun passed => later (late passed)⟩
  · -- The boundary is the next step.
    rw [executed] at step
    obtain ⟨v, rest, same⟩ := step.leaving_of_executed
    have none (q : Passage σ) (member : q ∈ late) (stepped : Step q.before q.what q.after) :
        q.before ≠ p.after := by
      intro equal
      rw [equal, same] at stepped
      have boundary := stepped.isBoundary_of_leaving
      rw [calm q (by simp [member])] at boundary
      cases boundary
    obtain ⟨last, all⟩ := reached.since (K := fun m => m = p.after) rfl
      fun q member stepped held => absurd held (none q member stepped)
    refine ⟨iff_of_false ?_ fun both => ?_, fun _ => ⟨x, ?_, fun passed => passed⟩⟩
    · intro taken
      obtain ⟨q, member, -⟩ := taken
      exact none q member (all q member).1 (all q member).2
    · rw [executed] at both
      cases both.1
    · rw [← found, ← last]
      rfl

/-! ### What a request does when it is applied -/

/-- The entity with this raw id is not on its way out yet. -/
def Early (w : World σ) (raw : Nat) : Prop :=
  ∃ x, w.entity? raw = some x ∧ canUnregister x.life = true

private theorem spared {id x : EntityId} (other : raw ≠ id.raw ∨ ¬ w.Early id.raw)
    (found : w.shared.entity? raw = some x) : ¬ (raw = id.raw ∧ canUnregister x.life = true) := by
  intro both
  obtain ⟨rfl, able⟩ := both
  rcases other with other | late
  · exact other rfl
  · exact late ⟨x, found, able⟩

theorem entity?_destroy {id : EntityId} (sound : w.shared.Sound)
    (other : raw ≠ id.raw ∨ ¬ w.Early id.raw) :
    (w.destroy id).value.2.entity? raw = w.entity? raw := by
  obtain ⟨t, new, done, unregistered⟩ := destroy_spec (w := w) sound id
  rw [done]
  simp only [entity?, unregistered.relived.entity?]
  cases found : w.shared.entity? raw with
  | none => rfl
  | some x =>
    have spared := spared other found
    rw [← List.mem_singleton] at spared
    rw [Option.map_some, unregisterAll, if_neg spared, EntityId.withLife_life]

/-- At a boundary, whether or not one of the requests is there makes no difference to anyone but the
entity it is for, and to nobody if that one is on its way out already. -/
theorem entity?_applyBoundary {id : EntityId} {before after : List EntityId} {fence : FenceId}
    {life : LifecycleReport} (sound : w.shared.Sound)
    (requests : w.shared.destroys = before ++ id :: after) (other : raw ≠ id.raw ∨ ¬ w.Early id.raw) :
    (w.applyBoundary fence life).value.2.entity? raw =
      (({ w with shared.destroys := before ++ after }).applyBoundary fence life).value.2.entity?
        raw := by
  have sound' : ({ w.shared with destroys := before ++ after } : Shared σ).Sound :=
    (Relived.of_keeps (t := { w.shared with destroys := before ++ after }) sound
      (.refl sound.store) rfl rfl rfl).sound
  obtain ⟨_, u, _, done, bounded⟩ := applyBoundary_spec (w := w) sound fence life
  obtain ⟨_, v, _, done', bounded'⟩ :=
    applyBoundary_spec (w := { w with shared.destroys := before ++ after }) sound' fence life
  rw [done, done']
  simp only [entity?, bounded.relived.entity?, bounded'.relived.entity?]
  change (w.shared.entity? raw).map _ = (w.shared.entity? raw).map _
  cases found : w.shared.entity? raw with
  | none => rfl
  | some x =>
    have same : unregisterAll (w.shared.destroys.map EntityId.raw) raw x.life =
        unregisterAll ((before ++ after).map EntityId.raw) raw x.life := by
      unfold unregisterAll
      refine if_congr ?_ rfl rfl
      rw [requests, List.map_append, List.map_cons, List.map_append, List.mem_append, List.mem_cons,
        List.mem_append]
      have spared := spared other found
      tauto
    simp only [Option.map_some, boundaryLife, same]
    rfl

/-- What destroy requests come to. -/
structure Requests (past : List (Passage σ)) (m : Moment σ) : Prop where
  queue : m.world.shared.destroys = (sinceBoundary past).flatMap Passage.asks
  -- Wherever it stands in the queue, a request has come from a step that was made since the last
  -- boundary, and the entity it was for has been awaited.
  awaited : ∀ w fence left early p late id x, m = .leaving w fence left → past = early ++ p :: late →
    (∀ q ∈ p :: late, q.what.isBoundary = false) → id ∈ p.asks →
      p.after.world.entity? id.raw = some x → Awaited p late x w
  applied : ∀ w fence left before id after life raw, m = .leaving w fence left →
    w.shared.destroys = before ++ id :: after → raw ≠ id.raw ∨ ¬ w.Early id.raw →
      (w.applyBoundary fence life).value.2.entity? raw =
        (({ w with shared.destroys := before ++ after }).applyBoundary fence life).value.2.entity? raw
  direct : ∀ w id raw, m = .resting w → raw ≠ id.raw ∨ ¬ w.Early id.raw →
    (w.destroy id).value.2.entity? raw = w.entity? raw

theorem requests_of_reaches {config : WorldConfig} {types : List ComponentType}
    {systems : List (System σ)} {memory : σ}
    (built : (World.new config types systems memory).value = .ok w₀)
    (reached : Reaches w₀ past m) : Requests past m := by
  have started := started_of_new built
  have sound := (settled_of_reaches started reached).sound
  refine ⟨queue_of_reaches started reached, ?_, ?_, ?_⟩
  · intro w fence left early p late id x here split calm asked found
    subst here split
    obtain ⟨-, same⟩ := (settled_of_reaches started reached.middle).sound.entity?_eq_some_iff.mp found
    refine awaited_of_reaches started reached calm asked ?_
    rwa [same]
  · intro w fence left before id after life raw here requests other
    subst here
    exact entity?_applyBoundary sound requests other
  · intro w id raw here other
    subst here
    exact entity?_destroy sound other

/-- An entity is there while nothing is asked for it, an abandoned attempt commits it, and it has been
asked for: the request waits for the next attempt. -/
theorem requests_of_abandonedFrame : ∃ w₀ past w,
    (World.new .singleThreaded ageNameTypes [failsFirst] 0).value = .ok w₀ ∧
      Reaches w₀ past (.resting w) ∧
      w.shared.destroys = [.ofRaw 1] ∧ (w.entity? 1).map EntityId.life = some .register ∧
      Requests past (.resting w) := by
  have made : ((session? .singleThreaded ageNameTypes [failsFirst] 0
      [.createWith [⟨1⟩], .access (Access.destroy (.ofRaw 1)), .runFrame .zero]).any fun w =>
        w.shared.destroys = [.ofRaw 1] ∧ (w.entity? 1).map EntityId.life = some .register) = true := by
    decide +kernel
  obtain ⟨w, made, facts⟩ := Option.any_eq_true _ _ |>.mp made
  obtain ⟨asked, new⟩ := of_decide_eq_true facts
  obtain ⟨w₀, past, built, reached⟩ := reaches_of_session? made
  exact ⟨w₀, past, w, built, reached, asked, new, requests_of_reaches built reached⟩

/-- Creates an entity before the first boundary, in the second frame. -/
def createsBeforeBoundary : System Nat where
  name := "createsBeforeBoundary"
  setUp := return .ok ()
  declare := do
    match ← Declaration.exchange (· + 1) with
    | 1 => Declaration.schedule { replaceSecond with fence := .register }
    | _ => return .ok ()

/-- A world whose only entity is destroyed by the first frame. -/
def onlyDestroyed (more : List (Call Nat)) : Option (World Nat) :=
  session? .singleThreaded ageNameTypes [createsBeforeBoundary] 0
    ([.createWith [⟨1⟩], .destroy (.ofRaw 1), .runFrame .zero] ++ more)

def lifeOfFirst (w : World Nat) : Option LifeState := (w.entity? 1).map EntityId.life

/-- A request for a destroyed entity changes the life of the entity that gets its raw id. -/
theorem misapplied_of_onlyDestroyed :
    (onlyDestroyed []).map lifeOfFirst = some (some .destroyed) ∧
      (onlyDestroyed [.runFrame .zero]).map lifeOfFirst = some (some .register) ∧
      (onlyDestroyed [.access (Access.destroy (.ofRaw 1)), .runFrame .zero]).map lifeOfFirst =
        some (some .unregister) := by
  decide +kernel

end World

end EntityWorld
