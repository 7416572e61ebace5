import EntityWorld.Proofs.World.Chronicle
import EntityWorld.Proofs.World.Frames

/-!
# Lifetimes

The chronicle of a run is read off the steps that were made. Wherever steps lead it is timely, the
boundaries of a frame come when they are due, and no step makes of an entity's life what it should
not. Main statement: `lifecycle_of_reaches`.
-/
namespace EntityWorld

namespace Chronicle

/-- What a step adds, given the census after it. -/
def note (c : Chronicle) (what : Happening) (v : Census) : Chronicle :=
  let attempts := if what.isAttempt then c.attempts + 1 else c.attempts
  { attempts
    completed := if what = .finished then attempts else c.completed
    registered := if what = .bounded .register then attempts else c.registered
    unregistered := if what = .bounded .unregister then attempts else c.unregistered
    committed := fun raw => if v.current raw then (c.committed raw).or (some attempts) else none
    left := fun raw =>
      match v.life raw with
      | some .unregister | some .destroyed => (c.left raw).or (some (attempts + 1))
      | some .register | some .alive | none => none }

end Chronicle

/-- A chronicle that is timely after a step, and differs from the one before only in what the step is
the first to show, is what the step notes. -/
theorem Timely.note_eq {c c' : Chronicle} {v : Census} {what : Happening} (timely : Timely c' v)
    (attempts : (c.note what v).attempts = c'.attempts)
    (completed : (c.note what v).completed = c'.completed)
    (registered : (c.note what v).registered = c'.registered)
    (unregistered : (c.note what v).unregistered = c'.unregistered)
    (committed : ∀ raw k, c'.committed raw = some k → (c.committed raw).or (some c'.attempts) = some k)
    (left : ∀ raw k, c'.left raw = some k → (c.left raw).or (some (c'.attempts + 1)) = some k) :
    c.note what v = c' := by
  have committed_eq : (c.note what v).committed = c'.committed := by
    funext raw
    have current := timely.current raw
    change (if v.current raw then (c.committed raw).or (some (c.note what v).attempts) else none) = _
    rw [attempts]
    cases number : c'.committed raw with
    | none => simp_all
    | some k =>
      rw [if_pos (current.mpr ⟨k, number⟩)]
      exact committed raw k number
  have left_eq : (c.note what v).left = c'.left := by
    funext raw
    change (match v.life raw with
      | some .unregister | some .destroyed => (c.left raw).or (some ((c.note what v).attempts + 1))
      | some .register | some .alive | none => none) = _
    rw [attempts]
    cases number : c'.left raw with
    | none =>
      cases known : v.life raw with
      | none => rfl
      | some life =>
        have early := (timely.canUnregister_iff known).mpr number
        cases life with
        | register | alive => rfl
        | unregister | destroyed => cases early
    | some k =>
      obtain ⟨⟨life, known⟩, -⟩ := timely.left raw k number
      have state := timely.life_of_left known number
      rw [known]
      split at state <;> subst state <;> exact left raw k number
  exact Chronicle.ext attempts completed registered unregistered committed_eq left_eq

namespace World

open Shared

variable {σ : Type} {w w' w₀ : World σ} {m m' : Moment σ} {what : Happening} {past : List (Passage σ)}
  {c : Chronicle} {raw : Nat}

/-! ### The census of a world -/

/-- The entity is in a current row. -/
def isCurrent (w : World σ) (raw : Nat) : Bool :=
  w.shared.store.collections.any fun c => c.current.ids.any fun id => id.raw = raw

theorem isCurrent_iff : w.isCurrent raw = true ↔ w.shared.IsCurrent raw := by
  simp only [isCurrent, IsCurrent, Store.Current, Store.Holds, Array.any_eq_true', decide_eq_true_iff]
  constructor
  · rintro ⟨c, member, id, inside, same⟩
    obtain ⟨i, here⟩ := Array.mem_iff_getElem?.mp member
    exact ⟨id, ⟨⟨i⟩, c, here, inside⟩, same⟩
  · rintro ⟨id, ⟨a, c, here, inside⟩, same⟩
    exact ⟨c, Array.mem_of_getElem? here, id, inside, same⟩

theorem isCurrent_congr (same : ∀ raw, w'.shared.IsCurrent raw ↔ w.shared.IsCurrent raw) :
    w'.isCurrent = w.isCurrent :=
  funext fun raw => Bool.eq_iff_iff.mpr (by rw [isCurrent_iff, isCurrent_iff, same])

def census (w : World σ) : Census where
  life := fun raw => (w.entity? raw).map EntityId.life
  current := w.isCurrent
  registering := w.registering
  unregistering := w.unregistering
  nextUnregistering := w.nextUnregistering

theorem census_life {x : EntityId} (found : w.entity? raw = some x) :
    w.census.life raw = some x.life :=
  congrArg (Option.map EntityId.life) found

/-- The chronicle of the steps that were made. -/
def chronicle (past : List (Passage σ)) : Chronicle :=
  past.foldl (fun c p => c.note p.what p.after.world.census) .start

/-! ### The boundaries of a frame -/

/-- Which boundaries the attempt that is being made has passed: while fences run, those of the fences
that are not left; before that and afterwards, all or none. -/
def Punctual (c : Chronicle) : Moment σ → Prop
  | .resting _ => c.completed ≤ c.attempts ∧ c.registered = c.completed ∧ c.unregistered = c.completed
  | .declaring _ => c.completed < c.attempts ∧ c.registered = c.completed ∧ c.unregistered = c.completed
  | .passing _ left => c.completed < c.attempts ∧
      c.registered = (if .register ∈ left then c.completed else c.attempts) ∧
      c.unregistered = if .unregister ∈ left then c.completed else c.attempts
  | .leaving _ fence left => c.completed < c.attempts ∧
      c.registered = (if .register ∈ fence :: left then c.completed else c.attempts) ∧
      c.unregistered = if .unregister ∈ fence :: left then c.completed else c.attempts

theorem punctual_step (v : Census) (effect : Effect m what m') (placed : Placed m)
    (planned : Planned m.world.fenceOrder) (punctual : Punctual c m) : Punctual (c.note what v) m' := by
  cases effect with
  | grown | prioritised | destroyed => exact punctual
  | attempted => exact ⟨Nat.lt_succ_of_le punctual.1, punctual.2⟩
  | abandoned => exact ⟨Nat.le_of_lt punctual.1, punctual.2⟩
  | @declared w memory frame scheduler begun same begins =>
    -- Both fences are still to come.
    have planned : Planned begun.order := by
      rw [(Scheduler.beginPass_spec begins).1, same.order]
      exact planned
    refine ⟨punctual.1, ?_, ?_⟩
    · rw [if_pos planned.mem.1]
      exact punctual.2.1
    · rw [if_pos planned.mem.2]
      exact punctual.2.2
  | executed => exact punctual
  | @bounded w w' fence left new bounded =>
    obtain ⟨begun, registered, unregistered⟩ := punctual
    have suffix : fence :: left <:+ w.fenceOrder := placed.2
    refine ⟨begun, ?_, ?_⟩
    · by_cases here : fence = .register
      · subst here
        rw [if_neg (not_mem_of_suffix planned.register suffix)]
        rfl
      · simp only [List.mem_cons, Ne.symm here, false_or] at registered
        simpa [Chronicle.note, Happening.isAttempt, here] using registered
    · by_cases here : fence = .unregister
      · subst here
        rw [if_neg (not_mem_of_suffix planned.unregister suffix)]
        rfl
      · simp only [List.mem_cons, Ne.symm here, false_or] at unregistered
        simpa [Chronicle.note, Happening.isAttempt, here] using unregistered
  | finished w =>
    obtain ⟨-, registered, unregistered⟩ := punctual
    exact ⟨Nat.le_refl _, by simpa [Chronicle.note, Happening.isAttempt] using registered,
      by simpa [Chronicle.note, Happening.isAttempt] using unregistered⟩

/-! ### The chronicle stays timely -/

theorem timely_grow (sound : w.shared.Sound) (grown : Grows w.shared w'.shared)
    (registering : w'.registering = w.registering) (unregistering : w'.unregistering = w.unregistering)
    (nextUnregistering : w'.nextUnregistering = w.nextUnregistering) (timely : Timely c w.census) :
    Timely c w'.census := by
  refine timely.grow (fun raw life known => ?_) (fun raw life known => ?_)
    (isCurrent_congr fun raw => grown.isCurrent) registering unregistering nextUnregistering
  · obtain ⟨x, found, rfl⟩ := Option.map_eq_some_iff.mp known
    exact census_life (grown.entity?_of_some sound found)
  · obtain ⟨x, found, rfl⟩ := Option.map_eq_some_iff.mp known
    rcases grown.old_or_new sound found with old | ⟨unknown, new⟩
    · exact .inl (census_life old)
    · exact .inr ⟨Option.map_eq_none_iff.mpr unknown, new⟩

theorem timely_same (lives : w'.census.life = w.census.life) (current : w'.isCurrent = w.isCurrent)
    (registering : w'.registering = w.registering) (unregistering : w'.unregistering = w.unregistering)
    (nextUnregistering : w'.nextUnregistering = w.nextUnregistering) (timely : Timely c w.census) :
    Timely c w'.census :=
  timely.grow (fun raw life known => by rwa [lives])
    (fun raw life known => .inl (by rwa [← lives])) current
    registering unregistering nextUnregistering

theorem life_of_relived {change : Nat → LifeState → LifeState}
    (relived : Relived w.shared w'.shared change)
    (raw : Nat) : w'.census.life raw = (w.census.life raw).map (change raw) := by
  simp only [census, entity?, relived.entity?, Option.map_map]
  refine congrArg (Option.map · _) (funext fun x => ?_)
  simp

theorem life_of_rewritten {s t : Shared σ} {x : EntityId} {p : Priority}
    (found : s.entity? x.raw = some x)
    (rewritten : Rewritten s t x (x.withPriority p)) (raw : Nat) :
    (t.entity? raw).map EntityId.life = (s.entity? raw).map EntityId.life := by
  rw [rewritten.entity?]
  split
  next at_ =>
    subst at_
    rw [found]
    simp
  next => rfl

private theorem able_of_leaving {requests new : List Nat}
    (leaving : ∀ raw, raw ∈ new ↔
      raw ∈ requests ∧ ∃ x, w.shared.entity? raw = some x ∧ canUnregister x.life = true) :
    ∀ raw ∈ new, ∃ life, w.census.life raw = some life ∧ canUnregister life = true := by
  intro raw member
  obtain ⟨-, x, found, able⟩ := (leaving raw).mp member
  exact ⟨x.life, census_life found, able⟩

/-- The first part of every boundary, and a destroy request outside of frames. -/
theorem timely_depart {v : Census} {requests new : List Nat} (distinct : new.Nodup)
    (leaving : ∀ raw, raw ∈ new ↔
      raw ∈ requests ∧ ∃ x, w.shared.entity? raw = some x ∧ canUnregister x.life = true)
    (lives : ∀ raw, v.life raw = (w.census.life raw).map (unregisterAll requests raw))
    (current : v.current = w.isCurrent) (registering : v.registering = w.registering)
    (unregistering : v.unregistering = w.unregistering)
    (nextUnregistering : v.nextUnregistering = w.nextUnregistering ++ new)
    (timely : Timely c w.census) :
    Timely (c.depart new) v := by
  refine timely.depart distinct (able_of_leaving leaving) (fun raw => ?_) current registering
    unregistering nextUnregistering
  rw [lives]
  refine Option.map_congr fun life known => ?_
  obtain ⟨x, found, rfl⟩ := Option.map_eq_some_iff.mp known
  refine if_congr ?_ rfl rfl
  rw [leaving]
  constructor
  · rintro ⟨requested, able⟩
    exact ⟨requested, x, found, able⟩
  · rintro ⟨requested, y, there, able⟩
    obtain rfl := Option.some.inj (found.symm.trans there)
    exact ⟨requested, able⟩

theorem life_of_committed {s t : Shared σ} {report : CommitReport} (committed : Committed s t report)
    (raw : Nat) : (t.entity? raw).map EntityId.life =
      ((s.entity? raw).map EntityId.life).filter fun life => life ≠ .destroyed := by
  rw [committed.entity?, Option.filter_map]
  rfl

theorem census_commits {t u : Shared σ} {report : CommitReport} (scheduler : Scheduler σ)
    (committed : Committed w.shared t report) (refreshed : Relived t u fun _ life => life) :
    w.census.Commits { oweChanges w report with shared := u, scheduler }.census
      ((report.migrated.toList.filter fun id => id.life = .register).map EntityId.raw) := by
  have lives (raw : Nat) : (u.entity? raw).map EntityId.life = (t.entity? raw).map EntityId.life := by
    rw [refreshed.entity?]
    simp [EntityId.withLife_life]
  refine ⟨fun raw => (lives raw).trans (life_of_committed committed raw), fun raw => ?_,
    committed.distinct.sublist (List.filter_sublist.map _), fun raw => ?_, rfl, rfl, rfl⟩
  · change isCurrent _ raw = true ↔ ∃ life, (u.entity? raw).map EntityId.life = some life
    rw [isCurrent_iff, refreshed.current, committed.current, lives]
    cases t.entity? raw <;> simp
  · change _ ↔ (u.entity? raw).map EntityId.life = some .register ∧ ¬ w.isCurrent raw = true
    rw [isCurrent_iff, lives, List.mem_map, Option.map_eq_some_iff]
    simp only [List.mem_filter, committed.migrated, decide_eq_true_iff]
    constructor
    · rintro ⟨x, ⟨⟨found, notCurrent⟩, new⟩, rfl⟩
      exact ⟨⟨x, found, new⟩, notCurrent⟩
    · rintro ⟨⟨x, found, new⟩, notCurrent⟩
      obtain ⟨-, rfl⟩ := committed.sound.entity?_eq_some_iff.mp found
      exact ⟨x, ⟨⟨found, notCurrent⟩, new⟩, rfl⟩

/-- What the boundary of a fence adds to a chronicle. -/
def boundaryChronicle (c : Chronicle) (fence : FenceId) (new : List Nat) : Chronicle :=
  { c.depart new with
    registered := if fence = .register then c.attempts else c.registered
    unregistered := if fence = .unregister then c.attempts else c.unregistered }

theorem timely_bounded {fence : FenceId} {new : List Nat} (sound : w.shared.Sound)
    (bounded : Bounded w w' fence new) (late : fence = .unregister → c.registered = c.attempts)
    (timely : Timely c w.census) : Timely (boundaryChronicle c fence new) w'.census := by
  -- The destroy requests come first, then the owed changes.
  have departed : Timely (c.depart new) { w.census with
      life := fun raw => (w.census.life raw).map
        (unregisterAll (w.shared.destroys.map EntityId.raw) raw)
      nextUnregistering := w.nextUnregistering ++ new } :=
    timely_depart bounded.distinct bounded.leaving (fun _ => rfl) rfl rfl rfl rfl timely
  have lives (raw : Nat) := life_of_relived bounded.relived raw
  have current := isCurrent_congr bounded.relived.current
  -- Whoever is owed a change is in a current row by now, so the boundary finds it.
  have stored {raw : Nat} (there : w.isCurrent raw = true) : w.shared.IsStored raw :=
    (isCurrent_iff.mp there).isStored sound.store
  unfold boundaryChronicle
  by_cases first : fence = .register
  · subst first
    have promotable : ∀ raw ∈ w.registering, w.shared.IsStored raw := by
      intro raw listed
      obtain ⟨k, committed, -⟩ := (timely.registering raw).mp listed
      exact stored ((timely.current raw).mpr ⟨k, committed⟩)
    simp only [if_true, if_neg (show FenceId.register ≠ .unregister by decide)]
    refine departed.promote (fun raw => ?_) current (by simp [census, bounded.registering])
      (by simp [census, bounded.unregistering, FenceId.register, FenceId.unregister])
      bounded.nextUnregistering
    rw [lives, Option.map_map]
    refine Option.map_congr fun life _ => ?_
    simp only [boundaryLife, if_true, advanceAll_of_stored promotable]
    rfl
  · by_cases last : fence = .unregister
    · subst last
      have destructible : ∀ raw ∈ w.unregistering, w.shared.IsStored raw := by
        intro raw listed
        obtain ⟨k, left, -, bound⟩ := (timely.unregistering raw).mp listed
        exact stored ((timely.left raw k left).2.2 bound)
      simp only [if_neg first, if_true]
      refine departed.destroy (late rfl) (fun raw => ?_) current
        (by simp [census, bounded.registering, first]) (by simp [census, bounded.unregistering])
        bounded.nextUnregistering
      rw [lives, Option.map_map]
      refine Option.map_congr fun life _ => ?_
      simp only [boundaryLife, if_neg first, if_true, advanceAll_of_stored destructible]
      rfl
    · have only (raw : Nat) :
          w.boundaryLife fence raw = unregisterAll (w.shared.destroys.map EntityId.raw) raw := by
        funext life
        simp only [boundaryLife, if_neg first, if_neg last]
      simp only [if_neg first, if_neg last]
      refine departed.grow (fun raw life known => ?_) (fun raw life known => .inl ?_) current
        (by simp [census, bounded.registering, first]) (by simp [census, bounded.unregistering, last])
        bounded.nextUnregistering
      · rw [lives, only]
        exact known
      · rwa [lives, only] at known

/-- What every step makes of a timely chronicle. -/
theorem timely_step (effect : Effect m what m') (sound : m.world.shared.Sound) (placed : Placed m)
    (planned : Planned m.world.fenceOrder) (punctual : Punctual c m)
    (timely : Timely c m.world.census) :
    Timely (c.note what m'.world.census) m'.world.census := by
  -- It is enough to know the chronicle after the step.
  have noted {c' : Chronicle} (after : Timely c' m'.world.census)
      (attempts : (c.note what m'.world.census).attempts = c'.attempts)
      (completed : (c.note what m'.world.census).completed = c'.completed)
      (registered : (c.note what m'.world.census).registered = c'.registered)
      (unregistered : (c.note what m'.world.census).unregistered = c'.unregistered)
      (committed : ∀ raw k, c'.committed raw = some k →
        (c.committed raw).or (some c'.attempts) = some k)
      (left : ∀ raw k, c'.left raw = some k → (c.left raw).or (some (c'.attempts + 1)) = some k) :
      Timely (c.note what m'.world.census) m'.world.census := by
    rw [after.note_eq attempts completed registered unregistered committed left]
    exact after
  have same (f : Nat → Option Nat) (n raw k : Nat) (number : f raw = some k) :
      (f raw).or (some n) = some k := by
    rw [number]
    rfl
  cases effect with
  | @grown w t grown =>
    exact noted (timely_grow sound grown rfl rfl rfl timely) rfl rfl rfl rfl (same _ _) (same _ _)
  | @prioritised w t x p found rewritten =>
    have after : Timely c (census { w with shared := t }) :=
      timely_same (funext (life_of_rewritten found rewritten)) (isCurrent_congr rewritten.current) rfl
        rfl rfl timely
    exact noted after rfl rfl rfl rfl (same _ _) (same _ _)
  | @destroyed w t raw new unregistered =>
    have after := timely_depart (v := census { w with
        shared := t, nextUnregistering := w.nextUnregistering ++ new })
      unregistered.distinct unregistered.leaving (life_of_relived unregistered.relived)
      (isCurrent_congr unregistered.relived.current) rfl rfl rfl timely
    exact noted after rfl rfl rfl rfl (same _ _)
      fun raw k left => timely.left_depart (able_of_leaving unregistered.leaving) left
  | @attempted w t u report scheduler committed refreshed opened =>
    -- A commit keeps the numbers of those that stay and forgets those of the others.
    refine noted (timely.commit (census_commits scheduler committed refreshed)) rfl rfl rfl rfl
      (fun raw k number => ?_) fun raw k number => ?_
    · simp only [Chronicle.commit] at number
      split at number
      · exact number
      · cases number
    · simp only [Chronicle.commit] at number
      split at number
      · exact same _ _ raw k number
      · cases number
  | @abandoned w memory scheduler plan | @declared w memory frame scheduler begun plan begins =>
    -- Systems that declare change the memory, and no entity is there.
    have after := timely_grow sound (.of_keeps sound (.refl sound.store) rfl rfl rfl) rfl rfl rfl timely
    exact noted after rfl rfl rfl rfl (same _ _) (same _ _)
  | @executed w t fence left scheduler grown plan =>
    exact noted (timely_grow sound grown rfl rfl rfl timely) rfl rfl rfl rfl (same _ _) (same _ _)
  | @bounded w w' fence left new bounded =>
    have late : fence = .unregister → c.registered = c.attempts := by
      -- Register is the first of all fences, so it is not among those that are left.
      rintro rfl
      obtain ⟨-, registered, -⟩ := punctual
      rw [if_neg (planned.register_not_mem placed.2)] at registered
      exact registered
    refine noted (timely_bounded sound bounded late timely) rfl rfl ?_ ?_ (same _ _)
      fun raw k left => timely.left_depart (able_of_leaving bounded.leaving) left
    · simp [Chronicle.note, boundaryChronicle, Happening.isAttempt]
    · simp [Chronicle.note, boundaryChronicle, Happening.isAttempt]
  | finished w =>
    have after : Timely { c with completed := c.attempts } w.census := { timely with }
    exact noted after rfl rfl rfl rfl (same _ _) (same _ _)

/-! ### What a step makes of a life -/

/-- A destroy request for the raw id is applied. -/
def Passage.Destroys (p : Passage σ) (raw : Nat) : Prop :=
  p.what = .destroyed raw ∨
    (∃ fence, p.what = .bounded fence) ∧ raw ∈ p.before.world.shared.destroys.map EntityId.raw

/-- How a step can change the life state of the entity with this raw id. -/
inductive Passage.Edge (p : Passage σ) (raw : Nat) : LifeState → LifeState → Prop where
  | kept (life : LifeState) : Edge p raw life life
  | promoted (at_ : p.what = .bounded .register) : Edge p raw .register .alive
  | unregistered {life : LifeState} (early : life = .register ∨ life = .alive)
      (requested : Destroys p raw) :
      Edge p raw life .unregister
  | destroyed (at_ : p.what = .bounded .unregister) : Edge p raw .unregister .destroyed

/-- What a step does to the entities there are. -/
structure Lawful (p : Passage σ) : Prop where
  edge : ∀ raw x y, p.before.world.entity? raw = some x → p.after.world.entity? raw = some y →
    Passage.Edge p raw x.life y.life
  -- A destroy request that is applied in time is never lost.
  unregistered : ∀ raw x, Passage.Destroys p raw → p.before.world.entity? raw = some x →
    x.life = .register ∨ x.life = .alive →
      ∃ y, p.after.world.entity? raw = some y ∧ y.life = .unregister
  born : ∀ raw y, p.before.world.entity? raw = none → p.after.world.entity? raw = some y →
    y.life = .register ∧ p.after.world.isCurrent raw = false
  -- Commits, and nothing else, take entities away: those that are destroyed.
  gone : ∀ raw x, p.before.world.entity? raw = some x →
    (p.after.world.entity? raw = none ↔ p.what.isAttempt = true ∧ x.life = .destroyed)
  -- Each of them is reported once.
  removed : ∀ report, p.what = .attempted report → (report.removed.toList.map EntityId.raw).Nodup ∧
    ∀ raw, raw ∈ report.removed.toList.map EntityId.raw ↔
      ∃ x, p.before.world.entity? raw = some x ∧ x.life = .destroyed
  -- A commit makes everyone current, and nothing else makes anyone current.
  current : ∀ raw, p.after.world.isCurrent raw = true ↔
    if p.what.isAttempt then ∃ y, p.after.world.entity? raw = some y
    else p.before.world.isCurrent raw = true

private theorem not_attempted {p : Passage σ} (calm : p.what.isAttempt = false)
    {report : CommitReport} :
    p.what ≠ .attempted report := by
  intro attempted
  rw [attempted] at calm
  cases calm

/-- Steps that only create entities. -/
theorem lawful_of_grows {p : Passage σ} (sound : p.before.world.shared.Sound)
    (grown : Grows p.before.world.shared p.after.world.shared) (calm : p.what.isAttempt = false)
    (spared : ∀ raw, ¬ Passage.Destroys p raw) : Lawful p where
  edge := by
    intro raw x y before after
    obtain rfl := Option.some.inj ((grown.entity?_of_some sound before).symm.trans after)
    exact .kept x.life
  unregistered := fun raw x requested => absurd requested (spared raw)
  born := by
    intro raw y before after
    rcases grown.old_or_new sound after with old | ⟨-, new⟩
    · cases before.symm.trans old
    · refine ⟨new, Bool.eq_false_iff.mpr fun current => ?_⟩
      obtain ⟨x, there⟩ := (grown.isCurrent.mp (isCurrent_iff.mp current)).known sound
      cases before.symm.trans there
  gone := by
    intro raw x before
    have after : p.after.world.entity? raw = some x := grown.entity?_of_some sound before
    simp [after, calm]
  removed := fun report attempted => absurd attempted (not_attempted calm)
  current := by
    intro raw
    rw [calm, if_neg Bool.false_ne_true, isCurrent_iff, isCurrent_iff]
    exact grown.isCurrent

/-- Steps that only change life states. -/
theorem lawful_of_change {p : Passage σ} (change : Nat → LifeState → LifeState)
    (lives : ∀ raw, p.after.world.census.life raw = (p.before.world.census.life raw).map (change raw))
    (current : p.after.world.isCurrent = p.before.world.isCurrent) (calm : p.what.isAttempt = false)
    (edge : ∀ raw x, p.before.world.entity? raw = some x →
      Passage.Edge p raw x.life (change raw x.life))
    (requested : ∀ raw x, Passage.Destroys p raw → p.before.world.entity? raw = some x →
      x.life = .register ∨ x.life = .alive → change raw x.life = .unregister) : Lawful p := by
  have after {raw : Nat} {x : EntityId} (before : p.before.world.entity? raw = some x) :
      ∃ y, p.after.world.entity? raw = some y ∧ y.life = change raw x.life := by
    have changed := lives raw
    simp only [census, before, Option.map_some] at changed
    exact Option.map_eq_some_iff.mp changed
  refine ⟨fun raw x y before there => ?_, fun raw x asked before early => ?_,
    fun raw y before there => ?_,
    fun raw x before => ?_, fun report attempted => absurd attempted (not_attempted calm),
    fun raw => ?_⟩
  · obtain ⟨y', found, changed⟩ := after before
    obtain rfl := Option.some.inj (found.symm.trans there)
    rw [changed]
    exact edge raw x before
  · obtain ⟨y, found, changed⟩ := after before
    exact ⟨y, found, changed.trans (requested raw x asked before early)⟩
  · have changed := lives raw
    simp [census, before, there] at changed
  · obtain ⟨y, found, -⟩ := after before
    simp [found, calm]
  · rw [calm, if_neg Bool.false_ne_true, current]

/-- Steps that are a commit. -/
theorem lawful_of_committed {p : Passage σ} {report : CommitReport} {t : Shared σ}
    (attempt : p.what = .attempted report) (sound : p.before.world.shared.Sound)
    (committed : Committed p.before.world.shared t report)
    (refreshed : Relived t p.after.world.shared fun _ life => life) : Lawful p := by
  have after (raw : Nat) :
      p.after.world.entity? raw = (p.before.world.entity? raw).filter Collection.survives := by
    rw [entity?, refreshed.entity?, committed.entity?]
    simp [EntityId.withLife_life, entity?]
  have attempts : p.what.isAttempt = true := by rw [attempt]; rfl
  have gone (raw : Nat) : raw ∈ report.removed.toList.map EntityId.raw ↔
      ∃ x, p.before.world.entity? raw = some x ∧ x.life = .destroyed := by
    simp only [List.mem_map, committed.removed.mem_iff, List.mem_filter, Bool.not_eq_true',
      Collection.survives, decide_eq_false_iff_not, not_not, entity?, sound.entity?_eq_some_iff]
    constructor
    · rintro ⟨x, ⟨member, dead⟩, same⟩
      exact ⟨x, ⟨member, same⟩, dead⟩
    · rintro ⟨x, ⟨member, same⟩, dead⟩
      exact ⟨x, ⟨member, dead⟩, same⟩
  refine ⟨fun raw x y before there => ?_, fun raw x asked => ?_, fun raw y before there => ?_,
    fun raw x before => ?_, fun report' again => ?_, fun raw => ?_⟩
  · rw [after, before] at there
    obtain ⟨same, -⟩ := Option.filter_eq_some_iff.mp there
    obtain rfl := Option.some.inj same
    exact .kept x.life
  · rcases asked with other | ⟨⟨fence, other⟩, -⟩
    all_goals
      rw [attempt] at other
      cases other
  · rw [after, before] at there
    cases there
  · -- Exactly the destroyed ones do not survive.
    rw [after, before, attempts]
    simp [Option.filter, Collection.survives]
  · obtain rfl : report' = report := by
      rw [attempt] at again
      cases again
      rfl
    refine ⟨(committed.removed.map EntityId.raw).nodup_iff.mpr ?_, gone⟩
    exact sound.distinct.sublist (List.filter_sublist.map _)
  · rw [attempts, if_pos rfl, isCurrent_iff, refreshed.current, committed.current]
    simp only [entity?, refreshed.entity?, EntityId.withLife_life]
    simp

theorem early_iff {life : LifeState} :
    canUnregister life = true ↔ life = .register ∨ life = .alive := by
  cases life <;> decide

theorem edge_unregisterAll {p : Passage σ} {requests : List Nat}
    (asked : raw ∈ requests → Passage.Destroys p raw) (life : LifeState) :
    Passage.Edge p raw life (unregisterAll requests raw life) := by
  unfold unregisterAll
  split
  next due => exact .unregistered (early_iff.mp due.2) (asked due.1)
  next => exact .kept life

/-- Whoever is listed to be destroyed cannot be asked for any more. -/
theorem unregisterAll_of_listed (timely : Timely c w.census) {life : LifeState}
    (known : w.census.life raw = some life) (listed : raw ∈ w.unregistering) (requests : List Nat) :
    unregisterAll requests raw life = life := by
  obtain ⟨k, left, -⟩ := (timely.unregistering raw).mp listed
  have late : ¬ canUnregister life = true := fun early => by
    rw [(timely.canUnregister_iff known).mp early] at left
    cases left
  exact if_neg fun both => late both.2

/-- After the destroy requests a boundary promotes who is still new, and destroys who was on the way
out before. -/
theorem boundaryLife_cases (timely : Timely c w.census) (fence : FenceId) {life : LifeState}
    (known : w.census.life raw = some life) :
    w.boundaryLife fence raw life = unregisterAll (w.shared.destroys.map EntityId.raw) raw life ∨
      (fence = .register ∧ unregisterAll (w.shared.destroys.map EntityId.raw) raw life = .register ∧
        w.boundaryLife fence raw life = .alive) ∨
      (fence = .unregister ∧ life = .unregister ∧ w.boundaryLife fence raw life = .destroyed) := by
  unfold boundaryLife
  by_cases first : fence = .register
  · simp only [if_pos first, advanceAll]
    split
    next due => exact .inr (.inl ⟨first, due.2.2, rfl⟩)
    next => exact .inl rfl
  · by_cases last : fence = .unregister
    · simp only [if_neg first, if_pos last, advanceAll]
      split
      next due =>
        exact .inr (.inr ⟨last, (unregisterAll_of_listed timely known due.1 _).symm.trans due.2.2, rfl⟩)
      next => exact .inl rfl
    · simp only [if_neg first, if_neg last]
      exact .inl trivial

theorem unregisterAll_of_register {requests : List Nat} {life : LifeState}
    (new : unregisterAll requests raw life = .register) : life = .register := by
  unfold unregisterAll at new
  split at new
  · cases new
  · exact new

theorem lawful_of_bounded {p : Passage σ} {fence : FenceId} {new : List Nat}
    (boundary : p.what = .bounded fence) (timely : Timely c p.before.world.census)
    (bounded : Bounded p.before.world p.after.world fence new) : Lawful p := by
  refine lawful_of_change (p.before.world.boundaryLife fence) (life_of_relived bounded.relived)
    (isCurrent_congr bounded.relived.current) (by rw [boundary]; rfl) (fun raw x before => ?_)
    fun raw x asked before early => ?_
  · rcases boundaryLife_cases timely fence (census_life before) with
      same | ⟨first, new, same⟩ | ⟨last, out, same⟩
    · rw [same]
      exact edge_unregisterAll (fun member => .inr ⟨⟨fence, boundary⟩, member⟩) x.life
    · rw [same, unregisterAll_of_register new]
      exact .promoted (first ▸ boundary)
    · rw [same, out]
      exact .destroyed (last ▸ boundary)
  · have requested : raw ∈ p.before.world.shared.destroys.map EntityId.raw := by
      rcases asked with other | ⟨-, member⟩
      · rw [boundary] at other
        cases other
      · exact member
    have out : unregisterAll (p.before.world.shared.destroys.map EntityId.raw) raw x.life =
      .unregister :=
      if_pos ⟨requested, early_iff.mpr early⟩
    rcases boundaryLife_cases timely fence (census_life before) with same | ⟨-, new, -⟩ | ⟨-, late, -⟩
    · exact same.trans out
    · rw [out] at new
      cases new
    · rw [late] at early
      rcases early with early | early <;> cases early

/-- No step makes of a life what it should not. -/
theorem lawful_step (effect : Effect m what m') (sound : m.world.shared.Sound)
    (timely : Timely c m.world.census) : Lawful ⟨m, what, m'⟩ := by
  have spared (calm : (∀ raw, what ≠ .destroyed raw) ∧ ∀ fence, what ≠ .bounded fence) (raw : Nat) :
      ¬ Passage.Destroys ⟨m, what, m'⟩ raw := by
    rintro (request | ⟨⟨fence, boundary⟩, -⟩)
    · exact calm.1 raw request
    · exact calm.2 fence boundary
  have remembered (memory : σ) (w : World σ) (sound : w.shared.Sound) :
      Grows w.shared { w.shared with memory } := .of_keeps sound (.refl sound.store) rfl rfl rfl
  cases effect with
  | grown grown => exact lawful_of_grows sound grown rfl (spared ⟨nofun, nofun⟩)
  | @prioritised w t x p found rewritten =>
    refine lawful_of_change (fun _ life => life) (fun raw => ?_) (isCurrent_congr rewritten.current) rfl
      (fun raw x _ => .kept x.life) fun raw x asked => absurd asked (spared ⟨nofun, nofun⟩ raw)
    rw [Option.map_id']
    exact life_of_rewritten found rewritten raw
  | @destroyed w t raw new unregistered =>
    refine lawful_of_change (unregisterAll [raw]) (life_of_relived unregistered.relived)
      (isCurrent_congr unregistered.relived.current) rfl (fun other x _ => ?_)
      fun other x asked _ early => ?_
    · refine edge_unregisterAll (fun member => .inl ?_) x.life
      rw [List.mem_singleton.mp member]
    · refine if_pos ⟨?_, early_iff.mpr early⟩
      rcases asked with request | ⟨⟨fence, boundary⟩, -⟩
      · cases request
        exact List.mem_singleton_self raw
      · cases boundary
  | attempted committed refreshed => exact lawful_of_committed rfl sound committed refreshed
  | abandoned | declared =>
    exact lawful_of_grows sound (remembered _ _ sound) rfl (spared ⟨nofun, nofun⟩)
  | executed grown => exact lawful_of_grows sound grown rfl (spared ⟨nofun, nofun⟩)
  | bounded bounded => exact lawful_of_bounded rfl timely bounded
  | finished => exact lawful_of_grows sound (.refl sound) rfl (spared ⟨nofun, nofun⟩)

/-! ### Whole runs -/

theorem timely_start (empty : Empty w) : Timely .start w.census := by
  have unknown (raw : Nat) : w.census.life raw = none := by
    simp only [census, entity?, empty.absent, Option.map_none]
  have notCurrent (raw : Nat) : ¬ w.isCurrent raw = true := fun current => by
    obtain ⟨x, found⟩ := (isCurrent_iff.mp current).known empty.sound
    rw [empty.absent] at found
    cases found
  refine ⟨fun raw life known => ?_, fun raw => ⟨fun current => absurd current (notCurrent raw),
    nofun⟩, nofun, nofun,
    fun raw => ?_, ?_, fun raw => ?_, fun raw => ?_, ?_, ⟨Nat.le_refl _, Nat.le_refl _⟩, nofun⟩
  · rw [unknown] at known
    cases known
  all_goals simp [census, empty.registering, empty.unregistering, empty.nextUnregistering,
    Chronicle.start]

/-- What a run keeps up. -/
structure Course (past : List (Passage σ)) (m : Moment σ) : Prop where
  settled : Settled m
  timely : Timely (chronicle past) m.world.census
  punctual : Punctual (chronicle past) m
  lawful : ∀ p ∈ past, Lawful p

theorem Started.course (started : Started w) : Course [] (.resting w) where
  settled := started.settled
  timely := timely_start started.empty
  punctual := ⟨Nat.le_refl 0, rfl, rfl⟩
  lawful := fun _ member => absurd member List.not_mem_nil

theorem Course.step (course : Course past m) (step : Step m what m') :
    Course (past ++ [⟨m, what, m'⟩]) m' := by
  obtain ⟨sound, planned, placed⟩ := course.settled
  have effect := step.effect sound
  have chronicle_eq : chronicle (past ++ [⟨m, what, m'⟩]) =
      (chronicle past).note what m'.world.census := by
    simp only [chronicle, List.foldl_append, List.foldl_cons, List.foldl_nil]
  refine ⟨course.settled.step step, ?_, ?_, fun p member => ?_⟩
  · rw [chronicle_eq]
    exact timely_step effect sound placed planned course.punctual course.timely
  · rw [chronicle_eq]
    exact punctual_step m'.world.census effect placed planned course.punctual
  · rcases List.mem_append.mp member with earlier | last
    · exact course.lawful p earlier
    · rw [List.mem_singleton.mp last]
      exact lawful_step effect sound course.timely

theorem course_of_reaches (started : Started w₀) (reached : Reaches w₀ past m) : Course past m := by
  induction reached with
  | start => exact started.course
  | step _ step ih => exact ih.step step

/-- The lives of all entities so far, and what they are owed. -/
structure Lifecycle (past : List (Passage σ)) (m : Moment σ) : Prop where
  -- An entity that was committed by attempt `k` is alive once an attempt from `k` on has passed the
  -- boundary of Register; one that was on its way out by attempt `k` is destroyed once an attempt from
  -- `k` on has passed the boundary of Unregister.
  timely : Timely (chronicle past) m.world.census
  -- Attempts pass both boundaries or, if they are abandoned, none.
  punctual : Punctual (chronicle past) m
  lawful : ∀ p ∈ past, Lawful p
  leaving : ∀ raw, (m.world.unregistering ++ m.world.nextUnregistering).count raw =
    if (m.world.entity? raw).map EntityId.life = some .unregister then 1 else 0
  registering : ∀ raw x, m.world.entity? raw = some x → m.world.isCurrent raw = true →
    x.life = .register → m.world.registering.count raw = 1

/-- In whatever order things were created, destroyed, committed and abandoned, every entity's life
changes at the boundaries it is owed, and it is taken away by the commit after its destruction. -/
theorem lifecycle_of_reaches {config : WorldConfig} {types : List ComponentType}
    {systems : List (System σ)}
    {memory : σ} (built : (World.new config types systems memory).value = .ok w₀)
    (reached : Reaches w₀ past m) : Lifecycle past m := by
  have course := course_of_reaches (started_of_new built) reached
  refine ⟨course.timely, course.punctual, course.lawful, course.timely.count_leaving,
    fun raw x found current new => course.timely.count_registering current ?_⟩
  exact Option.map_eq_some_iff.mpr ⟨x, found, new⟩

/-- Two entities are committed by the first attempt, which is abandoned. One is unregistered by a call
before the second attempt, and destroyed by it; the other is unregistered by an update of that attempt,
which also creates a third entity, and is listed for the next one. -/
theorem lifecycle_of_twoDestroyed : ∃ w₀ past w,
    (World.new .singleThreaded ageNameTypes [failsFirst] 0).value = .ok w₀ ∧
      Reaches w₀ past (.resting w) ∧
      (w.entity? 1).map EntityId.life = some .destroyed ∧
        (w.entity? 2).map EntityId.life = some .unregister ∧
      (w.entity? 3).map EntityId.life = some .register ∧ w.nextUnregistering = [2] ∧
      Lifecycle past (.resting w) := by
  have made : ((twoDestroyed []).any fun w => (w.entity? 1).map EntityId.life = some .destroyed ∧
      (w.entity? 2).map EntityId.life = some .unregister ∧
      (w.entity? 3).map EntityId.life = some .register ∧ w.nextUnregistering = [2]) = true := by
    decide +kernel
  obtain ⟨w, made, facts⟩ := Option.any_eq_true _ _ |>.mp made
  obtain ⟨first, second, third, listed⟩ := of_decide_eq_true facts
  obtain ⟨w₀, past, built, reached⟩ := reaches_of_session? made
  exact ⟨w₀, past, w, built, reached, first, second, third, listed, lifecycle_of_reaches built reached⟩

end World

end EntityWorld
