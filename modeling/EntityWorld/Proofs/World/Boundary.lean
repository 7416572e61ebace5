import EntityWorld.Proofs.Shared
import EntityWorld.World.Lifecycle

/-!
# Life-state changes

`Relived` says what a boundary does: every entity keeps everything but its life state, and the new
life state is a function of the raw id and the old one. Changes compose, so a list of requests is
described by one function.
-/
namespace EntityWorld

variable {σ : Type} {s t u : Shared σ} {w : World σ} {raw : Nat} {id x : EntityId}

namespace Shared

/-- Life states were changed as `change` says, and nothing else about any entity. -/
structure Relived (s t : Shared σ) (change : Nat → LifeState → LifeState) : Prop where
  sound : t.Sound
  entity? : ∀ raw, t.entity? raw = (s.entity? raw).map fun x => x.withLife (change raw x.life)
  current : ∀ raw, t.IsCurrent raw ↔ s.IsCurrent raw
  stored : ∀ raw, t.IsStored raw ↔ s.IsStored raw

namespace Relived

variable {f g : Nat → LifeState → LifeState}

theorem refl (sound : s.Sound) : Relived s s fun _ life => life where
  sound := sound
  entity? := by simp [EntityId.withLife_life]
  current := fun _ => .rfl
  stored := fun _ => .rfl

theorem trans (first : Relived s t f) (second : Relived t u g) :
    Relived s u fun raw life => g raw (f raw life) where
  sound := second.sound
  entity? := by
    intro raw
    rw [second.entity?, first.entity?, Option.map_map]
    refine congrArg (Option.map · _) (funext fun x => ?_)
    simp [EntityId.withLife_withLife]
  current := fun raw => (second.current raw).trans (first.current raw)
  stored := fun raw => (second.stored raw).trans (first.stored raw)

/-- Only what a change does to the entities there are matters. -/
theorem congr (changed : Relived s t f)
    (same : ∀ raw x, s.entity? raw = some x → f raw x.life = g raw x.life) : Relived s t g where
  sound := changed.sound
  entity? := by
    intro raw
    rw [changed.entity?]
    cases found : s.entity? raw with
    | none => rfl
    | some x => rw [Option.map_some, Option.map_some, same raw x found]
  current := changed.current
  stored := changed.stored

/-- Other fields than the entities, the allocator and the registry do not matter. -/
theorem of_keeps (sound : s.Sound) (store : Store.Keeps s.store t.store)
    (registry : t.registry = s.registry)
    (allocator : t.allocator = s.allocator) (deferred : t.deferred = s.deferred) :
    Relived s t fun _ life => life := by
  have grown := Grows.of_keeps sound store registry allocator deferred
  have same (x : EntityId) : x ∈ t.ids ↔ x ∈ s.ids := by rw [mem_ids, mem_ids, store.mem_ids, deferred]
  refine ⟨grown.sound, fun raw => Option.ext fun x => ?_, fun raw => ?_, fun raw => ?_⟩
  · rw [grown.sound.entity?_eq_some_iff, same, ← sound.entity?_eq_some_iff]
    simp [EntityId.withLife_life]
  · simp only [IsCurrent, store.current]
  · rw [isStored_iff sound.store, isStored_iff grown.sound.store]
    simp only [store.mem_ids]

theorem of_memory (sound : s.Sound) (memory : σ) : Relived s { s with memory } fun _ life => life :=
  of_keeps sound (.refl sound.store) rfl rfl rfl

/-- Overwriting one entity by itself in another state. -/
theorem of_rewritten {target : LifeState} (found : s.entity? id.raw = some id)
    (rewritten : Rewritten s t id (id.withLife target)) :
    Relived s t fun raw life => if raw = id.raw then target else life where
  sound := rewritten.sound
  entity? := by
    intro raw
    rw [rewritten.entity?]
    split
    next same =>
      subst same
      rw [found, Option.map_some]
    next =>
      simp [EntityId.withLife_life]
  current := rewritten.current
  stored := rewritten.stored

end Relived

end Shared

namespace World

open Shared

theorem setLife_spec {current : EntityId} (target : LifeState) (sound : w.shared.Sound)
    (found : w.shared.store.entity? raw = some current)
    (step : current.life.canBecome target = true) :
    ∃ store, (w.setLife current target).value = (.ok (), { w with shared.store := store }) ∧
      Relived w.shared { w.shared with store } fun other life =>
        if other = raw then target else life := by
  obtain ⟨stored, rfl⟩ := sound.store.entity?_eq_some_iff.mp found
  obtain ⟨store, updated, rewritten⟩ := rewritten_of_update (current.withLife target) sound stored
    (EntityId.raw_withLife current target) (.inr (by rwa [EntityId.life_withLife]))
  refine ⟨store, ?_, .of_rewritten (sound.entity?_of_mem (mem_ids.mpr (.inl stored))) rewritten⟩
  simp only [setLife, EntityId.transition_of_canBecome step, updated, Logged.value_pure]

/-! ### Destroy requests -/

/-- The requests put their entities on their way out, where that is possible. -/
def unregisterAll (requests : List Nat) (raw : Nat) (life : LifeState) : LifeState :=
  if raw ∈ requests ∧ canUnregister life = true then .unregister else life

theorem canUnregister_iff {life : LifeState} :
    canUnregister life = true ↔ life.canBecome .unregister = true := by
  cases life <;> decide

theorem unregisterAll_cons (first : Nat) (rest : List Nat) (life : LifeState) :
    unregisterAll rest raw (unregisterAll [first] raw life) =
      unregisterAll (first :: rest) raw life := by
  simp only [unregisterAll, List.mem_cons, List.not_mem_nil, or_false]
  by_cases at_ : raw = first <;> by_cases listed : raw ∈ rest <;> cases life <;>
    simp [at_, listed, canUnregister]

/-- What destroy requests do: the entities in `new` go on their way out. -/
structure Unregistered (s t : Shared σ) (requests new : List Nat) : Prop where
  relived : Relived s t (unregisterAll requests)
  distinct : new.Nodup
  leaving : ∀ raw, raw ∈ new ↔ raw ∈ requests ∧ ∃ x, s.entity? raw = some x ∧
    canUnregister x.life = true

theorem Unregistered.cons {first : Nat} {rest new new' : List Nat} (head : Unregistered s t [first] new)
    (tail : Unregistered t u rest new') : Unregistered s u (first :: rest) (new ++ new') where
  relived := (head.relived.trans tail.relived).congr fun raw x _ => unregisterAll_cons first rest x.life
  distinct := by
    refine List.nodup_append.mpr ⟨head.distinct, tail.distinct, fun raw left other right same => ?_⟩
    subst same
    -- Whoever went with the first request is on the way out, and does not go again.
    obtain ⟨requested, x, found, able⟩ := (head.leaving raw).mp left
    obtain ⟨-, y, there, stillAble⟩ := (tail.leaving raw).mp right
    rw [head.relived.entity?, found, Option.map_some] at there
    obtain rfl := Option.some.inj there
    rw [EntityId.life_withLife, unregisterAll, if_pos ⟨requested, able⟩] at stillAble
    cases stillAble
  leaving := by
    intro raw
    rw [List.mem_append, head.leaving, tail.leaving, head.relived.entity?, List.mem_singleton,
      List.mem_cons]
    cases found : s.entity? raw with
    | none => simp
    | some x =>
      simp only [Option.map_some, Option.some.injEq, exists_eq_left', EntityId.life_withLife,
        unregisterAll,
        List.mem_singleton]
      by_cases at_ : raw = first
      · by_cases able : canUnregister x.life = true
        · simp [at_, able]
        · simp [at_, able]
      · simp [at_]

theorem unregistered_nil (sound : s.Sound) : Unregistered s s [] [] where
  relived := (Relived.refl sound).congr fun raw x _ => by simp [unregisterAll]
  distinct := .nil
  leaving := by simp

private theorem unregistered_of_able (found : s.entity? id.raw = some x)
    (able : canUnregister x.life = true)
    (relived : Relived s t fun raw life => if raw = id.raw then .unregister else life) :
    Unregistered s t [id.raw] [id.raw] where
  relived := relived.congr fun raw y there => by
    simp only [unregisterAll, List.mem_singleton]
    by_cases at_ : raw = id.raw
    · subst at_
      obtain rfl := Option.some.inj (found.symm.trans there)
      rw [if_pos rfl, if_pos ⟨rfl, able⟩]
    · rw [if_neg at_, if_neg fun both => at_ both.1]
  distinct := List.nodup_singleton _
  leaving := by
    intro raw
    rw [List.mem_singleton]
    constructor
    · rintro rfl
      exact ⟨rfl, x, found, able⟩
    · exact fun both => both.1

private theorem unregistered_of_unable (sound : s.Sound)
    (unable : ∀ x, s.entity? id.raw = some x → ¬ canUnregister x.life = true) :
    Unregistered s s [id.raw] [] where
  relived := (Relived.refl sound).congr fun raw x there => by
    rw [unregisterAll, if_neg]
    rintro ⟨member, able⟩
    obtain rfl := List.mem_singleton.mp member
    exact unable x there able
  distinct := .nil
  leaving := by
    intro raw
    rw [List.mem_singleton]
    refine ⟨nofun, ?_⟩
    rintro ⟨rfl, x, there, able⟩
    exact absurd able (unable x there)

theorem applyDestroy_spec (sound : w.shared.Sound) (id : EntityId) :
    ∃ outcome t new, (w.applyDestroy id).value =
        (.ok outcome, { w with shared := t, nextUnregistering := w.nextUnregistering ++ new }) ∧
      Unregistered w.shared t [id.raw] new := by
  unfold applyDestroy
  -- The request is for a stored entity, for one that waits, or for nobody.
  split
  next current found =>
    have held : w.shared.entity? id.raw = some current := by
      rw [Shared.entity?, found]
      rfl
    split
    next able =>
      obtain ⟨store, set, relived⟩ := setLife_spec .unregister sound found (canUnregister_iff.mp able)
      refine ⟨.unregistered, { w.shared with store }, [id.raw], ?_,
        unregistered_of_able held able relived⟩
      simp only [Logged.value_bind, set, Logged.value_pure]
    next unable =>
      refine ⟨.noEffect, w.shared, [], ?_, unregistered_of_unable sound fun x there => ?_⟩
      · rw [List.append_nil]
        rfl
      · obtain rfl := Option.some.inj (held.symm.trans there)
        exact unable
  next notStored =>
    split
    next notWaiting =>
      refine ⟨.unknown, w.shared, [], ?_, unregistered_of_unable sound fun x there => ?_⟩
      · rw [List.append_nil]
        rfl
      · rw [Shared.entity?, notStored, notWaiting] at there
        cases there
    next d waiting =>
      obtain ⟨member, same⟩ := sound.deferred?_eq_some_iff.mp waiting
      have held : w.shared.entity? id.raw = some d.id := by
        rw [Shared.entity?, notStored, waiting]
        rfl
      split
      next able =>
        have rewritten := rewritten_modifyDeferred (fun id => id.withLife .unregister) sound
          waiting (EntityId.raw_withLife d.id .unregister)
        have relived := Relived.of_rewritten (same ▸ held) rewritten
        rw [same] at relived
        exact ⟨.unregistered, _, [id.raw], rfl, unregistered_of_able held able relived⟩
      next unable =>
        refine ⟨.noEffect, w.shared, [], ?_, unregistered_of_unable sound fun x there => ?_⟩
        · rw [List.append_nil]
          rfl
        · obtain rfl := Option.some.inj (held.symm.trans there)
          exact unable

theorem applyDestroys_spec (requests : List EntityId) (count : Nat) (sound : w.shared.Sound) :
    ∃ count' t new, (applyDestroys requests count w).value =
        (.ok count', { w with shared := t, nextUnregistering := w.nextUnregistering ++ new }) ∧
      Unregistered w.shared t (requests.map EntityId.raw) new := by
  induction requests generalizing w count with
  | nil =>
    refine ⟨count, w.shared, [], ?_, unregistered_nil sound⟩
    rw [List.append_nil]
    rfl
  | cons id rest ih =>
    obtain ⟨outcome, t, new, applied, head⟩ := applyDestroy_spec sound id
    have goOn (count : Nat) : ∃ count' u new', (applyDestroys rest count
          { w with shared := t, nextUnregistering := w.nextUnregistering ++ new }).value =
        (.ok count',
          { w with shared := u, nextUnregistering := w.nextUnregistering ++ (new ++ new') }) ∧
        Unregistered w.shared u ((id :: rest).map EntityId.raw) (new ++ new') := by
      obtain ⟨count', u, new', done, tail⟩ := ih count
        (w := { w with shared := t, nextUnregistering := w.nextUnregistering ++ new })
        head.relived.sound
      exact ⟨count', u, new', by rw [done, List.append_assoc], head.cons tail⟩
    -- The outcome is counted, and that is all it matters for.
    cases outcome with
    | unregistered =>
      obtain ⟨count', u, new', done, both⟩ := goOn (count + 1)
      exact ⟨count', u, _, by simp only [applyDestroys, Logged.value_bind, applied, done], both⟩
    | noEffect =>
      obtain ⟨count', u, new', done, both⟩ := goOn count
      exact ⟨count', u, _, by simp only [applyDestroys, Logged.value_bind, applied, done], both⟩
    | unknown =>
      obtain ⟨count', u, new', done, both⟩ := goOn count
      exact ⟨count', u, _, by simp only [applyDestroys, Logged.value_bind, applied, done], both⟩

/-! ### Owed changes -/

open Classical in
/-- The listed entities that are in rows and in state `source` go to state `target`. -/
noncomputable def advanceAll (stored : Nat → Prop) (source target : LifeState) (listed : List Nat)
    (raw : Nat) (life : LifeState) : LifeState :=
  if raw ∈ listed ∧ stored raw ∧ life = source then target else life

theorem advanceAll_of_stored {stored : Nat → Prop} {source target : LifeState} {listed : List Nat}
    (all : ∀ raw ∈ listed, stored raw) (raw : Nat) (life : LifeState) :
    advanceAll stored source target listed raw life =
      if raw ∈ listed ∧ life = source then target else life := by
  unfold advanceAll
  by_cases due : raw ∈ listed ∧ life = source
  · rw [if_pos due, if_pos ⟨due.1, all raw due.1, due.2⟩]
  · rw [if_neg due, if_neg fun both => due ⟨both.1, both.2.2⟩]

theorem advanceAll_cons {stored : Nat → Prop} {source target : LifeState} (different : source ≠ target)
    (first : Nat) (rest : List Nat) (life : LifeState) :
    advanceAll stored source target rest raw (advanceAll stored source target [first] raw life) =
      advanceAll stored source target (first :: rest) raw life := by
  unfold advanceAll
  by_cases now : raw ∈ [first] ∧ stored raw ∧ life = source
  · rw [if_pos now, if_neg fun both => different both.2.2.symm,
      if_pos ⟨List.mem_cons.mpr (.inl (List.mem_singleton.mp now.1)), now.2⟩]
  · rw [if_neg now]
    by_cases later : raw ∈ rest ∧ stored raw ∧ life = source
    · rw [if_pos later, if_pos ⟨List.mem_cons_of_mem first later.1, later.2⟩]
    · rw [if_neg later, if_neg]
      rintro ⟨member, due⟩
      rcases List.mem_cons.mp member with same | listed
      · exact now ⟨List.mem_singleton.mpr same, due⟩
      · exact later ⟨listed, due⟩

theorem advance_spec {source target : LifeState} (listed : List Nat) (count : Nat)
    (sound : w.shared.Sound) (step : source.canBecome target = true) :
    ∃ count' store, (advance source target listed count w).value =
        (.ok count', { w with shared.store := store }) ∧
      Relived w.shared { w.shared with store } (advanceAll w.shared.IsStored source target listed) := by
  induction listed generalizing w count with
  | nil =>
    refine ⟨count, w.shared.store, rfl, (Relived.refl sound).congr fun raw x _ => ?_⟩
    simp [advanceAll]
  | cons raw rest ih =>
    -- An entity that is not stored, or not in the source state, is passed over.
    have skip (idle : ∀ x, w.shared.store.entity? raw = some x → x.life ≠ source) :
        ∃ count' store, (advance source target rest count w).value =
            (.ok count', { w with shared.store := store }) ∧
          Relived w.shared { w.shared with store }
            (advanceAll w.shared.IsStored source target (raw :: rest)) := by
      obtain ⟨count', store, done, relived⟩ := ih count sound
      refine ⟨count', store, done, relived.congr fun other x found => ?_⟩
      rw [← advanceAll_cons (LifeState.ne_of_canBecome step)]
      refine congrArg _ ?_
      rw [advanceAll, if_neg]
      rintro ⟨member, ⟨y, stored⟩, due⟩
      obtain rfl := List.mem_singleton.mp member
      obtain rfl : x = y := by
        rw [Shared.entity?, stored] at found
        exact (Option.some.inj found).symm
      exact idle x stored due
    simp only [advance]
    split
    next absent => exact skip fun x found => by rw [absent] at found; cases found
    next current found =>
      split
      next due =>
        obtain ⟨store₁, set, relived₁⟩ := setLife_spec target sound found (by rw [due]; exact step)
        obtain ⟨count', store, done, relived⟩ :=
          ih (count + 1) (w := { w with shared.store := store₁ }) relived₁.sound
        refine ⟨count', store, ?_, (relived₁.trans relived).congr fun other x there => ?_⟩
        · simp only [Logged.value_bind, set, done]
        · rw [← advanceAll_cons (LifeState.ne_of_canBecome step)]
          have sameStored : ({ w.shared with store := store₁ } : Shared σ).IsStored =
            w.shared.IsStored :=
            funext fun raw => propext (relived₁.stored raw)
          rw [sameStored]
          refine congrArg _ ?_
          unfold advanceAll
          by_cases at_ : other = raw
          · subst at_
            have same : current = x := by
              rw [Shared.entity?, found] at there
              exact Option.some.inj there
            rw [if_pos rfl, if_pos ⟨List.mem_singleton_self other, ⟨current, found⟩, same ▸ due⟩]
          · rw [if_neg at_, if_neg fun both => at_ (List.mem_singleton.mp both.1)]
      next idle =>
        refine skip fun x there => ?_
        obtain rfl := Option.some.inj (found.symm.trans there)
        exact idle

/-! ### Boundaries -/

/-- What the boundary of a fence makes of a life state. -/
noncomputable def boundaryLife (w : World σ) (fence : FenceId) (raw : Nat)
    (life : LifeState) : LifeState :=
  let life := unregisterAll (w.shared.destroys.map EntityId.raw) raw life
  if fence = .register then advanceAll w.shared.IsStored .register .alive w.registering raw life
  else if fence = .unregister then
    advanceAll w.shared.IsStored .unregister .destroyed w.unregistering raw life
  else life

/-- What the boundary of a fence makes of a world: `new` are the raw ids that went on their way out. -/
structure Bounded (w w' : World σ) (fence : FenceId) (new : List Nat) : Prop where
  relived : Relived w.shared w'.shared (w.boundaryLife fence)
  distinct : new.Nodup
  leaving : ∀ raw, raw ∈ new ↔ raw ∈ w.shared.destroys.map EntityId.raw ∧
    ∃ x, w.shared.entity? raw = some x ∧ canUnregister x.life = true
  scheduler : w'.scheduler = w.scheduler
  registering : w'.registering = if fence = .register then [] else w.registering
  unregistering : w'.unregistering = if fence = .unregister then [] else w.unregistering
  nextUnregistering : w'.nextUnregistering = w.nextUnregistering ++ new

/-- A boundary never fails. -/
theorem applyBoundary_spec (sound : w.shared.Sound) (fence : FenceId) (life : LifecycleReport) :
    ∃ life' w' new, (w.applyBoundary fence life).value = (.ok life', w') ∧ Bounded w w' fence new := by
  have taken : Relived w.shared { w.shared with destroys := [] } fun _ life => life :=
    .of_keeps sound (.refl sound.store) rfl rfl rfl
  obtain ⟨count, t, new, applied, unregistered⟩ :=
    applyDestroys_spec w.shared.destroys life.unregistered
      (w := { w with shared.destroys := [] }) taken.sound
  have sameStored : t.IsStored = w.shared.IsStored :=
    funext fun raw => propext ((unregistered.relived.stored raw).trans (taken.stored raw))
  have both := taken.trans unregistered.relived
  simp only [applyBoundary, Logged.value_bind, applied]
  -- Only two boundaries change more than what was asked for.
  by_cases first : fence = .register
  · subst first
    obtain ⟨promoted, store, done, relived⟩ :=
      advance_spec w.registering life.promoted
        (w := { w with
          shared := t, registering := [], nextUnregistering := w.nextUnregistering ++ new })
        unregistered.relived.sound (rfl : LifeState.canBecome .register .alive = true)
    rw [sameStored] at relived
    simp only [if_true, Logged.value_bind, done, Logged.value_pure]
    exact ⟨_, _, new, rfl, both.trans relived, unregistered.distinct, unregistered.leaving, rfl,
      rfl, rfl, rfl⟩
  · by_cases last : fence = .unregister
    · subst last
      obtain ⟨destroyed, store, done, relived⟩ :=
        advance_spec w.unregistering life.destroyed
          (w := { w with
            shared := t, unregistering := [], nextUnregistering := w.nextUnregistering ++ new })
          unregistered.relived.sound (rfl : LifeState.canBecome .unregister .destroyed = true)
      rw [sameStored] at relived
      simp only [if_neg first, if_true, Logged.value_bind, done, Logged.value_pure]
      exact ⟨_, _, new, rfl, both.trans relived, unregistered.distinct, unregistered.leaving, rfl,
        rfl, rfl, rfl⟩
    · simp only [if_neg first, if_neg last, Logged.value_pure]
      refine ⟨_, _, new, rfl, both.congr fun raw x _ => ?_, unregistered.distinct,
        unregistered.leaving, rfl,
        by rw [if_neg first], by rw [if_neg last], rfl⟩
      simp only [boundaryLife, if_neg first, if_neg last]

theorem bounded_of_applyBoundary {w' : World σ} {fence : FenceId} {life life' : LifecycleReport}
    (sound : w.shared.Sound) (applied : (w.applyBoundary fence life).value = (.ok life', w')) :
    ∃ new, Bounded w w' fence new := by
  obtain ⟨_, _, new, done, bounded⟩ := applyBoundary_spec sound fence life
  cases done.symm.trans applied
  exact ⟨new, bounded⟩

end World

end EntityWorld
