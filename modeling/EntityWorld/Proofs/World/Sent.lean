import EntityWorld.Proofs.Relabel
import EntityWorld.Proofs.World.Boundary

/-!
# Life-state changes of listed entities

Destroy requests and owed changes name entities by their raw ids. What they come to depends on which raw
ids are named, and on nothing else: entities that can make the change make it, each once. Main
statements: `applyDestroys_eq_relabel` and `advance_eq_relabel`.
-/
namespace EntityWorld

variable {σ : Type} {able : LifeState → Bool} {target : LifeState} {raw : Nat} {raws rest : List Nat}
  {x : EntityId}

/-- The id of an entity after the listed ones that are able to have gone to this state. -/
def EntityId.sent (able : LifeState → Bool) (target : LifeState) (raws : List Nat) (x : EntityId) :
    EntityId :=
  if x.raw ∈ raws ∧ able x.life = true then x.withLife target else x

namespace EntityId

theorem raw_sent (able : LifeState → Bool) (target : LifeState) (raws : List Nat) (x : EntityId) :
    (x.sent able target raws).raw = x.raw := by
  unfold sent
  split
  · exact raw_withLife x target
  · rfl

theorem sent_of_unable (unable : able x.life = false) : x.sent able target raws = x :=
  if_neg fun both => by simp [unable] at both

theorem sent_of_unlisted (unlisted : x.raw ∉ raws) : x.sent able target raws = x :=
  if_neg fun both => unlisted both.1

/-- Whoever has gone is not able to go again. -/
theorem sent_cons (final : able target = false) (raw : Nat) (rest : List Nat) :
    sent able target rest ∘ sent able target [raw] = sent able target (raw :: rest) := by
  refine funext fun x => ?_
  simp only [Function.comp_apply]
  by_cases now : x.raw ∈ [raw] ∧ able x.life = true
  · have later : able (x.withLife target).life = false := by rw [life_withLife, final]
    have listed : x.raw ∈ raw :: rest := List.mem_cons.mpr (.inl (List.mem_singleton.mp now.1))
    rw [sent.eq_def _ _ [raw], if_pos now, sent_of_unable later, sent, if_pos ⟨listed, now.2⟩]
  · rw [sent.eq_def _ _ [raw], if_neg now, sent, sent]
    refine if_congr (and_congr_left fun able => ?_) rfl rfl
    rw [List.mem_cons, or_iff_right fun same => now ⟨List.mem_singleton.mpr same, able⟩]

end EntityId

open EntityId (changeAt changeAt_of_eq changeAt_of_ne sent sent_cons sent_of_unable sent_of_unlisted)

/-! ### One entity -/

section

variable {ids : List EntityId} {entity? : Nat → Option EntityId}
  (lookup : ∀ y ∈ ids, entity? y.raw = some y)
include lookup

/-- Nobody goes if the only one with the raw id cannot. -/
theorem sent_fixed (unable : ∀ y, entity? raw = some y → able y.life = false) :
    ∀ y ∈ ids, sent able target [raw] y = y := by
  intro y member
  by_cases same : y.raw = raw
  · exact sent_of_unable (unable y (same ▸ lookup y member))
  · exact sent_of_unlisted (by simpa using same)

/-- Only the one with the raw id goes, if it can. -/
theorem changeAt_eq_sent (found : entity? raw = some x) (able_ : able x.life = true) :
    ∀ y ∈ ids, changeAt raw (fun y => y.withLife target) y = sent able target [raw] y := by
  intro y member
  by_cases same : y.raw = raw
  · obtain rfl : y = x := Option.some.inj ((same ▸ lookup y member).symm.trans found)
    rw [changeAt_of_eq same, sent, if_pos ⟨List.mem_singleton.mpr same, able_⟩]
  · rw [changeAt_of_ne same, sent_of_unlisted (by simpa using same)]

end

/-! ### Who goes -/

/-- The raw ids of those who go, each once. -/
structure Going (entity? : Nat → Option EntityId) (able : LifeState → Bool) (raws going : List Nat) :
    Prop where
  distinct : going.Nodup
  mem_iff : ∀ raw, raw ∈ going ↔ raw ∈ raws ∧ ∃ x, entity? raw = some x ∧ able x.life = true

namespace Going

variable {entity? entity?' : Nat → Option EntityId} {going going' : List Nat}

theorem nil (entity? : Nat → Option EntityId) (able : LifeState → Bool) : Going entity? able [] [] where
  distinct := .nil
  mem_iff := by simp

/-- Whoever has gone does not go again. -/
theorem cons (final : able target = false) (kept : ∀ other x, entity? other = some x → x.raw = other)
    (later : Going entity?' able rest going)
    (after : ∀ other, entity?' other = (entity? other).map (sent able target [raw]))
    (found : entity? raw = some x) (able_ : able x.life = true) :
    Going entity? able (raw :: rest) (raw :: going) := by
  have gone : raw ∉ going := by
    intro again
    obtain ⟨-, y, there, able'⟩ := (later.mem_iff raw).mp again
    rw [after, found, Option.map_some, Option.some.injEq] at there
    subst there
    rw [sent, if_pos ⟨List.mem_singleton.mpr (kept raw x found), able_⟩, EntityId.life_withLife,
      final] at able'
    cases able'
  refine ⟨List.nodup_cons.mpr ⟨gone, later.distinct⟩, fun other => ?_⟩
  rw [List.mem_cons, List.mem_cons]
  by_cases same : other = raw
  · subst same
    exact iff_of_true (.inl rfl) ⟨.inl rfl, x, found, able_⟩
  · rw [or_iff_right same, or_iff_right same, later.mem_iff, after]
    refine and_congr_right fun _ => ?_
    cases there : entity? other with
    | none => simp
    | some y =>
      have unlisted : y.raw ∉ [raw] := by
        rw [List.mem_singleton, kept other y there]
        exact same
      rw [Option.map_some, sent_of_unlisted unlisted]

theorem skip (unable : ∀ x, entity? raw = some x → able x.life = false)
    (later : Going entity? able rest going) : Going entity? able (raw :: rest) going := by
  refine ⟨later.distinct, fun other => ?_⟩
  rw [later.mem_iff, List.mem_cons]
  constructor
  · rintro ⟨listed, able_⟩
    exact ⟨.inr listed, able_⟩
  · rintro ⟨rfl | listed, x, found, able_⟩
    · rw [unable x found] at able_
      cases able_
    · exact ⟨listed, x, found, able_⟩

/-- The same go, in some order, where the same are named and able. -/
theorem perm {raws' : List Nat} (first : Going entity? able raws going)
    (second : Going entity?' able raws' going') (same : ∀ raw, raw ∈ raws' ↔ raw ∈ raws)
    (lives : ∀ raw, (entity?' raw).map EntityId.life = (entity? raw).map EntityId.life) :
    going'.Perm going := by
  refine (List.perm_ext_iff_of_nodup second.distinct first.distinct).mpr fun raw => ?_
  have able_iff (o : Option EntityId) :
      (∃ x, o = some x ∧ able x.life = true) ↔ ∃ life, o.map EntityId.life = some life ∧
        able life = true := by
    cases o <;> simp
  rw [first.mem_iff, second.mem_iff, same, able_iff, able_iff, lives]

end Going

namespace World

open Shared

variable {w : World σ}

theorem setLife_eq_relabel {current : EntityId} (target : LifeState) (sound : w.shared.Sound)
    (found : w.shared.store.entity? raw = some current)
    (step : current.life.canBecome target = true) : ∃ store,
      store = w.shared.store.relabel (changeAt raw fun x => x.withLife target) ∧
      (w.setLife current target).value = (.ok (), { w with shared.store := store }) ∧
      ({ w.shared with store } : Shared σ) =
        w.shared.relabel (changeAt raw fun x => x.withLife target) ∧
      ({ w.shared with store } : Shared σ).Sound := by
  obtain ⟨stored, rfl⟩ := sound.store.entity?_eq_some_iff.mp found
  obtain ⟨store, updated, relabelled⟩ :=
    update_eq_relabel (f := fun x => x.withLife target) sound stored
      (EntityId.raw_withLife current target) (.inr (by rwa [EntityId.life_withLife]))
  obtain ⟨store', set, relived⟩ := setLife_spec target sound found step
  have same : (w.setLife current target).value = (.ok (), { w with shared.store := store }) := by
    simp only [setLife, EntityId.transition_of_canBecome step, updated, Logged.value_pure]
  obtain rfl : store' = store :=
    congrArg (fun r : Except Fault Unit × World σ => r.2.shared.store) (set.symm.trans same)
  exact ⟨store', congrArg Shared.store relabelled, same, relabelled, relived.sound⟩

/-! ### Destroy requests -/

/-- A request puts the entity on its way out, if it can be. -/
theorem applyDestroy_cases (sound : w.shared.Sound) (id : EntityId) :
    (∃ x, w.shared.entity? id.raw = some x ∧ canUnregister x.life = true ∧
      (w.applyDestroy id).value = (.ok .unregistered,
        { w with
          shared := w.shared.relabel (sent canUnregister .unregister [id.raw])
          nextUnregistering := w.nextUnregistering ++ [id.raw] }) ∧
      (w.shared.relabel (sent canUnregister .unregister [id.raw])).Sound) ∨
    ((∀ x, w.shared.entity? id.raw = some x → canUnregister x.life = false) ∧
      ∃ outcome, outcome ≠ .unregistered ∧ (outcome = .unknown ↔ w.shared.entity? id.raw = none) ∧
        (w.applyDestroy id).value = (.ok outcome, w)) := by
  have lookup : ∀ y ∈ w.shared.ids, w.shared.entity? y.raw = some y := fun y => sound.entity?_of_mem
  unfold applyDestroy
  split
  next current found =>
    have held : w.shared.entity? id.raw = some current := by
      rw [Shared.entity?, found]
      rfl
    split
    next able =>
      obtain ⟨store, -, set, relabelled, sound'⟩ :=
        setLife_eq_relabel .unregister sound found (World.canUnregister_iff.mp able)
      rw [relabel_congr (changeAt_eq_sent lookup held able)] at relabelled
      refine .inl ⟨current, held, able, ?_, relabelled ▸ sound'⟩
      simp only [Logged.value_bind, set, relabelled, Logged.value_pure]
    next unable =>
      refine .inr ⟨fun x there => ?_, .noEffect, by decide, by simp [held], rfl⟩
      obtain rfl := Option.some.inj (held.symm.trans there)
      exact Bool.eq_false_iff.mpr unable
  next notStored =>
    split
    next notWaiting =>
      have absent : w.shared.entity? id.raw = none := by
        rw [Shared.entity?, notStored, notWaiting]
        rfl
      refine .inr ⟨fun x there => ?_, .unknown, by decide, by simp [absent], rfl⟩
      rw [absent] at there
      cases there
    next d waiting =>
      have held : w.shared.entity? id.raw = some d.id := by
        rw [Shared.entity?, notStored, waiting]
        rfl
      split
      next able =>
        have relabelled := modifyDeferred_eq_relabel (f := fun x => x.withLife .unregister) sound waiting
        have rewritten := rewritten_modifyDeferred (fun x => x.withLife .unregister) sound waiting
          (EntityId.raw_withLife d.id .unregister)
        rw [relabel_congr (changeAt_eq_sent lookup held able)] at relabelled
        refine .inl ⟨d.id, held, able, ?_, relabelled ▸ rewritten.sound⟩
        simp only [Logged.value_pure, relabelled]
      next unable =>
        refine .inr ⟨fun x there => ?_, .noEffect, by decide, by simp [held], rfl⟩
        obtain rfl := Option.some.inj (held.symm.trans there)
        exact Bool.eq_false_iff.mpr unable

/-- What a destroy request outside of a frame comes to. -/
theorem destroy_eq (sound : w.shared.Sound) (id : EntityId) :
    (w.destroy id).value =
      match w.shared.entity? id.raw with
      | none => (.error (.error (.unknownEntity id)), w)
      | some x =>
        if canUnregister x.life then (.ok (), { w with
          shared := w.shared.relabel (sent canUnregister .unregister [id.raw])
          nextUnregistering := w.nextUnregistering ++ [id.raw] })
        else (.ok (), w) := by
  rcases applyDestroy_cases sound id with
    ⟨x, found, able, applied, -⟩ | ⟨unable, outcome, other, unknown, applied⟩
  · simp only [destroy, Logged.value_bind, applied, found, if_pos able, Logged.value_pure]
  · simp only [destroy, Logged.value_bind, applied]
    cases found : w.shared.entity? id.raw with
    | none =>
      obtain rfl := unknown.mpr found
      rfl
    | some x =>
      have known : outcome ≠ .unknown := fun same => by simp [unknown.mp same] at found
      simp only [unable x found, Bool.false_eq_true, if_false]
      cases outcome with
      | unregistered => exact absurd rfl other
      | noEffect => rfl
      | unknown => exact absurd rfl known

/-- Of the entities that requests name, those that can be go on their way out; the others stay as they
are. -/
theorem applyDestroys_eq_relabel (requests : List EntityId) (count : Nat) (sound : w.shared.Sound) :
    ∃ going, Going w.shared.entity? canUnregister (requests.map EntityId.raw) going ∧
      (applyDestroys requests count w).value = (.ok (count + going.length),
        { w with
          shared := w.shared.relabel (sent canUnregister .unregister (requests.map EntityId.raw))
          nextUnregistering := w.nextUnregistering ++ going }) ∧
      (w.shared.relabel (sent canUnregister .unregister (requests.map EntityId.raw))).Sound := by
  induction requests generalizing w count with
  | nil =>
    have same : w.shared.relabel (sent canUnregister .unregister []) = w.shared :=
      relabel_of_fixed fun x _ => sent_of_unlisted List.not_mem_nil
    refine ⟨[], .nil _ _, ?_, ?_⟩
    · rw [List.map_nil, same, List.append_nil]
      rfl
    · rwa [List.map_nil, same]
  | cons id rest ih =>
    rw [List.map_cons, ← sent_cons rfl id.raw (rest.map EntityId.raw), ← relabel_relabel]
    rcases applyDestroy_cases sound id with
      ⟨x, found, able, applied, sound'⟩ | ⟨unable, outcome, other, -, applied⟩
    · obtain ⟨going, goes, done, sound''⟩ := ih (count + 1)
        (w := { w with
          shared := w.shared.relabel (sent canUnregister .unregister [id.raw])
          nextUnregistering := w.nextUnregistering ++ [id.raw] }) sound'
      refine ⟨id.raw :: going, goes.cons rfl (fun _ _ there => (sound.entity?_eq_some_iff.mp there).2)
        (entity?_relabel (EntityId.raw_sent _ _ _) w.shared) found able, ?_, sound''⟩
      simp only [applyDestroys, Logged.value_bind, applied, done, List.append_assoc,
        List.singleton_append, List.length_cons, Nat.add_assoc, Nat.add_comm 1]
    · have same : w.shared.relabel (sent canUnregister .unregister [id.raw]) = w.shared :=
        relabel_of_fixed (sent_fixed (fun y => sound.entity?_of_mem) unable)
      obtain ⟨going, goes, done, sound'⟩ := ih count sound
      rw [same]
      refine ⟨going, goes.skip unable, ?_, sound'⟩
      cases outcome with
      | unregistered => exact absurd rfl other
      | noEffect | unknown => simp only [applyDestroys, Logged.value_bind, applied, done]

/-! ### Owed changes -/

/-- Of the entities in rows that are listed, those in the first state go to the second. -/
theorem advance_eq_relabel {source target : LifeState} (listed : List Nat) (count : Nat)
    (sound : w.shared.Sound) (step : source.canBecome target = true) :
    ∃ going, Going w.shared.store.entity? (fun life => life = source) listed going ∧
      (advance source target listed count w).value = (.ok (count + going.length),
        { w with shared.store :=
            w.shared.store.relabel (sent (fun life => life = source) target listed) }) := by
  have final : decide (target = source) = false :=
    decide_eq_false (LifeState.ne_of_canBecome step).symm
  induction listed generalizing w count with
  | nil =>
    have same : w.shared.store.relabel (sent (fun life => life = source) target []) = w.shared.store :=
      Store.relabel_of_fixed fun x _ => sent_of_unlisted List.not_mem_nil
    refine ⟨[], .nil _ _, ?_⟩
    rw [same]
    rfl
  | cons raw rest ih =>
    have lookup : ∀ y ∈ w.shared.store.ids, w.shared.store.entity? y.raw = some y := fun y stored =>
      sound.store.entity?_eq_some_iff.mpr ⟨stored, rfl⟩
    -- An entity that is not stored, or not in the source state, is passed over.
    have skip (idle : ∀ x, w.shared.store.entity? raw = some x → x.life ≠ source) :
        ∃ going, Going w.shared.store.entity? (fun life => life = source) (raw :: rest) going ∧
          (advance source target rest count w).value = (.ok (count + going.length),
            { w with shared.store :=
                w.shared.store.relabel (sent (fun life => life = source) target (raw :: rest)) }) := by
      have unable : ∀ x, w.shared.store.entity? raw = some x → decide (x.life = source) = false :=
        fun x there => decide_eq_false (idle x there)
      obtain ⟨going, goes, done⟩ := ih count sound
      refine ⟨going, goes.skip unable, ?_⟩
      rw [← sent_cons final, ← Store.relabel_relabel,
        Store.relabel_of_fixed (sent_fixed lookup unable), done]
    simp only [advance]
    split
    next absent => exact skip fun x found => by rw [absent] at found; cases found
    next current found =>
      split
      next due =>
        have able : decide (current.life = source) = true := decide_eq_true due
        obtain ⟨store, moved, set, -, sound'⟩ :=
          setLife_eq_relabel target sound found (by rw [due]; exact step)
        have alone : ∀ y ∈ w.shared.store.ids, changeAt raw (fun y => y.withLife target) y =
            sent (fun life => life = source) target [raw] y := changeAt_eq_sent lookup found able
        rw [Store.relabel_congr alone] at moved
        obtain ⟨going, goes, done⟩ := ih (count + 1) (w := { w with shared.store := store }) sound'
        refine ⟨raw :: going, goes.cons final (fun _ _ there =>
          (sound.store.entity?_eq_some_iff.mp there).2) (fun other => ?_) found able, ?_⟩
        · rw [moved, Store.entity?_relabel]
        · rw [← sent_cons final, ← Store.relabel_relabel, ← moved]
          simp only [Logged.value_bind, set, done, List.length_cons, Nat.add_assoc, Nat.add_comm 1]
      next idle =>
        refine skip fun x there => ?_
        obtain rfl := Option.some.inj (found.symm.trans there)
        exact idle

end World

end EntityWorld
