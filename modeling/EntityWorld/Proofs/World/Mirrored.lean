import EntityWorld.Proofs.Fence.MirroredScheduler
import EntityWorld.Proofs.World.Priorities
import EntityWorld.Proofs.World.Sent
import EntityWorld.World.Frame

/-!
# Mirrored worlds

Worlds that differ in no more than a mirror allows, under systems that do alike, answer every public call
alike, commit the same entities and change the same life states at boundaries, and they stay mirrored.
Main statements: `Mirrored.applyBoundary` and `Mirrored.commit`.
-/
namespace EntityWorld

open List (Forall₂)

variable {σ : Type} {mirror : Mirror σ}

namespace Mirror

variable (mirror : Mirror σ)

/-- Errors that differ in the id that names an unknown entity only. -/
inductive Refused : WorldError → WorldError → Prop
  | same {cause : WorldError} : Refused cause cause
  | unknown {id id' : EntityId} (named : mirror.Named id id') :
      Refused (.unknownEntity id) (.unknownEntity id')

/-! ### What systems ask for -/

/-- Every query but for a change of the memory. -/
def plainQuery : Query.Request σ → Bool
  | .exchange _ => false
  | .kindOf _ | .find .. | .findKinds .. | .collection _ => true

inductive Queried : Query.Request σ → Query.Request σ → Prop
  | same {request : Query.Request σ} (plain : plainQuery request = true) : Queried request request
  | exchange {change change' : σ → σ} (changes : mirror.Change change change') :
      Queried (.exchange change) (.exchange change')

def Shown : {request request' : Query.Request σ} → Query.Answer request → Query.Answer request' → Prop
  | .collection _, .collection _, c, c' => c' = c.map (Collection.relabel mirror.relabel)
  | .exchange _, .exchange _, m, m' => mirror.Memory m m'
  | _, _, answer, answer' => HEq answer' answer

/-- What systems ask when they rebind. -/
def query : Correspondence (Query.interface σ) := ⟨mirror.Queried, mirror.Shown⟩

/-- Every request but for those that hand over an update or change the memory. -/
def plainDeclaration : Declaration.Request σ → Bool
  | .schedule _ | .start _ | .exchange _ => false
  | .stop _ | .has _ | .kindOf _ | .frame => true

inductive Declared : Declaration.Request σ → Declaration.Request σ → Prop
  | same {request : Declaration.Request σ} (plain : plainDeclaration request = true) :
      Declared request request
  | schedule {u u' : Update σ} (alike : u.Alike mirror u') : Declared (.schedule u) (.schedule u')
  | start {u u' : Update σ} (alike : u.Alike mirror u') : Declared (.start u) (.start u')
  | exchange {change change' : σ → σ} (changes : mirror.Change change change') :
      Declared (.exchange change) (.exchange change')

def Told : {request request' : Declaration.Request σ} →
    Declaration.Answer request → Declaration.Answer request' → Prop
  | .exchange _, .exchange _, m, m' => mirror.Memory m m'
  | _, _, answer, answer' => HEq answer' answer

/-- What systems ask when they declare. -/
def declaration : Correspondence (Declaration.interface σ) := ⟨mirror.Declared, mirror.Told⟩

end Mirror

/-- Systems that differ in what they rebind and declare only, and do both alike. -/
inductive System.Alike (mirror : Mirror σ) (s : System σ) : System σ → Prop
  | intro {rebind : Program (Query.interface σ) Unit}
      {declare : Program (Declaration.interface σ) (Except WorldError Unit)}
      (rebinds : s.rebind.Alike mirror.query (fun a b => b = a) rebind)
      (declares : s.declare.Alike mirror.declaration (Verdict mirror.Refused fun a b => b = a) declare) :
      Alike mirror s { s with rebind, declare }

namespace Shared.Mirrored

variable {s t : Shared σ} {f g : EntityId → EntityId}

/-- Changes of ids that agree with the mirror. -/
theorem relabelled (mirrored : Mirrored mirror s t)
    (agree : ∀ x, mirror.relabel (f x) = g (mirror.relabel x)) :
    Mirrored mirror (s.relabel f) (t.relabel g) := by
  have same : mirror.relabel ∘ f = g ∘ mirror.relabel := funext agree
  refine { mirrored with store := ?_, deferred := ?_ }
  · simp only [relabel, mirrored.store, Store.relabel_relabel, same]
  · simp only [relabel, mirrored.deferred, List.map_map, Function.comp_def, agree]

theorem store_entity? (mirrored : Mirrored mirror s t) (raw : Nat) :
    t.store.entity? raw = (s.store.entity? raw).map mirror.relabel := by
  rw [mirrored.store, Store.entity?_relabel]

theorem life (mirrored : Mirrored mirror s t) (raw : Nat) :
    (t.entity? raw).map EntityId.life = (s.entity? raw).map EntityId.life := by
  simp only [mirrored.entity?, Option.map_map, Function.comp_def, mirror.life_relabel]

theorem store_life (mirrored : Mirrored mirror s t) (raw : Nat) :
    (t.store.entity? raw).map EntityId.life = (s.store.entity? raw).map EntityId.life := by
  simp only [mirrored.store_entity?, Option.map_map, Function.comp_def, mirror.life_relabel]

end Shared.Mirrored

namespace Mirror

open EntityId (sent changeAt)

theorem relabel_sent (able : LifeState → Bool) (target : LifeState) {raws raws' : List Nat}
    (same : ∀ raw, raw ∈ raws' ↔ raw ∈ raws) (x : EntityId) :
    mirror.relabel (sent able target raws x) = sent able target raws' (mirror.relabel x) := by
  have goes : x.raw ∈ raws' ∧ able x.life = true ↔ x.raw ∈ raws ∧ able x.life = true :=
    and_congr_left' (same x.raw)
  unfold sent
  rw [mirror.raw_relabel, mirror.life_relabel, ← mirror.relabel_withLife, apply_ite mirror.relabel,
    if_congr goes rfl rfl]

theorem relabel_changeAt (raw : Nat) {f : EntityId → EntityId}
    (agree : ∀ x, mirror.relabel (f x) = f (mirror.relabel x)) (x : EntityId) :
    mirror.relabel (changeAt raw f x) = changeAt raw f (mirror.relabel x) := by
  unfold changeAt
  rw [mirror.raw_relabel, apply_ite mirror.relabel, agree]

end Mirror

namespace World

/-- Worlds that differ in no more than a mirror allows, and in the order of who is owed a change. -/
structure Mirrored (mirror : Mirror σ) (w v : World σ) : Prop where
  config : v.config = w.config
  shared : Shared.Mirrored mirror w.shared v.shared
  scheduler : w.scheduler.Alike mirror v.scheduler
  systems : Forall₂ (System.Alike mirror) w.systems v.systems
  registering : v.registering = w.registering
  unregistering : v.unregistering.Perm w.unregistering
  nextUnregistering : v.nextUnregistering.Perm w.nextUnregistering

variable {w v : World σ}

namespace Mirrored

/-! ### Public calls -/

theorem create (both : Mirrored mirror w v) (d : DefinitionId) :
    (v.create d).1 = (w.create d).1 ∧ Mirrored mirror (w.create d).2 (v.create d).2 := by
  obtain ⟨same, shared⟩ := both.shared.create d
  exact ⟨same, { both with shared }⟩

theorem createWith (both : Mirrored mirror w v) (types : List TypeId) :
    (v.createWith types).1 = (w.createWith types).1 ∧
      Mirrored mirror (w.createWith types).2 (v.createWith types).2 := by
  obtain ⟨same, shared⟩ := both.shared.createWith types
  exact ⟨same, { both with shared }⟩

theorem setDefinitionState (both : Mirrored mirror w v) (d : DefinitionId) (state : LoadState) :
    (v.setDefinitionState d state).1 = (w.setDefinitionState d state).1 ∧
      Mirrored mirror (w.setDefinitionState d state).2 (v.setDefinitionState d state).2 := by
  unfold World.setDefinitionState
  simp only [both.shared.store, Store.setLoadState_relabel]
  exact ⟨trivial, { both with shared := { both.shared with store := rfl } }⟩

theorem access {α β : Type} {R : α → β → Prop} (both : Mirrored mirror w v)
    {program : Program (Access.interface σ) α} {program' : Program (Access.interface σ) β}
    (does : program.Alike mirror.access R program') :
    R (w.access program).value.1 (v.access program').value.1 ∧
      Mirrored mirror (w.access program).value.2 (v.access program').value.2 ∧
        Forall₂ (Heard.Alike mirror.access) (program.heard Access.perform w.shared)
          (program'.heard Access.perform v.shared) := by
  obtain ⟨same, shared, heard⟩ := does.run (Shared.keptBy_perform mirror) both.shared
  exact ⟨same, { both with shared }, heard⟩

theorem setPriority (both : Mirrored mirror w v) (sound : w.shared.Sound) (sound' : v.shared.Sound)
    {id id' : EntityId} (named : mirror.Named id id') (p : Priority)
    (agree : ∀ x, mirror.relabel (x.withPriority p) = (mirror.relabel x).withPriority p) :
    Verdict mirror.Refused (fun x y => y = mirror.relabel x) (w.setPriority id p).1
        (v.setPriority id' p).1 ∧
      Mirrored mirror (w.setPriority id p).2 (v.setPriority id' p).2 := by
  rw [setPriority_eq sound, setPriority_eq sound', mirror.raw_of_named named, both.shared.entity?]
  cases w.shared.entity? id.raw with
  | none => exact ⟨.error (.unknown named), both⟩
  | some x =>
    have changed := mirror.relabel_changeAt id.raw agree
    exact ⟨.ok (agree x).symm, { both with shared := both.shared.relabelled changed }⟩

theorem destroy (both : Mirrored mirror w v) (sound : w.shared.Sound) (sound' : v.shared.Sound)
    {id id' : EntityId} (named : mirror.Named id id') :
    Verdict (Failure.Alike mirror.Refused) (fun _ _ => True) (w.destroy id).value.1
        (v.destroy id').value.1 ∧
      Mirrored mirror (w.destroy id).value.2 (v.destroy id').value.2 := by
  rw [destroy_eq sound, destroy_eq sound', mirror.raw_of_named named, both.shared.entity?]
  cases w.shared.entity? id.raw with
  | none => exact ⟨.error (.error (.unknown named)), both⟩
  | some x =>
    simp only [Option.map_some, mirror.life_relabel]
    split
    next able =>
      exact ⟨.ok trivial, { both with
        shared := both.shared.relabelled (mirror.relabel_sent canUnregister .unregister fun _ => .rfl)
        nextUnregistering := both.nextUnregistering.append_right _ }⟩
    next unable => exact ⟨.ok trivial, both⟩

/-! ### Boundaries -/

theorem applyDestroys (both : Mirrored mirror w v) (sound : w.shared.Sound) (sound' : v.shared.Sound)
    {requests requests' : List EntityId}
    (same : ∀ raw, raw ∈ requests'.map EntityId.raw ↔ raw ∈ requests.map EntityId.raw) (count : Nat) :
    ∃ counted w' v', (World.applyDestroys requests count w).value = (.ok counted, w') ∧
      (World.applyDestroys requests' count v).value = (.ok counted, v') ∧
        Mirrored mirror w' v' ∧ w'.shared.Sound ∧ v'.shared.Sound := by
  obtain ⟨going, goes, done, after⟩ := applyDestroys_eq_relabel requests count sound
  obtain ⟨going', goes', done', after'⟩ := applyDestroys_eq_relabel requests' count sound'
  have perm := goes.perm goes' same both.shared.life
  rw [perm.length_eq] at done'
  exact ⟨_, _, _, done, done', { both with
    shared := both.shared.relabelled (mirror.relabel_sent canUnregister .unregister same)
    nextUnregistering := both.nextUnregistering.append perm }, after, after'⟩

theorem advance (both : Mirrored mirror w v) (sound : w.shared.Sound) (sound' : v.shared.Sound)
    {source target : LifeState} (step : source.canBecome target = true) {listed listed' : List Nat}
    (same : ∀ raw, raw ∈ listed' ↔ raw ∈ listed) (count : Nat) :
    ∃ counted w' v', (World.advance source target listed count w).value = (.ok counted, w') ∧
      (World.advance source target listed' count v).value = (.ok counted, v') ∧
        Mirrored mirror w' v' := by
  obtain ⟨going, goes, done⟩ := advance_eq_relabel listed count sound step
  obtain ⟨going', goes', done'⟩ := advance_eq_relabel listed' count sound' step
  have agree : mirror.relabel ∘ EntityId.sent (fun life => life = source) target listed =
      EntityId.sent (fun life => life = source) target listed' ∘ mirror.relabel :=
    funext (mirror.relabel_sent _ target same)
  rw [(goes.perm goes' same both.shared.store_life).length_eq] at done'
  refine ⟨_, _, _, done, done', { both with shared := { both.shared with store := ?_ } }⟩
  simp only [both.shared.store, Store.relabel_relabel, agree]

theorem applyBoundary (both : Mirrored mirror w v) (sound : w.shared.Sound) (sound' : v.shared.Sound)
    (fence : FenceId) (life : LifecycleReport) :
    ∃ life' w' v', (w.applyBoundary fence life).value = (.ok life', w') ∧
      (v.applyBoundary fence life).value = (.ok life', v') ∧ Mirrored mirror w' v' := by
  have taken (s : Shared σ) (sound : s.Sound) : ({ s with destroys := [] } : Shared σ).Sound :=
    (Shared.Grows.of_keeps (t := { s with destroys := [] }) sound (.refl sound.store) rfl rfl rfl).sound
  obtain ⟨unregistered, w₁, v₁, done, done', both₁, sound₁, sound₁'⟩ :=
    applyDestroys (w := { w with shared.destroys := [] }) (v := { v with shared.destroys := [] })
      { both with shared := { both.shared with destroys := fun _ => .rfl } }
      (taken _ sound) (taken _ sound') both.shared.destroys life.unregistered
  have registering (raw : Nat) : raw ∈ v₁.registering ↔ raw ∈ w₁.registering := by
    rw [both₁.registering]
  simp only [World.applyBoundary, Logged.value_bind, done, done']
  split
  next =>
    obtain ⟨promoted, w₂, v₂, done, done', both₂⟩ :=
      advance (w := { w₁ with registering := [] }) (v := { v₁ with registering := [] })
        { both₁ with registering := rfl } sound₁ sound₁'
        (rfl : LifeState.canBecome .register .alive = true) registering life.promoted
    simp only [Logged.value_bind, done, done', Logged.value_pure]
    exact ⟨_, _, _, rfl, rfl, both₂⟩
  next =>
    split
    next =>
      obtain ⟨destroyed, w₂, v₂, done, done', both₂⟩ :=
        advance (w := { w₁ with unregistering := [] }) (v := { v₁ with unregistering := [] })
          { both₁ with unregistering := .nil } sound₁ sound₁'
          (rfl : LifeState.canBecome .unregister .destroyed = true)
          (fun _ => both₁.unregistering.mem_iff) life.destroyed
      simp only [Logged.value_bind, done, done', Logged.value_pure]
      exact ⟨_, _, _, rfl, rfl, both₂⟩
    next => exact ⟨_, _, _, rfl, rfl, both₁⟩

/-! ### The commit -/

theorem materialize (both : Mirrored mirror w v) (entries : List Deferred) :
    (World.materialize (entries.map fun d => { d with id := mirror.relabel d.id }) v).value.1 =
        (World.materialize entries w).value.1 ∧
      Mirrored mirror (World.materialize entries w).value.2
        (World.materialize (entries.map fun d => { d with id := mirror.relabel d.id }) v).value.2 := by
  induction entries generalizing w v with
  | nil => exact ⟨rfl, both⟩
  | cons entry rest ih =>
    have made : (v.shared.store.getOrCreate v.shared.registry entry.sequence).value =
        ((w.shared.store.getOrCreate w.shared.registry entry.sequence).value.1,
          (w.shared.store.getOrCreate w.shared.registry entry.sequence).value.2.relabel mirror.relabel) := by
      rw [both.shared.store, both.shared.registry, Store.getOrCreate_relabel]
    simp only [List.map_cons, World.materialize, Logged.value_bind, made]
    rcases (w.shared.store.getOrCreate w.shared.registry entry.sequence).value with ⟨cause | a, store⟩
    · exact ⟨rfl, { both with shared := { both.shared with store := rfl } }⟩
    · simp only [Store.create_relabel mirror.raw_relabel]
      rcases store.create a entry.id with ⟨cause | ok, store⟩
      · exact ⟨rfl, { both with shared := { both.shared with store := rfl } }⟩
      · exact ih { both with shared := { both.shared with store := rfl } }

theorem recycle (both : Mirrored mirror w v) (removed : List EntityId) :
    (World.recycle (removed.map mirror.relabel) v).value.1 = (World.recycle removed w).value.1 ∧
      Mirrored mirror (World.recycle removed w).value.2
        (World.recycle (removed.map mirror.relabel) v).value.2 := by
  induction removed generalizing w v with
  | nil => exact ⟨rfl, both⟩
  | cons id rest ih =>
    have released : v.shared.allocator.release .strict (mirror.relabel id) =
        w.shared.allocator.release .strict id := by
      simp only [both.shared.allocator, IdAllocator.release, EntityId.isNull, mirror.raw_relabel]
      rfl
    simp only [List.map_cons, World.recycle, Logged.value_bind, released]
    rcases (w.shared.allocator.release .strict id).value with ⟨misuse | ok, allocator⟩
    · exact ⟨rfl, { both with shared := { both.shared with allocator := rfl } }⟩
    · exact ih { both with shared := { both.shared with allocator := rfl } }

theorem oweChanges (both : Mirrored mirror w v) (report : CommitReport) :
    Mirrored mirror (w.oweChanges report) (v.oweChanges (report.relabel mirror.relabel)) := by
  refine { both with registering := ?_, unregistering := ?_, nextUnregistering := .nil }
  · simp only [World.oweChanges, CommitReport.relabel, both.registering, Array.toList_map,
      List.filter_map, List.map_map, Function.comp_def, mirror.life_relabel, mirror.raw_relabel]
  · exact both.unregistering.append both.nextUnregistering

theorem commit (both : Mirrored mirror w v) :
    v.commit.value.1 = w.commit.value.1.map (CommitReport.relabel mirror.relabel) ∧
      Mirrored mirror w.commit.value.2 v.commit.value.2 := by
  obtain ⟨same, stored⟩ :=
    materialize (w := { w with shared.deferred := [] }) (v := { v with shared.deferred := [] })
      { both with shared := { both.shared with deferred := rfl } } w.shared.deferred
  rw [← both.shared.deferred] at same stored
  simp only [World.commit, Logged.value_bind]
  generalize (World.materialize w.shared.deferred { w with shared.deferred := [] }).value = r at same stored ⊢
  generalize (World.materialize v.shared.deferred { v with shared.deferred := [] }).value = r' at same stored ⊢
  obtain ⟨result, w₁⟩ := r
  obtain ⟨result', v₁⟩ := r'
  obtain rfl : result' = result := same
  cases result' with
  | error cause => exact ⟨rfl, stored⟩
  | ok =>
    have committed := Store.commit_relabel mirror.raw_relabel mirror.life_relabel w₁.shared.store
    rw [← stored.shared.store] at committed
    simp only [Logged.value_bind, committed]
    rcases w₁.shared.store.commit.value with ⟨(cause | fault) | report, store⟩
    · exact ⟨rfl, { stored with shared := { stored.shared with store := rfl } }⟩
    · exact ⟨rfl, { stored with shared := { stored.shared with store := rfl } }⟩
    · obtain ⟨same, recycled⟩ :=
        recycle (w := { w₁ with shared.store := store })
          (v := { v₁ with shared.store := store.relabel mirror.relabel })
          { stored with shared := { stored.shared with store := rfl } } report.removed.toList
      rw [← Array.toList_map] at same recycled
      simp only [Except.map, CommitReport.relabel, Logged.value_bind]
      generalize (World.recycle report.removed.toList _).value = r at same recycled ⊢
      generalize (World.recycle (report.removed.map mirror.relabel).toList _).value = r' at same recycled ⊢
      obtain ⟨result, w₂⟩ := r
      obtain ⟨result', v₂⟩ := r'
      obtain rfl : result' = result := same
      cases result' with
      | error fault => exact ⟨rfl, recycled⟩
      | ok => exact ⟨rfl, recycled.oweChanges report⟩

end Mirrored

end World

end EntityWorld
