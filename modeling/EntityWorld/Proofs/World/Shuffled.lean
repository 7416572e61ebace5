import EntityWorld.Proofs.World.Deferral
import EntityWorld.Proofs.World.MirroredRun

/-!
# The order of destroy requests

Only the raw ids that are requested to be destroyed matter: the order of requests, repetitions and the
bits beside raw ids leave no trace but the order in which the world notes who is owed a change, and that
order shows nowhere. Main statement: `unordered_of_reaches`.
-/
namespace EntityWorld

open List (Forall₂)

variable {σ : Type}

/-! ### A mirror in which all is the same -/

/-- Nothing differs but the order of destroy requests. -/
def Mirror.exact : Mirror σ where
  relabel := id
  raw_relabel _ := rfl
  life_relabel _ := rfl
  relabel_withLife _ _ := rfl
  relabel_ofRaw _ := rfl
  Named x y := y = x
  raw_of_named same := congrArg EntityId.raw same
  Memory m m' := m' = m
  Change change change' := change' = change
  memory_of_change changes same := by rw [changes, same]
  Event event event' := event' = event

theorem Collection.relabel_id (c : Collection) : c.relabel id = c := relabel_of_fixed fun _ _ => rfl

theorem Store.relabel_id (s : Store) : s.relabel id = s := relabel_of_fixed fun _ _ => rfl

theorem CommitReport.relabel_id (report : CommitReport) : report.relabel id = report := by
  simp only [relabel, Array.map_id]

namespace Mirror

theorem map_relabel_exact (c : Option Collection) :
    c.map (Collection.relabel (exact (σ := σ)).relabel) = c := by
  cases c with
  | none => rfl
  | some c => exact congrArg some c.relabel_id

theorem strict_access : (exact (σ := σ)).access.Strict where
  command := by
    intro request request'
    constructor
    · intro requested
      cases requested with
      | same => rfl
      | destroy named => exact congrArg Access.Request.destroy named
      | exchange changes => exact congrArg Access.Request.exchange changes
      | log events => exact congrArg Access.Request.log events
    · rintro rfl
      cases request' with
      | destroy id => exact .destroy rfl
      | exchange change => exact .exchange rfl
      | log event => exact .log rfl
      | _ => exact .same rfl
  answer := by
    intro request answer answer'
    cases request with
    | collection a => exact iff_of_eq (congrArg (answer' = ·) (map_relabel_exact answer))
    | entities a => exact iff_of_eq (congrArg (answer' = ·) (Array.map_id answer))
    | entity raw => exact iff_of_eq (congrArg (answer' = ·) (congrFun Option.map_id answer))
    | exchange change => exact .rfl
    | _ => exact heq_iff_eq

theorem strict_query : (exact (σ := σ)).query.Strict where
  command := by
    intro request request'
    constructor
    · intro queried
      cases queried with
      | same => rfl
      | exchange changes => exact congrArg Query.Request.exchange changes
    · rintro rfl
      cases request' with
      | exchange change => exact .exchange rfl
      | _ => exact .same rfl
  answer := by
    intro request answer answer'
    cases request with
    | collection a => exact iff_of_eq (congrArg (answer' = ·) (map_relabel_exact answer))
    | exchange change => exact .rfl
    | _ => exact heq_iff_eq

end Mirror

open Mirror (exact)

theorem Update.alike_exact {u u' : Update σ} : u.Alike exact u' ↔ u' = u := by
  constructor
  · rintro @⟨body, does⟩
    obtain rfl : body = u.body :=
      funext fun context => (Program.alike_iff_of_strict Mirror.strict_access).mp (does context)
    rfl
  · rintro rfl
    exact .intro fun context => (Program.alike_iff_of_strict Mirror.strict_access).mpr rfl

theorem Mirror.strict_declaration : (exact (σ := σ)).declaration.Strict where
  command := by
    intro request request'
    constructor
    · intro declared
      cases declared with
      | same => rfl
      | schedule alike => exact congrArg Declaration.Request.schedule (Update.alike_exact.mp alike)
      | start alike => exact congrArg Declaration.Request.start (Update.alike_exact.mp alike)
      | exchange changes => exact congrArg Declaration.Request.exchange changes
    · rintro rfl
      cases request' with
      | schedule update => exact .schedule (Update.alike_exact.mpr rfl)
      | start update => exact .start (Update.alike_exact.mpr rfl)
      | exchange change => exact .exchange rfl
      | _ => exact .same rfl
  answer := by
    intro request answer answer'
    cases request with
    | exchange change => exact .rfl
    | _ => exact heq_iff_eq

theorem Mirror.refused_exact {cause cause' : WorldError} :
    (exact (σ := σ)).Refused cause cause' ↔ cause' = cause := by
  constructor
  · intro refused
    cases refused with
    | same => rfl
    | unknown named => exact congrArg WorldError.unknownEntity named
  · rintro rfl
    exact .same

theorem Verdict.iff_eq {ε α : Type} {E : ε → ε → Prop} {R : α → α → Prop}
    (errors : ∀ {e e'}, E e e' ↔ e' = e) (answers : ∀ {a a'}, R a a' ↔ a' = a) {r r' : Except ε α} :
    Verdict E R r r' ↔ r' = r := by
  constructor
  · intro verdict
    cases verdict with
    | error refused => exact congrArg Except.error (errors.mp refused)
    | ok same => exact congrArg Except.ok (answers.mp same)
  · rintro rfl
    cases r' with
    | error => exact .error (errors.mpr rfl)
    | ok => exact .ok (answers.mpr rfl)

theorem Failure.alike_iff_eq {ε : Type} {E : ε → ε → Prop} (errors : ∀ {e e'}, E e e' ↔ e' = e)
    {f f' : Failure ε} : Failure.Alike E f f' ↔ f' = f := by
  constructor
  · intro alike
    cases alike with
    | error refused => exact congrArg Failure.error (errors.mp refused)
    | fault fault => rfl
  · rintro rfl
    cases f' with
    | error => exact .error (errors.mpr rfl)
    | fault fault => exact .fault fault

theorem ScheduledUpdate.alike_exact {d d' : ScheduledUpdate σ} : d.Alike exact d' ↔ d' = d := by
  obtain ⟨update, sequence⟩ := d
  obtain ⟨update', sequence'⟩ := d'
  constructor
  · rintro ⟨same, rfl⟩
    obtain rfl : update' = update := Update.alike_exact.mp same
    rfl
  · intro same
    cases same
    exact ⟨Update.alike_exact.mpr rfl, rfl⟩

theorem Fence.alike_exact {f f' : Fence σ} : f.Alike exact f' ↔ f' = f := by
  obtain ⟨id, oneShots, constants⟩ := f
  obtain ⟨id', oneShots', constants'⟩ := f'
  have same {l l' : List (ScheduledUpdate σ)} : Forall₂ (ScheduledUpdate.Alike exact) l l' ↔ l' = l :=
    forall₂_iff_eq fun _ _ => ScheduledUpdate.alike_exact
  constructor
  · rintro ⟨rfl, once, always⟩
    obtain rfl : oneShots' = oneShots := same.mp once
    obtain rfl : constants' = constants := same.mp always
    rfl
  · intro equal
    cases equal
    exact ⟨rfl, same.mpr rfl, same.mpr rfl⟩

theorem Scheduler.alike_exact {s t : Scheduler σ} : s.Alike exact t ↔ t = s := by
  constructor
  · rintro @⟨fences, both⟩
    obtain rfl := (forall₂_iff_eq fun _ _ => Fence.alike_exact).mp both
    rfl
  · rintro rfl
    exact .intro ((forall₂_iff_eq fun _ _ => Fence.alike_exact).mpr rfl)

theorem System.alike_exact {s s' : System σ} : s.Alike exact s' ↔ s' = s := by
  have verdict : Verdict (exact (σ := σ)).Refused (fun (a b : Unit) => b = a) = fun a b => b = a :=
    funext fun _ => funext fun _ => propext (Verdict.iff_eq Mirror.refused_exact .rfl)
  constructor
  · rintro @⟨rebind, declare, rebinds, declares⟩
    rw [verdict] at declares
    obtain rfl := (Program.alike_iff_of_strict Mirror.strict_query).mp rebinds
    obtain rfl := (Program.alike_iff_of_strict Mirror.strict_declaration).mp declares
    rfl
  · rintro rfl
    refine .intro ((Program.alike_iff_of_strict Mirror.strict_query).mpr rfl) ?_
    rw [verdict]
    exact (Program.alike_iff_of_strict Mirror.strict_declaration).mpr rfl

/-! ### Worlds that differ in the order of requests -/

/-- The same raw ids are requested to be destroyed and owed a change, in another order. -/
inductive World.Shuffled (w : World σ) : World σ → Prop
  | intro {destroys : List EntityId} {unregistering nextUnregistering : List Nat}
      (requested : ∀ raw,
        raw ∈ destroys.map EntityId.raw ↔ raw ∈ w.shared.destroys.map EntityId.raw)
      (owed : unregistering.Perm w.unregistering)
      (leaving : nextUnregistering.Perm w.nextUnregistering) :
      Shuffled w { w with shared.destroys := destroys, unregistering, nextUnregistering }

theorem World.shuffled_iff {w v : World σ} : Shuffled w v ↔ Mirrored exact w v := by
  have waiting (entries : List Deferred) :
      (entries.map fun d => { d with id := (exact (σ := σ)).relabel d.id }) = entries :=
    List.map_id entries
  constructor
  · rintro @⟨destroys, unregistering, nextUnregistering, requested, owed, leaving⟩
    exact
      { config := rfl
        shared := ⟨rfl, rfl, (Store.relabel_id _).symm, rfl, (waiting _).symm, requested, rfl⟩
        scheduler := Scheduler.alike_exact.mpr rfl
        systems := (forall₂_iff_eq fun _ _ => System.alike_exact).mpr rfl
        registering := rfl
        unregistering := owed
        nextUnregistering := leaving }
  · rintro ⟨config, ⟨registry, locks, store, allocator, deferred, requested, memory⟩, scheduler, systems,
      registering, owed, leaving⟩
    replace store := store.trans (Store.relabel_id _)
    replace deferred := deferred.trans (waiting _)
    obtain ⟨config', ⟨registry', locks', store', allocator', destroys', deferred', memory'⟩, scheduler',
      systems', registering', unregistering', nextUnregistering'⟩ := v
    obtain rfl : scheduler' = w.scheduler := Scheduler.alike_exact.mp scheduler
    obtain rfl : systems' = w.systems := (forall₂_iff_eq fun _ _ => System.alike_exact).mp systems
    obtain rfl : memory' = w.shared.memory := memory
    dsimp only at config registry locks store allocator deferred registering
    subst config registry locks store allocator deferred registering
    exact .intro requested owed leaving

namespace Moment

/-- The same moment with these requests in the queue. -/
def queue (requests : List EntityId) (m : Moment σ) : Moment σ :=
  m.put { m.world with shared.destroys := requests }

/-- Both worlds stand at the same place, and differ in the order of requests only. -/
inductive Shuffled (m : Moment σ) : Moment σ → Prop
  | intro {v : World σ} (worlds : World.Shuffled m.world v) : Shuffled m (m.put v)

theorem shuffled_iff {m n : Moment σ} : m.Shuffled n ↔ m.Mirrored exact n := by
  constructor
  · rintro ⟨worlds⟩
    have both := World.shuffled_iff.mp worlds
    cases m with
    | resting w => exact .resting both
    | declaring w => exact .declaring both
    | passing w left => exact .passing both
    | leaving w fence left => exact .leaving both
  · intro mirrored
    cases mirrored with
    | resting both | declaring both | passing both | leaving both =>
      exact .intro (World.shuffled_iff.mpr both)

end Moment

/-- The same operation; a frame may take another time. -/
inductive Operation.Retimed : Operation σ → Operation σ → Prop
  | ask (ask : Ask σ) : Retimed (.ask ask) (.ask ask)
  | frame (timing timing' : Timing) : Retimed (.frame timing) (.frame timing')

theorem Ask.alike_exact (ask : Ask σ) : ask.Alike exact ask := by
  cases ask with
  | create d => exact .create d
  | createWith types => exact .createWith types
  | destroy id => exact .destroy rfl
  | setPriority id p => exact .setPriority rfl fun _ => rfl
  | setDefinitionState d state => exact .setDefinitionState d state
  | access program => exact .access ((Program.alike_iff_of_strict Mirror.strict_access).mpr rfl)
  | attempt => exact .attempt
  | declare => exact .declare
  | execute moves => exact .execute moves
  | bound life => exact .bound life
  | finish => exact .finish

/-- What is answered to the same question is the same. -/
theorem Dealing.answer_eq {ask : Ask σ} {answer answer' : ask.Answer}
    (alike : Dealing.Alike exact ⟨ask, answer⟩ ⟨ask, answer'⟩) : answer' = answer := by
  have heard {h h' : List (Heard (Access.interface σ))}
      (hear : Forall₂ (Heard.Alike exact.access) h h') : h' = h :=
    (forall₂_iff_eq fun _ _ => Heard.alike_iff_of_strict Mirror.strict_access).mp hear
  cases ask with
  | create | createWith | setDefinitionState | bound | finish =>
    cases alike
    rfl
  | destroy id =>
    cases alike with
    | destroy verdict =>
      exact (Verdict.iff_eq (Failure.alike_iff_eq Mirror.refused_exact) (by simp)).mp verdict
  | setPriority id p =>
    cases alike with
    | setPriority verdict => exact (Verdict.iff_eq Mirror.refused_exact .rfl).mp verdict
  | access program =>
    cases alike with
    | access hear same =>
      rw [heard hear, same _ ((Program.alike_iff_of_strict Mirror.strict_access).mpr rfl)]
  | attempt =>
    cases alike with
    | attempt => exact CommitReport.relabel_id answer
  | declare =>
    cases alike with
    | declare failed =>
      cases failed with
      | none => rfl
      | some both => exact congrArg some (Prod.ext both.1 (Mirror.refused_exact.mp both.2))
  | execute moves =>
    cases alike with
    | execute hear => exact heard hear

namespace Moment

variable {m n : Moment σ} {operation operation' : Operation σ}

/-- What differs shows in nothing that the worlds do. -/
theorem Shuffled.operate? (shuffled : m.Shuffled n) (settled : World.Settled m)
    (settled' : World.Settled n) (same : operation.Retimed operation') :
    Option.Rel (fun a b => b.1 = a.1 ∧ a.2.Shuffled b.2) (m.operate? operation)
      (n.operate? operation') := by
  have mirrored := Moment.shuffled_iff.mp shuffled
  cases same with
  | ask ask =>
    refine rel_map_of_rel (mirrored.serve? settled.sound settled'.sound ask.alike_exact) fun a b both => ?_
    exact ⟨by rw [Dealing.answer_eq both.1], Moment.shuffled_iff.mpr both.2⟩
  | frame timing timing' =>
    have both := mirrored.operate? settled.sound settled'.sound (.frame timing timing')
    generalize done : m.operate? (.frame timing) = a? at both ⊢
    generalize n.operate? (.frame timing') = b? at both ⊢
    cases both with
    | none => exact .none
    | @some a b both =>
      obtain ⟨sight, next⟩ := a
      obtain ⟨sight', next'⟩ := b
      obtain ⟨alike, after⟩ := both
      obtain ⟨answer, rfl⟩ := exists_answer_of_frame done
      cases alike with
      | frame verdict =>
        have same := (Verdict.iff_eq Mirror.refused_exact .rfl).mp verdict
        exact .some ⟨congrArg Sight.frame same, Moment.shuffled_iff.mpr after⟩

theorem Shuffled.operates? (shuffled : m.Shuffled n) (settled : World.Settled m)
    (settled' : World.Settled n) {operations operations' : List (Operation σ)}
    (same : Forall₂ Operation.Retimed operations operations') :
    Option.Rel (fun a b => b.1 = a.1 ∧ a.2.Shuffled b.2) (m.operates? operations)
      (n.operates? operations') := by
  induction same generalizing m n with
  | nil => exact .some ⟨rfl, shuffled⟩
  | @cons operation operation' _ _ first _ ih =>
    have both := shuffled.operate? settled settled' first
    simp only [Moment.operates?]
    generalize done : m.operate? operation = a? at both ⊢
    generalize done' : n.operate? operation' = b? at both ⊢
    cases both with
    | none => exact .none
    | some both =>
      have later := ih both.2 (settled_of_operate? settled done) (settled_of_operate? settled' done')
      refine rel_map_of_rel later fun _ _ rest => ⟨?_, rest.2⟩
      rw [both.1, rest.1]

end Moment

namespace World

variable {w v w₀ : World σ} {past : List (Passage σ)} {m : Moment σ} {requests requests' : List EntityId}

theorem Shuffled.entity? (shuffled : Shuffled w v) (raw : Nat) : v.entity? raw = w.entity? raw := by
  cases shuffled
  rfl

/-- It makes no difference which of the queues there is. -/
structure Unordered (m : Moment σ) (requests requests' : List EntityId) : Prop where
  -- What the boundary of a fence counts and what it leaves, if the world stands there.
  boundary : ∀ w fence left life, m = .leaving w fence left → ∃ life' u u',
    (applyBoundary { w with shared.destroys := requests } fence life).value = (.ok life', u) ∧
      (applyBoundary { w with shared.destroys := requests' } fence life).value = (.ok life', u') ∧
        (∀ raw, u'.entity? raw = u.entity? raw) ∧ Shuffled u u'
  -- Whatever is done, it comes to the same.
  operations : ∀ operations operations', Forall₂ Operation.Retimed operations operations' →
    Option.Rel (fun a b => b.1 = a.1 ∧ a.2.Shuffled b.2)
      ((m.queue requests).operates? operations) ((m.queue requests').operates? operations')

theorem shuffled_of_queues (w : World σ)
    (same : ∀ raw, raw ∈ requests'.map EntityId.raw ↔ raw ∈ requests.map EntityId.raw) :
    Shuffled { w with shared.destroys := requests } { w with shared.destroys := requests' } :=
  .intro same (.refl w.unregistering) (.refl w.nextUnregistering)

theorem sound_of_queue {s : Shared σ} (sound : s.Sound) (requests : List EntityId) :
    ({ s with destroys := requests } : Shared σ).Sound :=
  (Shared.Grows.of_keeps (t := { s with destroys := requests }) sound (.refl sound.store) rfl rfl rfl).sound

theorem settled_queue (settled : Settled m) (requests : List EntityId) :
    Settled (m.queue requests) := by
  have sound := sound_of_queue settled.sound requests
  cases m with
  | resting | declaring | passing | leaving => exact ⟨sound, settled.planned, settled.placed⟩

/-- Queues that request the same raw ids come to the same. -/
theorem unordered_of_reaches {config : WorldConfig} {types : List ComponentType}
    {systems : List (System σ)} {memory : σ}
    (built : (World.new config types systems memory).value = .ok w₀) (reached : Reaches w₀ past m)
    (same : ∀ raw, raw ∈ requests'.map EntityId.raw ↔ raw ∈ requests.map EntityId.raw) :
    Unordered m requests requests' := by
  have settled := settled_of_reaches (started_of_new built) reached
  constructor
  · rintro w fence left life rfl
    have sound : w.shared.Sound := settled.sound
    have mirrored := shuffled_iff.mp (shuffled_of_queues w same)
    obtain ⟨life', u, u', done, done', after⟩ :=
      mirrored.applyBoundary (sound_of_queue sound requests) (sound_of_queue sound requests') fence life
    have shuffled := shuffled_iff.mpr after
    exact ⟨life', u, u', done, done', shuffled.entity?, shuffled⟩
  · intro operations operations' retimed
    have shuffled : (m.queue requests).Shuffled (m.queue requests') := by
      have worlds := shuffled_of_queues m.world same
      cases m with
      | resting | declaring | passing | leaving => exact .intro worlds
    exact shuffled.operates? (settled_queue settled requests) (settled_queue settled requests') retimed

/-- Two requests in another order, one of them twice and once with other bits: the frame notes in another
order who is owed a change. -/
theorem unordered_of_repeatedRequest : ∃ w₀ past w requests requests',
    (World.new .singleThreaded ageNameTypes [failsFirst] 0).value = .ok w₀ ∧
      Reaches w₀ past (.resting w) ∧ requests = [.ofRaw 1, .ofRaw 3] ∧
      requests' = [(EntityId.ofRaw 3).withPriority .high, .ofRaw 1, .ofRaw 3] ∧
      (({ w with shared.destroys := requests } : World Nat).runFrame .zero).value.1.map
        FrameReport.lifecycle = .ok ⟨1, 2, 1⟩ ∧
      (({ w with shared.destroys := requests } : World Nat).runFrame .zero).value.2.nextUnregistering =
        [1, 3] ∧
      (({ w with shared.destroys := requests' } : World Nat).runFrame .zero).value.2.nextUnregistering =
        [3, 1] ∧
      Unordered (.resting w) requests requests' := by
  let requests : List EntityId := [.ofRaw 1, .ofRaw 3]
  let requests' : List EntityId := [(EntityId.ofRaw 3).withPriority .high, .ofRaw 1, .ofRaw 3]
  have ran : ((session? .singleThreaded ageNameTypes [failsFirst] 0
      [.createWith [⟨1⟩], .createWith [⟨1⟩], .createWith [⟨2⟩], .runFrame .zero, .runFrame .zero]).any
        fun w =>
          let first := (({ w with shared.destroys := requests } : World Nat).runFrame .zero).value
          let second := (({ w with shared.destroys := requests' } : World Nat).runFrame .zero).value
          first.1.map FrameReport.lifecycle = .ok ⟨1, 2, 1⟩ ∧
            first.2.nextUnregistering = [1, 3] ∧ second.2.nextUnregistering = [3, 1]) = true := by
    decide +kernel
  obtain ⟨w, made, facts⟩ := (Option.any_eq_true _ _).mp ran
  obtain ⟨lives, leaving, leaving'⟩ := of_decide_eq_true facts
  obtain ⟨w₀, past, built, reached⟩ := reaches_of_session? made
  have same (raw : Nat) : raw ∈ requests'.map EntityId.raw ↔ raw ∈ requests.map EntityId.raw := by
    have raws : requests.map EntityId.raw = [1, 3] := by decide
    have raws' : requests'.map EntityId.raw = [3, 1, 3] := by decide
    rw [raws, raws']
    simp only [List.mem_cons, List.not_mem_nil, or_false]
    omega
  exact ⟨w₀, past, w, requests, requests', built, reached, rfl, rfl, lives, leaving, leaving',
    unordered_of_reaches built reached same⟩

end World

end EntityWorld
