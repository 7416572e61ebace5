import EntityWorld.Proofs.Archetype.Bindings
import EntityWorld.Proofs.Archetype.Updates

/-!
# What a store refuses

A call that a store answers with an error leaves it as it is, so in a list of calls those that fail can
be left out. Main statements: `refused_of_failure` and `play_successes`.
-/
namespace EntityWorld

namespace Collection

variable {c c' : Collection} {registry : Registry} {sequence : Sequence} {id next : EntityId}
  {cause : CollectionError}

/-- A collection that refuses to be bound stays as it is. -/
theorem setUp_of_error {d? : Option DefinitionId}
    (failed : (c.setUp registry d? sequence).value = (.error cause, c')) : c' = c := by
  unfold setUp at failed
  split at failed
  · cases failed
    rfl
  · split at failed
    · cases failed
    · simp only [Logged.value_bind, Logged.value_pure] at failed
      cases failed

/-- An update that fails changes nothing. -/
theorem update_of_error (failed : c.update id next = (.error cause, c')) : c' = c := by
  have updated := c.updated id next
  rw [failed] at updated
  cases updated with
  | mismatch | illegal | absent => rfl

theorem unknown_of_buildColumns {kinds : List Kind}
    (failed : buildColumns registry kinds = .error cause) :
    ∃ kind ∈ kinds, registry.type? kind = none ∧ cause = .unknownKind kind := by
  induction kinds with
  | nil => cases failed
  | cons kind rest ih =>
    simp only [buildColumns, Registry.createColumn] at failed
    cases first : registry.type? kind with
    | none =>
      rw [first] at failed
      cases failed
      exact ⟨kind, List.mem_cons_self, first, rfl⟩
    | some type =>
      cases tail : buildColumns registry rest with
      | error cause' =>
        simp only [first, tail, Except.map, Except.error.injEq] at failed
        obtain ⟨other, member, unknown, rfl⟩ := ih (failed ▸ tail)
        exact ⟨other, List.mem_cons_of_mem kind member, unknown, rfl⟩
      | ok columns => simp [first, tail, Except.map] at failed

/-- A collection is bound for the first time to kinds that there are. -/
theorem bind_of_error (failed : unbound.bind registry sequence = .error cause) :
    (sequence.isEmpty = true ∧ cause = .emptySequence) ∨
      ∃ kind ∈ sequence.kinds, registry.type? kind = none ∧ cause = .unknownKind kind := by
  simp only [bind] at failed
  split at failed
  next empty =>
    cases failed
    exact .inl ⟨empty, rfl⟩
  · have fresh : unbound.sequence.isEmpty = true := rfl
    rw [if_pos fresh] at failed
    cases built : buildColumns registry sequence.kinds with
    | error cause' =>
      simp only [built, Except.map, Except.error.injEq] at failed
      exact .inr (unknown_of_buildColumns (failed ▸ built))
    | ok columns => simp [built, Except.map] at failed

end Collection

namespace Store

variable {s t : Store} {registry : Registry} {sequence : Sequence} {cause : WorldError}

/-! ### Calls that fail -/

/-- The error that is answered, if one is. -/
def failureOf? {α : Type} : Except WorldError α → Option WorldError
  | .ok _ => none
  | .error cause => some cause

/-- The error that a call answers with. Commits are told of elsewhere. -/
def failure? (s : Store) : Call → Option WorldError
  | .getOrCreate registry sequence =>
    failureOf? ((s.getOrCreate registry sequence).value.1.mapError .collection)
  | .registerDefinition registry definition =>
    failureOf? (s.registerDefinition registry definition).value.1
  | .setLoadState d state => failureOf? (s.setLoadState d state).1
  | .create a id => failureOf? (s.create a id).1
  | .update id next => failureOf? ((s.update id next).1.mapError .collection)
  | .commit | .refreshIndex _ | .on .. => none

/-- What can be wrong with a call, and the error for it. -/
inductive Refused (s : Store) : Call → WorldError → Prop where
  | emptySequence {registry : Registry} {sequence : Sequence} (empty : sequence.isEmpty = true) :
    Refused s (.getOrCreate registry sequence) (.collection .emptySequence)
  | unknownKind {registry : Registry} {sequence : Sequence} {kind : Kind}
    (member : kind ∈ sequence.kinds) (unknown : registry.type? kind = none) :
    Refused s (.getOrCreate registry sequence) (.collection (.unknownKind kind))
  | unknownType {registry : Registry} {definition : EntityDefinition} {type : TypeId}
    (member : type ∈ definition.components) (unknown : registry.kindOf? type = none) :
    Refused s (.registerDefinition registry definition) (.registry (.unknownType type))
  | components {registry : Registry} {definition : EntityDefinition} {sequence : Sequence}
    {cause : WorldError} (listed : registry.sequenceOf definition.components = .ok sequence)
    (refused : Refused s (.getOrCreate registry sequence) cause) :
    Refused s (.registerDefinition registry definition) cause
  | unknownDefinition {d : DefinitionId} {state : LoadState} (unknown : s.definition? d = none) :
    Refused s (.setLoadState d state) (.unknownDefinition d)
  | unknownArchetype {a : ArchetypeId} {id : EntityId} (unknown : s.collection? a = none) :
    Refused s (.create a id) (.collection (.unknownArchetype a))
  | mismatch {id next : EntityId} (differ : id.raw ≠ next.raw) :
    Refused s (.update id next) (.collection (.rawIdMismatch id next))
  | illegal {id next : EntityId} (blocked : ¬ id.life.Reaches next.life) :
    Refused s (.update id next) (.collection (.illegalTransition ⟨id.life, next.life⟩))
  | absent {id next : EntityId} (missing : ∀ a c, s.locate? id.raw = some a →
      s.collection? a = some c → ¬ c.Finds id) :
    Refused s (.update id next) (.collection (.notFound id))

theorem refused_of_getOrCreate {cause : CollectionError}
    (failed : (s.getOrCreate registry sequence).value = (.error cause, t)) :
    s.Refused (.getOrCreate registry sequence) (.collection cause) := by
  unfold getOrCreate at failed
  split at failed
  · cases failed
  · split at failed
    next cause' refused =>
      cases failed
      rcases Collection.bind_of_error refused with ⟨empty, rfl⟩ | ⟨kind, member, unknown, rfl⟩
      · exact .emptySequence empty
      · exact .unknownKind member unknown
    next => cases failed

/-- The collection that is found or made for a definition does not refuse it. -/
theorem refused_of_registerDefinition {definition : EntityDefinition} (keyed : s.Keyed)
    (failed : (s.registerDefinition registry definition).value = (.error cause, t)) :
    s.Refused (.registerDefinition registry definition) cause := by
  cases listed : registry.sequenceOf definition.components with
  | error cause' =>
    simp only [registerDefinition, listed, Logged.value_pure] at failed
    cases failed
    obtain ⟨type, member, unknown, rfl⟩ :=
      Registry.unregistered_of_kindsOf (Registry.sequenceOf_eq_error_iff.mp listed)
    exact .unknownType member unknown
  | ok sequence =>
    rcases outcome : (s.getOrCreate registry sequence).value with ⟨cause' | a, s₁⟩
    · simp only [registerDefinition, listed, Logged.value_bind, outcome, Logged.value_pure] at failed
      cases failed
      exact .components listed (refused_of_getOrCreate outcome)
    · obtain ⟨c, here, done⟩ := registerDefinition_of_getOrCreate keyed listed outcome
      rw [done] at failed
      cases failed

/-- Whatever refuses a definition, it does so before anything has changed: a collection that has just
been made for it takes it, and one that was there stays as it is. -/
theorem registerDefinition_of_error {definition : EntityDefinition}
    (failed : (s.registerDefinition registry definition).value = (.error cause, t)) : t = s := by
  unfold registerDefinition at failed
  split at failed
  · cases failed
    rfl
  next sequence listed =>
    rcases outcome : (s.getOrCreate registry sequence).value with ⟨cause' | a, s₁⟩
    · simp only [Logged.value_bind, outcome, Logged.value_pure] at failed
      cases failed
      exact getOrCreate_of_error outcome
    · simp only [Logged.value_bind, outcome] at failed
      rcases getOrCreate_of_ok outcome with ⟨known, rfl⟩ | ⟨unknown, rfl, c, bound, rfl⟩
      · cases here : s₁.collection? a with
        | none =>
          rw [here] at failed
          cases failed
          rfl
        | some c =>
          simp only [here, Logged.value_bind] at failed
          rcases answer : (c.setUp registry (some definition.id) sequence).value with ⟨cause' | ok, c'⟩
          · rw [answer] at failed
            cases failed
            rw [Collection.setUp_of_error answer]
            exact modifyCollection_self here
          · rw [answer] at failed
            cases failed
      · have here : (s.push sequence c).collection? ⟨s.collections.size⟩ = some c :=
          (collection?_push _).trans (if_pos rfl)
        obtain ⟨nonempty, -⟩ := Collection.bind_ok bound
        obtain rfl := (Collection.bind_unbound bound).2.2
        simp only [here, Logged.value_bind, Collection.setUp_self nonempty] at failed
        cases failed

/-- An update goes to the collection where the raw id is located. -/
theorem update_of_error {id next : EntityId} {cause : CollectionError}
    (failed : s.update id next = (.error cause, t)) :
    s.Refused (.update id next) (.collection cause) ∧ t = s := by
  unfold update at failed
  split at failed
  next unknown =>
    cases failed
    refine ⟨.absent fun a c located => ?_, rfl⟩
    cases unknown.symm.trans located
  next a located =>
    split at failed
    next nothing =>
      cases failed
      refine ⟨.absent fun b c located' here => ?_, rfl⟩
      obtain rfl := Option.some.inj (located.symm.trans located')
      cases nothing.symm.trans here
    next c here =>
      rcases outcome : c.update id next with ⟨answer, c'⟩
      simp only [outcome, Prod.mk.injEq] at failed
      obtain ⟨rfl, rfl⟩ := failed
      rw [Collection.update_of_error outcome, modifyCollection_self here]
      refine ⟨?_, rfl⟩
      have updated := c.updated id next
      rw [outcome] at updated
      cases updated with
      | mismatch differ => exact .mismatch differ
      | illegal same blocked => exact .illegal blocked
      | absent same allowed missing =>
        refine .absent fun b d located' there => ?_
        obtain rfl := Option.some.inj (located.symm.trans located')
        obtain rfl := Option.some.inj (here.symm.trans there)
        exact missing

/-- A call that fails changes nothing, in any store. Where the map knows the sequences of the
collections, it has been refused for a reason. -/
theorem refused_of_failure {call : Call} (failed : s.failure? call = some cause) :
    s.perform call = s ∧ (s.Keyed → s.Refused call cause) := by
  cases call with
  | getOrCreate registry sequence =>
    rcases outcome : (s.getOrCreate registry sequence).value with ⟨cause' | a, t⟩
    · simp only [failure?, outcome, Except.mapError, failureOf?, Option.some.injEq] at failed
      rw [← failed, Store.perform, outcome]
      exact ⟨getOrCreate_of_error outcome, fun _ => refused_of_getOrCreate outcome⟩
    · simp [failure?, outcome, Except.mapError, failureOf?] at failed
  | registerDefinition registry definition =>
    rcases outcome : (s.registerDefinition registry definition).value with ⟨cause' | a, t⟩
    · simp only [failure?, outcome, failureOf?, Option.some.injEq] at failed
      rw [← failed, Store.perform, outcome]
      exact ⟨registerDefinition_of_error outcome,
        fun keyed => refused_of_registerDefinition keyed outcome⟩
    · simp [failure?, outcome, failureOf?] at failed
  | setLoadState d state =>
    simp only [failure?, Store.perform, setLoadState] at failed ⊢
    cases found : s.definition? d with
    | none =>
      simp only [found, failureOf?, Option.some.injEq] at failed
      rw [← failed]
      exact ⟨rfl, fun _ => .unknownDefinition found⟩
    | some slot => simp [found, failureOf?] at failed
  | create a id =>
    simp only [failure?, Store.perform, create] at failed ⊢
    cases found : s.collection? a with
    | none =>
      simp only [found, failureOf?, Option.some.injEq] at failed
      rw [← failed]
      exact ⟨rfl, fun _ => .unknownArchetype found⟩
    | some c => simp [found, failureOf?] at failed
  | update id next =>
    rcases outcome : s.update id next with ⟨cause' | ok, t⟩
    · simp only [failure?, outcome, Except.mapError, failureOf?, Option.some.injEq] at failed
      rw [← failed, Store.perform, outcome]
      exact ⟨(update_of_error outcome).2, fun _ => (update_of_error outcome).1⟩
    · simp [failure?, outcome, Except.mapError, failureOf?] at failed
  | commit | refreshIndex kindCount | on a call => cases failed

/-! ### Without them -/

/-- The calls that succeed, each made after the ones before it. -/
def successes : Store → List Call → List Call
  | _, [] => []
  | s, call :: rest =>
    match s.failure? call with
    | some _ => s.successes rest
    | none => call :: (s.perform call).successes rest

/-- It makes no difference whether the calls that fail are made. -/
theorem play_successes (s : Store) (calls : List Call) : s.play (s.successes calls) = s.play calls := by
  induction calls generalizing s with
  | nil => rfl
  | cons call rest ih =>
    cases outcome : s.failure? call with
    | none =>
      simp only [successes, outcome]
      exact ih (s.perform call)
    | some cause =>
      simp only [successes, outcome, play, List.foldl_cons, (refused_of_failure outcome).1]
      exact ih s

end Store

end EntityWorld
