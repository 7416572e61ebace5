import EntityWorld.Access
import EntityWorld.Proofs.Archetype.Store

/-!
# Stores that are ahead

A store may have collections for sequences that another store has none for yet, with rows in them for
the entities that wait in the other. Making the collections late and filling them from the queue then
comes to the same, and commits of both stores do the same. Main statements: `Stocked.settle` and
`Stocked.commit`.
-/
namespace EntityWorld

/-- The entities of a queue that wait for this sequence, oldest first. -/
def waitingFor (queue : List Deferred) (sequence : Sequence) : List EntityId :=
  (queue.filter fun d => d.sequence = sequence).map Deferred.id

theorem waitingFor_cons (d : Deferred) (queue : List Deferred) (sequence : Sequence) :
    waitingFor (d :: queue) sequence =
      if d.sequence = sequence then d.id :: waitingFor queue sequence
      else waitingFor queue sequence := by
  unfold waitingFor
  rw [List.filter_cons]
  simp only [decide_eq_true_eq]
  split <;> rfl

theorem waitingFor_append (first second : List Deferred) (sequence : Sequence) :
    waitingFor (first ++ second) sequence =
      waitingFor first sequence ++ waitingFor second sequence := by
  simp [waitingFor, List.filter_append]

theorem mem_waitingFor {queue : List Deferred} {sequence : Sequence} {id : EntityId} :
    id ∈ waitingFor queue sequence ↔ ∃ d ∈ queue, d.sequence = sequence ∧ d.id = id := by
  simp [waitingFor, and_assoc]

/-- Changing the id of one that waits changes one id of those that wait for the same sequence. -/
theorem waitingFor_set {queue : List Deferred} {place : Nat} {d : Deferred} (next : EntityId)
    (waits : queue[place]? = some d) :
    ∃ row : Nat, (waitingFor queue d.sequence)[row]? = some d.id ∧
      waitingFor (queue.set place { d with id := next }) d.sequence =
        (waitingFor queue d.sequence).set row next := by
  induction queue generalizing place with
  | nil => cases waits
  | cons first rest ih =>
    cases place with
    | zero =>
      obtain rfl := Option.some.inj waits
      refine ⟨0, ?_, ?_⟩ <;> simp [waitingFor_cons]
    | succ place =>
      obtain ⟨row, here, same⟩ := ih (by simpa using waits)
      rw [List.set_cons_succ, waitingFor_cons, waitingFor_cons, same]
      split
      · exact ⟨row + 1, by simpa using here, rfl⟩
      · exact ⟨row, here, rfl⟩

theorem waitingFor_set_of_ne {queue : List Deferred} {place : Nat} {d : Deferred}
    {sequence : Sequence} (next : EntityId) (waits : queue[place]? = some d)
    (other : d.sequence ≠ sequence) :
    waitingFor (queue.set place { d with id := next }) sequence = waitingFor queue sequence := by
  induction queue generalizing place with
  | nil => cases waits
  | cons first rest ih =>
    cases place with
    | zero =>
      obtain rfl := Option.some.inj waits
      rw [List.set_cons_zero, waitingFor_cons, waitingFor_cons, if_neg other, if_neg other]
    | succ place =>
      rw [List.set_cons_succ, waitingFor_cons, waitingFor_cons, ih (by simpa using waits)]

/-- The sequences that have been met, oldest first. -/
def discover (known : List Sequence) (queue : List Deferred) : List Sequence :=
  queue.foldl (fun known d => if d.sequence ∈ known then known else known ++ [d.sequence]) known

theorem prefix_discover (known : List Sequence) (queue : List Deferred) :
    known <+: discover known queue := by
  induction queue generalizing known with
  | nil => exact List.prefix_refl known
  | cons d rest ih =>
    unfold discover
    rw [List.foldl_cons]
    split
    · exact ih known
    · exact (List.prefix_append known [d.sequence]).trans (ih _)

theorem mem_discover {known : List Sequence} {queue : List Deferred} {sequence : Sequence} :
    sequence ∈ discover known queue ↔ sequence ∈ known ∨ ∃ d ∈ queue, d.sequence = sequence := by
  induction queue generalizing known with
  | nil => simp [discover]
  | cons d rest ih =>
    rw [discover, List.foldl_cons, ← discover, ih]
    split
    next met =>
      simp only [List.mem_cons, exists_eq_or_imp]
      constructor
      · rintro (old | later)
        · exact .inl old
        · exact .inr (.inr later)
      · rintro (old | rfl | later)
        · exact .inl old
        · exact .inl met
        · exact .inr later
    next =>
      rw [List.mem_append, List.mem_singleton, or_assoc, @eq_comm _ sequence]
      simp only [List.mem_cons, exists_eq_or_imp]

theorem discover_append (known : List Sequence) (first second : List Deferred) :
    discover known (first ++ second) = discover (discover known first) second := List.foldl_append

theorem discover_congr {first second : List Deferred} (known : List Sequence)
    (same : first.map Deferred.sequence = second.map Deferred.sequence) :
    discover known first = discover known second := by
  have through (queue : List Deferred) : discover known queue =
      (queue.map Deferred.sequence).foldl
        (fun known q => if q ∈ known then known else known ++ [q]) known := by
    rw [List.foldl_map]
    rfl
  rw [through, through, same]

namespace Generation

variable {g : Generation} {id next : EntityId}

/-- Appends entities one after another. -/
def stow (g : Generation) (ids : List EntityId) : Generation := ids.foldl append g

theorem stow_append (g : Generation) (first second : List EntityId) :
    g.stow (first ++ second) = (g.stow first).stow second := List.foldl_append

theorem ids_stow (g : Generation) (ids : List EntityId) : (g.stow ids).ids = g.ids ++ ids.toArray := by
  induction ids generalizing g with
  | nil => simp [stow]
  | cons id rest ih =>
    have tail := ih (g.append id)
    rw [ids_append] at tail
    rw [stow, List.foldl_cons, ← stow, tail]
    simp

/-- Where the ids come from does not matter to the rest of a generation. -/
theorem stow_of_size (ids : Array EntityId) (same : ids.size = g.ids.size) (rest : List EntityId) :
    stow { g with ids } rest = { g.stow rest with ids := ids ++ rest.toArray } := by
  induction rest generalizing g ids with
  | nil => simp [stow]
  | cons id rest ih =>
    have first : append { g with ids } id = { g.append id with ids := ids.push id } := by
      simp only [append, same]
    have tail := ih (g := g.append id) (ids.push id) (by simp [same])
    rw [stow, List.foldl_cons, first, ← stow, tail]
    simp [stow]

/-- Overwriting the id of an appended entity, or appending the other id to begin with. -/
theorem stow_set {ids : List EntityId} {place : Nat} (here : ids[place]? = some id)
    (same : next.raw = id.raw) :
    g.stow (ids.set place next) =
      { g.stow ids with ids := (g.stow ids).ids.setIfInBounds (g.ids.size + place) next } := by
  induction ids generalizing g place with
  | nil => cases here
  | cons first rest ih =>
    cases place with
    | zero =>
      obtain rfl := Option.some.inj here
      -- The row of a raw id does not depend on the other bits.
      have swapped : g.append next = { g.append first with ids := g.ids.push next } := by
        simp only [append, same]
      rw [List.set_cons_zero, stow, List.foldl_cons, swapped, ← stow, stow_of_size _ (by simp)]
      have whole := ids_stow g (first :: rest)
      simp only [stow, List.foldl_cons] at whole ⊢
      rw [whole]
      congr 1
      refine Array.toList_inj.mp ?_
      simp
    | succ place =>
      have tail := ih (g := g.append first) here
      rw [List.set_cons_succ, stow, List.foldl_cons, ← stow, tail]
      simp only [stow, List.foldl_cons, ids_append, Array.size_push, Nat.add_assoc, Nat.add_comm 1]

end Generation

namespace Collection

variable {c c' : Collection} {registry : Registry} {sequence : Sequence} {id : EntityId}

/-- The second collection is the first one with some entities created in it. Definitions do not
matter. -/
structure Stocked (c : Collection) (ids : List EntityId) (c' : Collection) : Prop where
  sequence : c'.sequence = c.sequence
  current : c'.current = c.current
  pending : c'.pending = c.pending.stow ids

theorem Stocked.mem_ids {waiting : List EntityId} (stocked : c.Stocked waiting c') :
    id ∈ c'.ids ↔ id ∈ c.ids ∨ id ∈ waiting := by
  rw [Collection.mem_ids, Collection.mem_ids, stocked.current, stocked.pending, Generation.ids_stow]
  simp [or_assoc]

theorem Stocked.commit (stocked : c.Stocked [] c') :
    c'.commit.1 = c.commit.1 ∧ c.commit.2.Stocked [] c'.commit.2 := by
  have pending : c'.pending = c.pending := stocked.pending
  unfold Collection.commit
  rw [stocked.current, pending]
  split
  · exact ⟨rfl, stocked.sequence, rfl, rfl⟩
  · split
    · exact ⟨rfl, stocked.sequence, rfl, rfl⟩
    · exact ⟨rfl, stocked.sequence, rfl, rfl⟩

theorem Stocked.eq (stocked : c.Stocked [] c') : c' = { c with definitions := c'.definitions } := by
  obtain ⟨sequence, definitions, current, pending⟩ := c'
  obtain ⟨rfl, rfl, filled⟩ := stocked
  exact congrArg (Collection.mk c.sequence definitions c.current) filled

theorem edit_definitions (c : Collection) (definitions : List DefinitionId) (kind : Kind)
    (type : StoredType) (change : Nat → Row → Row) :
    ({ c with definitions } : Collection).edit kind type change =
      (c.edit kind type change).map fun e => { e with definitions } := by
  have same : ({ c with definitions } : Collection).read kind type = c.read kind type := rfl
  unfold edit
  rw [same]
  cases c.read kind type with
  | error cause => rfl
  | ok rows =>
    dsimp only
    split <;> rfl

theorem update_definitions (c : Collection) (definitions : List DefinitionId) (id next : EntityId) :
    ({ c with definitions } : Collection).update id next =
      ((c.update id next).1, { (c.update id next).2 with definitions }) := by
  unfold update
  split
  · rfl
  · split
    · rfl
    · dsimp only
      split
      · rfl
      · split <;> rfl

theorem columns_of_bound (bound : unbound.bind registry sequence = .ok c) :
    ∃ columns : List Column, (∀ column ∈ columns, column.size = 0) ∧
      c.current = ⟨#[], columns, ∅⟩ ∧ c.pending = ⟨#[], columns, ∅⟩ := by
  obtain ⟨-, columns, built, rfl⟩ := bind_ok bound
  exact ⟨columns, size_of_buildColumns built, rfl, rfl⟩

/-- A collection without entities stays as it is. -/
theorem commit_of_bound (bound : unbound.bind registry sequence = .ok c) (stocked : c.Stocked [] c') :
    c'.commit = (.ok .empty, c') := by
  obtain ⟨columns, empty, current, pending⟩ := columns_of_bound bound
  have current' : c'.current = ⟨#[], columns, ∅⟩ := stocked.current.trans current
  have pending' : c'.pending = ⟨#[], columns, ∅⟩ := stocked.pending.trans pending
  have cleared : columns.map Column.clear = columns := by
    refine List.map_congr_left (fun column member => ?_) |>.trans (List.map_id columns)
    have none : column.rows = #[] := Array.eq_empty_of_size_eq_zero (empty column member)
    simp only [Column.clear, ← none, id]
  obtain ⟨_, _, _, _⟩ := c'
  simp only at current' pending'
  subst current' pending'
  simp [commit, sweep, sweepFrom, migrateFrom, Generation.size, Generation.clear, cleared]
  rfl

end Collection

namespace Store

variable {s t : Store} {registry : Registry} {queue : List Deferred} {a : ArchetypeId}
  {sequence : Sequence} {c c' : Collection}

/-! ### One store ahead of another -/

/-- The second store has the collections of the first and those that its queue asks for, in the order
in which the first would make them, and the entities of the queue have rows in it. -/
structure Stocked (registry : Registry) (queue : List Deferred) (s t : Store) : Prop where
  order : discover s.sequences queue <+: t.sequences
  keyed : t.Keyed
  known : ∀ a c, s.collection? a = some c →
    ∃ c', t.collection? a = some c' ∧ c.Stocked (waitingFor queue c.sequence) c'
  new : ∀ a c', s.collection? a = none → t.collection? a = some c' →
    ∃ c, Collection.unbound.bind registry c'.sequence = .ok c ∧
      c.Stocked (waitingFor queue c'.sequence) c'

namespace Stocked

theorem archetypeOf? (stocked : Stocked registry queue s t) (keyed : s.Keyed)
    (found : s.archetypeOf? sequence = some a) : t.archetypeOf? sequence = some a := by
  obtain ⟨c, here, same⟩ := exists_collection ((keyed.known sequence a).mp found)
  obtain ⟨c', there, filled⟩ := stocked.known a c here
  apply (stocked.keyed.known sequence a).mpr
  rw [getElem?_sequences_of_collection there, filled.sequence, same]

/-- A collection for a sequence that the first store does not know is early. -/
theorem absent (stocked : Stocked registry queue s t) (there : t.collection? a = some c')
    (unknown : c'.sequence ∉ s.sequences) : s.collection? a = none := by
  cases here : s.collection? a with
  | none => rfl
  | some c =>
    obtain ⟨e, there', filled⟩ := stocked.known a c here
    obtain rfl := Option.some.inj (there.symm.trans there')
    exact absurd (filled.sequence ▸ mem_sequences here) unknown

/-- The same collection may change in both. -/
theorem modify (change change' : Collection → Collection) (stocked : Stocked registry queue s t)
    (here : s.collection? a = some c) (kept : (change c).sequence = c.sequence)
    (both : ∀ c', c.Stocked (waitingFor queue c.sequence) c' →
      (change c).Stocked (waitingFor queue c.sequence) (change' c')) :
    Stocked registry queue (s.modifyCollection a change) (t.modifyCollection a change') := by
  obtain ⟨d, there, filled⟩ := stocked.known a c here
  have first := sequences_modifyCollection_of_eq change here kept
  have second := sequences_modifyCollection_of_eq change' there
    (by rw [(both d filled).sequence, kept, filled.sequence])
  refine ⟨?_, ?_, fun b e found => ?_, fun b e absent found => ?_⟩
  · rw [first, second]
    exact stocked.order
  · exact stocked.keyed.of_same rfl second
  · rw [collection?_modifyCollection] at found ⊢
    split at found
    next same =>
      subst same
      rw [here] at found
      cases found
      rw [if_pos rfl, there, kept]
      exact ⟨change' d, rfl, both d filled⟩
    next apart =>
      rw [if_neg apart]
      exact stocked.known b e found
  · rw [collection?_modifyCollection] at absent found
    split at absent
    next same =>
      subst same
      rw [here] at absent
      cases absent
    next apart =>
      rw [if_neg apart] at found
      exact stocked.new b e absent found

end Stocked

/-! ### Commits -/

theorem append_empty (report : CommitReport) : report.append .empty = report := by
  simp [CommitReport.append, CommitReport.empty]

/-- What relates a store to itself with one collection committed, wherever its entities are then
located, relates it to what its commit leaves. -/
theorem related_commitFrom {R : Store → Store → Prop} (refl : ∀ s, R s s)
    (trans : ∀ s t u, R s t → R t u → R s u)
    (step : ∀ s a c locations, s.collection? a = some c →
      R s { s.modifyCollection a fun _ => c.commit.2 with locations })
    (rest position : Nat) (s : Store) (report : CommitReport) :
    R s (commitFrom rest position s report).2 := by
  induction rest generalizing s position report with
  | zero => exact refl s
  | succ rest ih =>
    simp only [commitFrom]
    split
    · exact refl s
    next c here =>
      have settled (locations) := step s ⟨position⟩ c locations here
      split
      next failure after outcome =>
        rw [outcome] at settled
        exact settled s.locations
      next each after outcome =>
        rw [outcome] at settled
        exact trans _ _ _ (settled _) (ih (position + 1) _ (report.append each))

theorem sequences_commitFrom (rest position : Nat) (s : Store) (report : CommitReport) :
    (commitFrom rest position s report).2.sequences = s.sequences ∧
      (commitFrom rest position s report).2.definitions = s.definitions := by
  refine related_commitFrom (R := fun s t => t.sequences = s.sequences ∧ t.definitions = s.definitions)
    (fun _ => ⟨rfl, rfl⟩)
    (fun _ _ _ first second => ⟨second.1.trans first.1, second.2.trans first.2⟩) ?_ rest position s report
  intro s a c locations here
  have same := sequences_modifyCollection_of_eq (fun _ => c.commit.2) here c.sequence_commit
  exact ⟨same, rfl⟩

theorem modifyCollection_self (here : t.collection? a = some c) :
    (t.modifyCollection a fun _ => c) = t := by
  have same : (t.collections.modify a.index fun _ => c) = t.collections := by
    refine Array.ext_getElem? fun i => ?_
    rw [Array.getElem?_modify]
    split
    next equal =>
      subst equal
      have found : t.collections[a.index]? = some c := here
      rw [found, Option.map_some]
    next => rfl
  rw [modifyCollection, same]

/-- A commit that changes no collection changes nothing. -/
theorem commitFrom_of_idle (rest position : Nat) (report : CommitReport)
    (idle : ∀ a c, position ≤ a.index → t.collection? a = some c → c.commit = (.ok .empty, c)) :
    commitFrom rest position t report = (.ok report, t) := by
  induction rest generalizing position with
  | zero => rfl
  | succ rest ih =>
    simp only [commitFrom]
    cases here : t.collections[position]? with
    | none => rfl
    | some c =>
      have found : t.collection? ⟨position⟩ = some c := here
      simp only [idle ⟨position⟩ c (Nat.le_refl _) here, append_empty, modifyCollection_self found]
      exact ih (position + 1) fun a d above => idle a d (Nat.le_of_succ_le above)

/-- Where nobody waits, both stores commit the same. -/
theorem Stocked.commitFrom {rest more position : Nat} {report : CommitReport}
    (stocked : Stocked registry [] s t) (size : position + rest = s.collections.size)
    (size' : position + more = t.collections.size) :
    (Store.commitFrom more position t report).1 = (Store.commitFrom rest position s report).1 ∧
      Stocked registry [] (Store.commitFrom rest position s report).2
        (Store.commitFrom more position t report).2 := by
  induction rest generalizing s t more position report with
  | zero =>
    -- What the second store has beyond the first is empty.
    have done := commitFrom_of_idle more position report (t := t) fun a c above found => by
      have absent : s.collection? a = none := Array.getElem?_eq_none (by omega)
      obtain ⟨d, bound, idle⟩ := stocked.new a c absent found
      exact Collection.commit_of_bound bound idle
    rw [done]
    exact ⟨rfl, stocked⟩
  | succ rest ih =>
    have inside : position < s.collections.size := by omega
    have here : s.collection? ⟨position⟩ = some s.collections[position] :=
      Array.getElem?_eq_getElem inside
    generalize s.collections[position] = c at here
    obtain ⟨c', there, filled⟩ := stocked.known _ c here
    obtain ⟨more, rfl⟩ : ∃ n, more = n + 1 := by
      obtain ⟨inside', -⟩ := Array.getElem?_eq_some_iff.mp there
      exact ⟨more - 1, by simp only at inside'; omega⟩
    obtain ⟨same, after⟩ := filled.commit
    have changed := stocked.modify (fun _ => c.commit.2) (fun _ => c'.commit.2) here
      c.sequence_commit fun d other => by exact after
    have here : s.collections[position]? = some c := here
    have there : t.collections[position]? = some c' := there
    simp only [Store.commitFrom, here, there]
    cases outcome : c.commit with
    | mk result d =>
      cases outcome' : c'.commit with
      | mk result' d' =>
        rw [outcome, outcome'] at same changed
        obtain rfl : result' = result := same
        cases result' with
        | error failure => exact ⟨rfl, changed⟩
        | ok each =>
          refine ih (s := { s.modifyCollection ⟨position⟩ fun _ => d with
              locations := each.removed.foldl (fun map id => map.erase id.raw) s.locations })
            (t := { t.modifyCollection ⟨position⟩ fun _ => d' with
              locations := each.removed.foldl (fun map id => map.erase id.raw) t.locations })
            ⟨changed.order, changed.keyed.of_same rfl rfl, changed.known, changed.new⟩ ?_ ?_
          · simp only [modifyCollection, Array.size_modify]
            omega
          · simp only [modifyCollection, Array.size_modify]
            omega

theorem sequences_commit (s : Store) :
    s.commit.value.2.sequences = s.sequences ∧ s.commit.value.2.definitions = s.definitions := by
  rw [value_commit]
  exact sequences_commitFrom s.collections.size 0 s .empty

theorem Stocked.commit (stocked : Stocked registry [] s t) :
    t.commit.value.1 = s.commit.value.1 ∧
      Stocked registry [] s.commit.value.2 t.commit.value.2 := by
  rw [value_commit, value_commit]
  exact stocked.commitFrom (by omega) (by omega)

/-! ### Making a collection late -/

theorem Made.discover {d : Deferred} (made : Made registry s d.sequence a t) (queue : List Deferred) :
    discover t.sequences queue = discover s.sequences (d :: queue) := by
  rw [made.sequences]
  rfl

/-- The first store has a collection for the sequence then, and still what the other one is ahead of. -/
theorem Stocked.made {d : Deferred} {s₁ : Store} (stocked : Stocked registry (d :: queue) s t)
    (made : Made registry s d.sequence a s₁) : Stocked registry (d :: queue) s₁ t := by
  have met := made.discover queue
  cases made with
  | found known => exact stocked
  | @pushed c fresh bound =>
    have pushed : Made registry s d.sequence _ _ := .pushed fresh bound
    have sequences := pushed.sequences
    rw [if_neg fresh] at sequences
    -- It is the next one that the other store has.
    obtain ⟨c', there, next⟩ : ∃ c', t.collection? ⟨s.collections.size⟩ = some c' ∧
        c'.sequence = d.sequence := by
      have order := stocked.order
      rw [← met, sequences] at order
      have here := List.prefix_iff_getElem?.mp ((prefix_discover _ _).trans order)
        s.sequences.length (by simp)
      have length : s.sequences.length = s.collections.size := by simp [Store.sequences]
      rw [List.getElem_concat_length rfl, length] at here
      exact exists_collection here
    obtain ⟨e, bound', filled⟩ := stocked.new _ c' (Array.getElem?_eq_none (Nat.le_refl _)) there
    rw [next] at bound'
    obtain rfl := Except.ok.inj (bound.symm.trans bound')
    refine ⟨?_, stocked.keyed, fun b e found => ?_, fun b e absent found => ?_⟩
    · rw [sequences, discover, List.foldl_cons, if_pos (by simp), ← discover, ← sequences, met]
      exact stocked.order
    · rcases pushed.collection?_eq b with old | ⟨-, rfl, e', new, bound'⟩
      · exact stocked.known b e (old ▸ found)
      · obtain rfl := Except.ok.inj (bound.symm.trans bound')
        obtain rfl := Option.some.inj (new.symm.trans found)
        rw [(Collection.bind_unbound bound).2.2, ← next]
        exact ⟨c', there, filled⟩
    · rcases pushed.collection?_eq b with old | ⟨-, -, e', new, -⟩
      · exact stocked.new b e (old ▸ absent) found
      · rw [new] at absent
        cases absent

/-- The first entity of the queue gets its row, in a collection that is made for it if there is none. -/
theorem Stocked.settle {d : Deferred} {s₁ : Store} (stocked : Stocked registry (d :: queue) s t)
    (made : Made registry s d.sequence a s₁) :
    ∃ s₂, s₁.create a d.id = (.ok (), s₂) ∧ Stocked registry queue s₂ t ∧
      s₂.definitions = s.definitions := by
  have stocked₁ := stocked.made made
  obtain ⟨c, here, own⟩ := made.collection?_self
  have sequences : (s₁.modifyCollection a (·.create d.id)).sequences = s₁.sequences :=
    sequences_modifyCollection _ fun _ _ => rfl
  obtain ⟨c', there, filled⟩ := stocked₁.known a c here
  have elsewhere {b : ArchetypeId} {e : Collection} (apart : a ≠ b)
      (found : t.collection? b = some e) :
      waitingFor (d :: queue) e.sequence = waitingFor queue e.sequence := by
    rw [waitingFor_cons, if_neg]
    intro same
    apply apart (stocked.keyed.place_unique there found _)
    rw [filled.sequence, own, same]
  refine ⟨{ s₁.modifyCollection a (·.create d.id) with
    locations := s₁.locations.insert d.id.raw a }, by simp only [create, here],
    ⟨?_, stocked.keyed, fun b e found => ?_, fun b e absent found => ?_⟩, made.definitions⟩
  · change discover (s₁.modifyCollection a (·.create d.id)).sequences queue <+: _
    rw [sequences, made.discover]
    exact stocked.order
  · change (s₁.modifyCollection a (·.create d.id)).collection? b = some e at found
    rw [collection?_modifyCollection] at found
    split at found
    next same =>
      subst same
      rw [here] at found
      cases found
      refine ⟨c', there, filled.sequence, filled.current, ?_⟩
      rw [filled.pending, waitingFor_cons, if_pos own.symm]
      rfl
    next apart =>
      obtain ⟨e', found', same⟩ := stocked₁.known b e found
      have none := elsewhere apart found'
      rw [same.sequence] at none
      exact ⟨e', found', none ▸ same⟩
  · change (s₁.modifyCollection a (·.create d.id)).collection? b = none at absent
    rw [collection?_modifyCollection] at absent
    split at absent
    next same =>
      subst same
      rw [here] at absent
      cases absent
    next apart =>
      rw [← elsewhere apart found]
      exact stocked₁.new b e absent found

/-! ### Changes of the queue -/

/-- If those who wait for one sequence change, a collection that is early changes with them. -/
theorem Stocked.change {queue' : List Deferred} (change : Collection → Collection)
    (stocked : Stocked registry queue s t) (order : discover s.sequences queue' <+: t.sequences)
    (absent : s.collection? a = none) (there : t.collection? a = some c')
    (kept : (change c').sequence = c'.sequence)
    (others : ∀ sequence, sequence ≠ c'.sequence →
      waitingFor queue' sequence = waitingFor queue sequence)
    (own : ∀ c, Collection.unbound.bind registry c'.sequence = .ok c →
      c.Stocked (waitingFor queue c'.sequence) c' →
      c.Stocked (waitingFor queue' c'.sequence) (change c')) :
    Stocked registry queue' s (t.modifyCollection a change) := by
  have sequences := sequences_modifyCollection_of_eq change there kept
  have elsewhere {b : ArchetypeId} {e : Collection} (apart : a ≠ b) (found : t.collection? b = some e) :
      waitingFor queue' e.sequence = waitingFor queue e.sequence :=
    others e.sequence fun same =>
      apart (stocked.keyed.place_unique there found same.symm)
  constructor
  · rw [sequences]
    exact order
  · exact stocked.keyed.of_same rfl sequences
  · intro b e found
    have apart : a ≠ b := by
      rintro rfl
      rw [absent] at found
      cases found
    obtain ⟨e', found', filled⟩ := stocked.known b e found
    have same := elsewhere apart found'
    rw [filled.sequence] at same
    exact ⟨e', by rw [collection?_modifyCollection, if_neg apart, found'], same ▸ filled⟩
  · intro b e nothing found
    rw [collection?_modifyCollection] at found
    split at found
    next same =>
      subst same
      rw [there] at found
      cases found
      obtain ⟨c, bound, filled⟩ := stocked.new a c' absent there
      rw [kept]
      exact ⟨c, bound, own c bound filled⟩
    next apart =>
      rw [elsewhere apart found]
      exact stocked.new b e nothing found

/-- An entity that joins the queue is created in the other store. -/
theorem Stocked.arrive {d : Deferred} (stocked : Stocked registry queue s t)
    (order : discover s.sequences (queue ++ [d]) <+: t.sequences) (absent : s.collection? a = none)
    (there : t.collection? a = some c') (own : c'.sequence = d.sequence) :
    Stocked registry (queue ++ [d]) s (t.modifyCollection a (·.create d.id)) := by
  apply stocked.change (·.create d.id) order absent there rfl
  · intro sequence other
    rw [waitingFor_append, waitingFor_cons, if_neg fun same => other (same.symm.trans own.symm)]
    exact List.append_nil _
  · intro c bound filled
    refine ⟨filled.sequence, filled.current, ?_⟩
    change c'.pending.append d.id = c.pending.stow (waitingFor (queue ++ [d]) c'.sequence)
    rw [waitingFor_append, waitingFor_cons, if_pos own.symm, Generation.stow_append, ← filled.pending]
    rfl

/-- An entity that waits changes its id where it stands in the queue, or in its row. -/
theorem Stocked.rewrite {d : Deferred} {next : EntityId} {place row : Nat}
    (stocked : Stocked registry queue s t) (distinct : (queue.map Deferred.id).Nodup)
    (waits : queue[place]? = some d) (raw : next.raw = d.id.raw) (absent : s.collection? a = none)
    (there : t.collection? a = some c') (own : c'.sequence = d.sequence)
    (here : c'.pending.ids[row]? = some d.id) :
    Stocked registry (queue.set place { d with id := next }) s (t.modifyCollection a fun _ =>
      { c' with pending.ids := c'.pending.ids.setIfInBounds row next }) := by
  have met : discover s.sequences (queue.set place { d with id := next }) =
      discover s.sequences queue :=
    discover_congr s.sequences (map_set_of_eq waits rfl)
  apply stocked.change _ (met ▸ stocked.order) absent there rfl
  · intro sequence other
    exact waitingFor_set_of_ne next waits fun same => other (same.symm.trans own.symm)
  · intro c bound filled
    obtain ⟨columns, -, -, empty⟩ := Collection.columns_of_bound bound
    have pending := filled.pending
    rw [own] at pending
    -- Its row is its place among those that wait for the same sequence.
    obtain ⟨row', listed, changed⟩ := waitingFor_set next waits
    have rows : c'.pending.ids = (waitingFor queue d.sequence).toArray := by
      rw [pending, Generation.ids_stow, empty, Array.empty_append]
    rw [rows, List.getElem?_toArray] at here
    obtain ⟨inside, -⟩ := List.getElem?_eq_some_iff.mp here
    have once : (waitingFor queue d.sequence).Nodup :=
      distinct.sublist (List.filter_sublist.map Deferred.id)
    obtain rfl : row = row' := (List.getElem?_inj inside once).mp (here.trans listed.symm)
    refine ⟨filled.sequence, filled.current, ?_⟩
    change { c'.pending with ids := c'.pending.ids.setIfInBounds row next } =
      c.pending.stow (waitingFor (queue.set place { d with id := next }) c'.sequence)
    rw [own, changed, Generation.stow_set listed raw, ← pending, empty]
    simp

end Store

end EntityWorld
