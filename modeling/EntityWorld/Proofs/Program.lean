import EntityWorld.Access

/-!
# What programs do

A program may be restricted to some commands; what every allowed command preserves, a run of the
program preserves.
-/
namespace EntityWorld

/-- A command that was given, and what it was answered. -/
structure Heard (I : Interface) where
  command : I.Command
  answer : I.Answer command

namespace Program

variable {I : Interface} {S α β : Type} {allowed : I.Command → Prop}

/-- The commands that a program gives when it is run, with their answers. -/
def heard (handle : Handler I S) : Program I α → S → List (Heard I)
  | .done _, _ => []
  | .call command next, s =>
    ⟨command, (handle command s).value.1⟩ ::
      (next (handle command s).value.1).heard handle (handle command s).value.2

/-- Every command that the program gives is allowed, whatever it is answered. -/
def Only (allowed : I.Command → Prop) : Program I α → Prop
  | .done _ => True
  | .call command next => allowed command ∧ ∀ answer, (next answer).Only allowed

theorem only_true (program : Program I α) : program.Only fun _ => True := by
  induction program with
  | done => trivial
  | call command next ih => exact ⟨trivial, ih⟩

theorem Only.imp {weaker : I.Command → Prop} {program : Program I α} (only : program.Only allowed)
    (allows : ∀ command, allowed command → weaker command) : program.Only weaker := by
  induction program with
  | done => trivial
  | call command next ih => exact ⟨allows command only.1, fun answer => ih answer (only.2 answer)⟩

/-- What every allowed command preserves, a whole run preserves. -/
theorem run_preserves {handle : Handler I S} {P : S → Prop}
    (kept : ∀ command, allowed command → ∀ s, P s → P (handle command s).value.2)
    {program : Program I α} (only : program.Only allowed) {s : S} (initial : P s) :
    P (program.run handle s).value.2 := by
  induction program generalizing s with
  | done => exact initial
  | call command next ih =>
    rw [value_run_call]
    exact ih _ (only.2 _) (kept command only.1 s initial)

/-- What every command that is given preserves, a run preserves. -/
theorem run_preserves_heard {handle : Handler I S} {P : S → Prop} {program : Program I α} {s : S}
    (kept : ∀ command t, ⟨command, (handle command t).value.1⟩ ∈ program.heard handle s → P t →
      P (handle command t).value.2)
    (initial : P s) : P (program.run handle s).value.2 := by
  induction program generalizing s with
  | done => exact initial
  | call command next ih =>
    rw [value_run_call]
    exact ih _ (fun command t given => kept command t (List.mem_cons_of_mem _ given))
      (kept command s List.mem_cons_self initial)

/-- States that every command answers alike, and leaves so, a whole program answers alike. -/
theorem run_related {handle : Handler I S} {R : S → S → Prop}
    (related : ∀ command s t, R s t → (handle command t).value.1 = (handle command s).value.1 ∧
      R (handle command s).value.2 (handle command t).value.2)
    (program : Program I α) {s t : S} (initial : R s t) :
    (program.run handle t).value.1 = (program.run handle s).value.1 ∧
      R (program.run handle s).value.2 (program.run handle t).value.2 := by
  induction program generalizing s t with
  | done value => exact ⟨rfl, initial⟩
  | call command next ih =>
    obtain ⟨answer, after⟩ := related command s t initial
    rw [value_run_call, value_run_call, answer]
    exact ih _ after

/-- What is left of a program after one command. -/
inductive Next : Program I α → Program I α → Prop where
  | intro (command : I.Command) (next : I.Answer command → Program I α) (answer : I.Answer command) :
      Next (next answer) (.call command next)

theorem wellFounded_next : WellFounded (Next (I := I) (α := α)) := by
  refine ⟨fun program => ?_⟩
  induction program with
  | done value => exact Acc.intro _ nofun
  | call command next ih =>
    refine Acc.intro _ ?_
    rintro _ ⟨_, _, answer⟩
    exact ih answer

end Program

/-- A command that leaves the lock table alone. -/
def Access.LeavesLocks {σ : Type} (command : Access.Request σ) : Prop :=
  ∀ call, command ≠ .lock call

namespace Shared

variable {σ : Type} (s : Shared σ)

/-! ### The fields that commands reach -/

theorem place_eq (a : ArchetypeId) :
    ∃ store allocator, (s.place a).2 = { s with store, allocator } := by
  unfold place
  split
  · exact ⟨s.store, _, rfl⟩
  · split <;> exact ⟨_, _, rfl⟩

theorem defer_eq (sequence : Sequence) :
    ∃ allocator deferred, (s.defer sequence).2 = { s with allocator, deferred } := by
  unfold defer
  split
  · exact ⟨_, s.deferred, rfl⟩
  · exact ⟨_, _, rfl⟩

theorem create_eq (d : DefinitionId) :
    ∃ store allocator, (s.create d).2 = { s with store, allocator } := by
  unfold create
  split
  · exact ⟨s.store, s.allocator, rfl⟩
  · split
    · exact s.place_eq _
    · exact ⟨s.store, s.allocator, rfl⟩

theorem createWith_eq (types : List TypeId) :
    ∃ store allocator deferred, (s.createWith types).2 = { s with store, allocator, deferred } := by
  unfold createWith
  split
  · exact ⟨s.store, s.allocator, s.deferred, rfl⟩
  · split
    · exact ⟨s.store, s.allocator, s.deferred, rfl⟩
    · split
      · obtain ⟨store, allocator, placed⟩ := s.place_eq _
        exact ⟨store, allocator, s.deferred, placed⟩
      · obtain ⟨allocator, deferred, waits⟩ := s.defer_eq _
        exact ⟨s.store, allocator, deferred, waits⟩

theorem edit_store (a : ArchetypeId) (kind : Kind) (type : StoredType)
    (change : Nat → Nat → Row → Row) : ∃ store, (s.edit a kind type change).2 = { s with store } := by
  unfold edit
  split
  · exact ⟨s.store, rfl⟩
  · dsimp only
    split
    · exact ⟨s.store, rfl⟩
    · exact ⟨_, rfl⟩

/-- Most commands reach the entities only; three kinds of commands have a field of their own. -/
theorem perform_fields (command : Access.Request σ) :
    (∃ store allocator deferred,
        (Access.perform command s).value.2 = { s with store, allocator, deferred }) ∨
      (∃ id, command = .destroy id) ∨ (∃ call, command = .lock call) ∨
        ∃ change, command = .exchange change := by
  cases command with
  | create d =>
    obtain ⟨store, allocator, same⟩ := s.create_eq d
    exact .inl ⟨store, allocator, s.deferred, same⟩
  | createWith types => exact .inl (s.createWith_eq types)
  | edit a kind type change =>
    obtain ⟨store, same⟩ := s.edit_store a kind type change
    exact .inl ⟨store, s.allocator, s.deferred, same⟩
  | destroy id => exact .inr (.inl ⟨id, rfl⟩)
  | lock call => exact .inr (.inr (.inl ⟨call, rfl⟩))
  | exchange change => exact .inr (.inr (.inr ⟨change, rfl⟩))
  | _ => exact .inl ⟨s.store, s.allocator, s.deferred, rfl⟩

/-- Only the lock commands change the lock table. -/
theorem locks_perform {command : Access.Request σ} (leaves : Access.LeavesLocks command) :
    (Access.perform command s).value.2.locks = s.locks := by
  rcases s.perform_fields command with ⟨_, _, _, same⟩ | ⟨id, rfl⟩ | ⟨call, rfl⟩ | ⟨change, rfl⟩
  · rw [same]
  · rfl
  · exact absurd rfl (leaves call)
  · rfl

/-- A command leaves the destroy requests that wait where they are. -/
theorem destroys_perform (command : Access.Request σ) :
    s.destroys <+: (Access.perform command s).value.2.destroys := by
  rcases s.perform_fields command with ⟨_, _, _, same⟩ | ⟨id, rfl⟩ | ⟨call, rfl⟩ | ⟨change, rfl⟩
  · exact ⟨[], (List.append_nil _).trans (congrArg Shared.destroys same).symm⟩
  · exact List.prefix_append _ _
  · exact List.prefix_refl _
  · exact List.prefix_refl _

end Shared

end EntityWorld
