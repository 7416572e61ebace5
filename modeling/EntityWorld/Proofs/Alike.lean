import EntityWorld.Proofs.Program
import Mathlib.Data.List.Forall2

/-!
# Programs that do alike

Two programs do alike if they give corresponding commands for as long as they hear corresponding
answers. In states that answer corresponding commands correspondingly, and stay so, they hear
corresponding answers to the end. Main statement: `Program.Alike.run`.
-/
namespace EntityWorld

/-- Which commands correspond, and which of their answers do. -/
structure Correspondence (I : Interface) where
  Command : I.Command → I.Command → Prop
  Answer : {c c' : I.Command} → I.Answer c → I.Answer c' → Prop

variable {I : Interface} {S α β : Type} {C : Correspondence I} {R : α → β → Prop}

/-- States that answer corresponding commands correspondingly stay so. -/
def Correspondence.KeptBy (C : Correspondence I) (handle : Handler I S) (P : S → S → Prop) : Prop :=
  ∀ c c' s t, C.Command c c' → P s t →
    C.Answer (handle c s).value.1 (handle c' t).value.1 ∧
      P (handle c s).value.2 (handle c' t).value.2

/-- Nothing corresponds to anything but itself. -/
structure Correspondence.Strict (C : Correspondence I) : Prop where
  command : ∀ {c c'}, C.Command c c' ↔ c' = c
  answer : ∀ {c : I.Command} {a a' : I.Answer c}, C.Answer a a' ↔ a' = a

/-- Both answer or both fail, and correspondingly. -/
inductive Verdict {ε ε' α β : Type} (E : ε → ε' → Prop) (R : α → β → Prop) :
    Except ε α → Except ε' β → Prop
  | error {e : ε} {e' : ε'} (refused : E e e') : Verdict E R (.error e) (.error e')
  | ok {a : α} {b : β} (same : R a b) : Verdict E R (.ok a) (.ok b)

/-- The same faults, or errors that correspond. -/
inductive Failure.Alike {ε ε' : Type} (E : ε → ε' → Prop) : Failure ε → Failure ε' → Prop
  | error {e : ε} {e' : ε'} (refused : E e e') : Alike E (.error e) (.error e')
  | fault (fault : Fault) : Alike E (.fault fault) (.fault fault)

structure Heard.Alike (C : Correspondence I) (h h' : Heard I) : Prop where
  command : C.Command h.command h'.command
  answer : C.Answer h.answer h'.answer

namespace Program

/-- The programs do alike, and come to corresponding values. -/
inductive Alike (C : Correspondence I) (R : α → β → Prop) : Program I α → Program I β → Prop
  | done {a : α} {b : β} (same : R a b) : Alike C R (.done a) (.done b)
  | call {c c' : I.Command} {next : I.Answer c → Program I α} {next' : I.Answer c' → Program I β}
      (command : C.Command c c') (later : ∀ a a', C.Answer a a' → Alike C R (next a) (next' a')) :
      Alike C R (.call c next) (.call c' next')

variable {p : Program I α} {q : Program I β}

theorem Alike.run {handle : Handler I S} {P : S → S → Prop} (kept : C.KeptBy handle P)
    (alike : p.Alike C R q) {s t : S} (initial : P s t) :
    R (p.run handle s).value.1 (q.run handle t).value.1 ∧
      P (p.run handle s).value.2 (q.run handle t).value.2 ∧
        List.Forall₂ (Heard.Alike C) (p.heard handle s) (q.heard handle t) := by
  induction alike generalizing s t with
  | done same => exact ⟨same, initial, .nil⟩
  | @call c c' next next' command later ih =>
    obtain ⟨answer, after⟩ := kept c c' s t command initial
    rw [value_run_call, value_run_call]
    obtain ⟨same, last, heard⟩ := ih _ _ answer after
    exact ⟨same, last, .cons ⟨command, answer⟩ heard⟩

theorem alike_iff_of_strict (strict : C.Strict) {p q : Program I α} :
    p.Alike C (fun a b => b = a) q ↔ q = p := by
  constructor
  · intro alike
    induction alike with
    | done same => rw [same]
    | call command later ih =>
      obtain rfl := strict.command.mp command
      exact congrArg _ (funext fun a => ih a a (strict.answer.mpr rfl))
  · rintro rfl
    induction q with
    | done value => exact .done rfl
    | call command next ih =>
      refine .call (strict.command.mpr rfl) fun a a' same => ?_
      obtain rfl := strict.answer.mp same
      exact ih a'

end Program

theorem Heard.alike_iff_of_strict (strict : C.Strict) {h h' : Heard I} : h.Alike C h' ↔ h' = h := by
  constructor
  · rintro ⟨command, answer⟩
    obtain ⟨c, a⟩ := h
    obtain ⟨c', a'⟩ := h'
    obtain rfl : c' = c := strict.command.mp command
    obtain rfl : a' = a := strict.answer.mp answer
    rfl
  · rintro rfl
    exact ⟨strict.command.mpr rfl, strict.answer.mpr rfl⟩

end EntityWorld
