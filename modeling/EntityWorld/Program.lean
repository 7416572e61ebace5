import EntityWorld.Trace.Event

/-!
# Programs

What an update or a system does, as data: a tree of the commands it gives, each with the rest of the
program for every answer. A handler answers one command in one indivisible step, so programs can be
run whole, and they can be interleaved command by command.
-/
namespace EntityWorld

/-- The commands that a program may give, and what each is answered with. -/
structure Interface where
  Command : Type
  Answer : Command → Type

inductive Program (I : Interface) (α : Type) where
  | done (value : α)
  | call (command : I.Command) (next : I.Answer command → Program I α)

/-- Answers one command in a state. -/
abbrev Handler (I : Interface) (S : Type) :=
  (command : I.Command) → S → Logged (I.Answer command × S)

namespace Program

variable {I : Interface} {S α β : Type}

def bind : Program I α → (α → Program I β) → Program I β
  | .done value, rest => rest value
  | .call command next, rest => .call command fun answer => (next answer).bind rest

instance : Monad (Program I) where
  pure := .done
  bind := bind

/-- Runs a program to its end. -/
def run (handle : Handler I S) : Program I α → S → Logged (α × S)
  | .done value, state => return (value, state)
  | .call command next, state => do
    let (answer, state) ← handle command state
    (next answer).run handle state

@[simp] theorem run_done (handle : Handler I S) (value : α) (state : S) :
    (done value : Program I α).run handle state = pure (value, state) := rfl

theorem value_run_call (handle : Handler I S) (command : I.Command)
    (next : I.Answer command → Program I α) (state : S) :
    ((call command next).run handle state).value =
      ((next (handle command state).value.1).run handle (handle command state).value.2).value := rfl

theorem value_run_bind (handle : Handler I S) (first : Program I α) (rest : α → Program I β)
    (state : S) :
    ((first >>= rest).run handle state).value =
      ((rest (first.run handle state).value.1).run handle (first.run handle state).value.2).value := by
  induction first generalizing state with
  | done value => rfl
  | call command next ih => exact ih _ _

end Program

end EntityWorld
