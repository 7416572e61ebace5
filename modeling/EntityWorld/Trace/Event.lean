import EntityWorld.Text.Quoted

/-!
# Log events

What an operation tells the log: events with a level, a message, named fields and the spans they
were made in. `Logged` carries the events beside a value; the value is computed as if nothing were
logged, which the `value` lemmas at the end say.
-/
namespace EntityWorld

/-- Severity of an event or span, least severe first. -/
inductive Level where
  | trace
  | debug
  | info
  | warn
  | error
  deriving DecidableEq, Repr

namespace Level

def rank : Level → Nat
  | .trace => 0
  | .debug => 1
  | .info => 2
  | .warn => 3
  | .error => 4

def text : Level → String
  | .trace => "TRACE"
  | .debug => "DEBUG"
  | .info => "INFO"
  | .warn => "WARN"
  | .error => "ERROR"

end Level

/-- What a field holds: a string of the caller, or the printed form of some other value. -/
inductive FieldValue where
  | string (s : String)
  | printed (s : String)
  deriving DecidableEq, Repr

namespace FieldValue

def content : FieldValue → String
  | .string s => s
  | .printed s => s

/-- The content as a log line shows it: a string stands in quotes. -/
def shown : FieldValue → String
  | .string s => Text.quoted s
  | .printed s => s

end FieldValue

/-- A stretch of work that events are made in. -/
structure Span where
  name : String
  level : Level
  target : String
  deriving DecidableEq, Repr

structure Event where
  level : Level
  target : String
  message : String
  fields : List (String × FieldValue)
  -- Entered spans, outermost first.
  spans : List Span := []
  deriving DecidableEq, Repr

/-- A value and the events made on the way to it. -/
structure Logged (α : Type) where
  value : α
  events : List Event

namespace Logged

variable {α β : Type}

/-- Puts every event inside a span. -/
def within (span : Span) (x : Logged α) : Logged α :=
  ⟨x.value, x.events.map fun event => { event with spans := span :: event.spans }⟩

def emit (event : Event) : Logged Unit := ⟨(), [event]⟩

def emitAll (events : List Event) : Logged Unit := ⟨(), events⟩

instance : Monad Logged where
  pure a := ⟨a, []⟩
  bind x f := ⟨(f x.value).value, x.events ++ (f x.value).events⟩

@[simp] theorem value_pure (a : α) : (pure a : Logged α).value = a := rfl

@[simp] theorem pure_bind (a : α) (f : α → Logged β) : (pure a : Logged α) >>= f = f a := rfl

@[simp] theorem value_bind (x : Logged α) (f : α → Logged β) :
    (x >>= f).value = (f x.value).value := rfl

@[simp] theorem value_within (span : Span) (x : Logged α) : (x.within span).value = x.value := rfl

@[simp] theorem value_ite (c : Prop) [Decidable c] (x y : Logged α) :
    (if c then x else y).value = if c then x.value else y.value := by
  split <;> rfl

end Logged

end EntityWorld
