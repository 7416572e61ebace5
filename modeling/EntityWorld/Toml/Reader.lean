/-!
# Readers

A reader takes characters off the front of a text, or refuses it. A choice tries its second reader
on the same text where the first refuses. A repetition ends where its reader refuses or takes
nothing, so it always ends.
-/
namespace EntityWorld.Toml

abbrev Reader (α : Type) := StateT (List Char) Option α

namespace Reader

variable {α β : Type}

/-- One character of a class. -/
def one (p : Char → Bool) : Reader Char := fun text =>
  match text with
  | c :: rest => if p c then some (c, rest) else none
  | [] => none

def char (c : Char) : Reader Unit := discard (one (· == c))

def exactly (word : String) : Reader Unit := word.toList.forM char

/-- As many characters of a class as there are. -/
def takeWhile (p : Char → Bool) : Reader (List Char) := fun text =>
  some (text.takeWhile p, text.dropWhile p)

def atEnd : Reader Unit := fun text => if text.isEmpty then some ((), text) else none

def times (n : Nat) (item : Reader α) : Reader (List α) := (List.replicate n item).mapM id

def many (item : Reader α) : Reader (List α) := fun text =>
  match item text with
  | some (a, rest) =>
    if rest.length < text.length then do
      let (more, rest) ← many item rest
      return (a :: more, rest)
    else some ([], text)
  | none => some ([], text)
termination_by text => text.length

/-- The reader, if it does not refuse. -/
def maybe (item : Reader α) : Reader Unit := discard item <|> pure ()

/-- At least one, with a mark between each two. -/
def separated (mark : Char) (item : Reader α) : Reader (List α) := do
  let first ← item
  let more ← many do
    char mark
    item
  return first :: more

/-- Accepts what was read only if it passes a test. -/
def accept (test : Bool) : Reader Unit := if test then pure () else failure

/-- The whole text. -/
def readAll (item : Reader α) (text : String) : Option α := do
  let (a, rest) ← item text.toList
  if rest.isEmpty then return a else none

/-- The run of characters is as long as it can be. -/
theorem takeWhile_eq_some {p : Char → Bool} {text taken rest : List Char}
    (read : takeWhile p text = some (taken, rest)) :
    taken ++ rest = text ∧ taken.all p ∧ (rest.head?.all fun c => !p c) := by
  simp only [takeWhile, Option.some.injEq, Prod.mk.injEq] at read
  obtain ⟨rfl, rfl⟩ := read
  refine ⟨List.takeWhile_append_dropWhile, List.all_takeWhile, ?_⟩
  have stops := List.head?_dropWhile_not p text
  cases first : (text.dropWhile p).head? <;> simp_all

end Reader

end EntityWorld.Toml
