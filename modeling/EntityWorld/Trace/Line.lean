import EntityWorld.Trace.Event

/-!
# Log lines

One line for each event: its level, the spans it was made in, the part of the program that made it,
the message, and the fields.
-/
namespace EntityWorld.Event

def line (e : Event) : String :=
  let spans := if e.spans.isEmpty then "" else String.join (e.spans.map (·.name ++ ":")) ++ " "
  let fields := e.fields.map fun (name, value) => " " ++ name ++ "=" ++ value.shown
  e.level.text ++ " " ++ spans ++ e.target ++ ": " ++ e.message ++ String.join fields

end EntityWorld.Event
