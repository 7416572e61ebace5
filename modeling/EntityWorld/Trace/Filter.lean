import EntityWorld.Trace.Event

/-!
# Filters

Which events are shown. A filter is a list of directives, each with a level up to which it lets
events through and conditions on where they come from. A directive that names a span or a field of a
span acts while such a span is entered; for all else the most specific directive decides.
-/
namespace EntityWorld

/-- How much is let through, from nothing at 0 to every level at 5. -/
structure Threshold where
  verbosity : Nat
  deriving DecidableEq, Repr

namespace Threshold

def allows (t : Threshold) (level : Level) : Bool := 5 - level.rank ≤ t.verbosity

def everything : Threshold := ⟨5⟩

def nothing : Threshold := ⟨0⟩

def upTo (level : Level) : Threshold := ⟨5 - level.rank⟩

theorem allows_upTo (limit level : Level) :
    (upTo limit).allows level = decide (limit.rank ≤ level.rank) := by
  cases limit <;> cases level <;> rfl

/-- A number from 0 to 5, or the name of a level in any case. -/
def ofText? (s : String) : Option Threshold :=
  let digits := match s.toList with
    | '+' :: rest => rest
    | all => all
  let number := digits.foldl (fun n c => 10 * n + (c.toNat - '0'.toNat)) 0
  if !digits.isEmpty && digits.all Char.isDigit && number ≤ 5 then some ⟨number⟩
  else if s.toLower == "off" then some nothing
  else
    ([.trace, .debug, .info, .warn, .error] : List Level).find? (·.text == s.toUpper) |>.map upTo

end Threshold

structure FieldPattern where
  name : String
  -- Asks for a value too.
  hasValue : Bool
  deriving DecidableEq, Repr

structure Directive where
  -- How the name of the part of the program begins.
  target : String := ""
  span : Option String := none
  field : Option FieldPattern := none
  threshold : Threshold := .everything
  deriving DecidableEq, Repr

namespace Directive

/-- The characters of a directive, as its signs are looked for and as its names are cut out: blanks
around the directive count for the second only. -/
abbrev Signs := List (Char × Char)

private def cut (s : Signs) : String := String.ofList (s.map (·.2))

private def isBlank (c : Char) : Bool := c == ' ' || ('\t' ≤ c && c ≤ '\r')

private def trimmed (l : List Char) : List Char :=
  ((l.dropWhile isBlank).reverse.dropWhile isBlank).reverse

/-- A directive begins with a word or a span. -/
private def startsWord (c : Char) : Bool :=
  c.isAlphanum || c == '-' || c == ':' || c == '_' || c.toNat ≥ 128

/-- What follows the equals sign. -/
private def withLevel? (d : Directive) (text : String) : Option Directive :=
  if text.isEmpty then some d
  else (Threshold.ofText? text).map fun threshold => { d with threshold }

private def afterSpan? (d : Directive) (tail : String) : Signs → Option Directive
  | [] => some d
  | ('=', _) :: rest => d.withLevel? (cut rest ++ tail)
  | _ => none

private def fieldOf (text : String) : FieldPattern :=
  match text.splitOn "=" with
  | name :: rest => ⟨name, !rest.isEmpty⟩
  | [] => ⟨text, false⟩

/-- What follows the opening bracket. -/
private def withSpan? (d : Directive) (tail : String) (text : Signs) : Option Directive :=
  let inside (p : Char × Char) : Bool := p.1 != ']' && p.1 != '\x7b'
  let name := cut (text.takeWhile inside)
  match text.dropWhile inside with
  | (']', _) :: rest => afterSpan? { d with span := some name } tail rest
  | _ :: rest =>
    let pattern := rest.takeWhile (·.1 != '\x7d')
    match rest.dropWhile (·.1 != '\x7d') with
    | _ :: (']', _) :: rest =>
      if pattern.isEmpty then none
      else
        let span := if name.isEmpty then none else some name
        afterSpan? { d with span, field := some (fieldOf (cut pattern)) } tail rest
    | _ => none
  | [] => none

/-- A level, a target, or a target and a span in brackets with a level after an equals sign. -/
def ofText? (s : String) : Option Directive :=
  let signs := trimmed s.toList
  let tail := String.ofList (s.toList.drop signs.length)
  let text := signs.zip s.toList
  match signs with
  | [] => none
  | first :: _ =>
    if first == '[' then withSpan? {} tail (text.drop 1)
    else if !startsWord first then none
    else
      let inside (p : Char × Char) : Bool := p.1 != '=' && p.1 != '['
      let word := cut (text.takeWhile inside)
      match text.dropWhile inside with
      | [] =>
        match Threshold.ofText? (word ++ tail) with
        | some threshold => some { threshold }
        | none => some { target := word ++ tail }
      | ('=', _) :: rest => withLevel? { target := word } (cut rest ++ tail)
      | _ :: rest => withSpan? { target := word } tail rest

/-- It acts while a span is entered. -/
def isDynamic (d : Directive) : Bool := d.span.isSome || d.field.isSome

/-- It acts wherever its target is. -/
def isStatic (d : Directive) : Bool := d.span.isNone && !d.field.any (·.hasValue)

def matchesTarget (d : Directive) (target : String) : Bool := target.startsWith d.target

/-- Spans have no fields here. -/
def matchesSpan (d : Directive) (s : Span) : Bool :=
  d.isDynamic && d.matchesTarget s.target && d.span.all (· == s.name) && d.field.isNone

def matchesEvent (d : Directive) (e : Event) : Bool :=
  d.matchesTarget e.target &&
    d.field.all fun f => f.name == "message" || e.fields.any (·.1 == f.name)

/-- Longer targets are more specific, and then directives with a field. -/
def isAtLeastAsSpecific (a b : Directive) : Bool :=
  let name (d : Directive) : String := (d.field.map (·.name)).getD ""
  b.target.utf8ByteSize < a.target.utf8ByteSize ||
    (b.target.utf8ByteSize == a.target.utf8ByteSize &&
      (a.field.isSome && b.field.isNone ||
        (a.field.isSome == b.field.isSome && !(name a < name b))))

end Directive

structure Filter where
  directives : List Directive
  deriving DecidableEq, Repr

namespace Filter

def upTo (level : Level) : Filter := ⟨[{ threshold := .upTo level }]⟩

/-- Directives with commas between them; without any, only errors are shown. -/
def ofText? (s : String) : Option Filter := do
  let directives ← ((s.splitOn ",").filter (!·.isEmpty)).mapM Directive.ofText?
  return if directives.isEmpty then upTo .error else ⟨directives⟩

/-- The filter that a setting stands for; one that is missing or cannot be read stands for
information. -/
def ofSetting (setting : Option String) : Filter :=
  (setting.bind ofText?).getD (upTo .info)

/-- Nothing beyond this is shown, whatever else holds. -/
def limit (f : Filter) : Threshold :=
  if f.directives.any fun d => d.isDynamic && d.field.any (·.hasValue) then .everything
  else ⟨(f.directives.map (·.threshold.verbosity)).foldl max 0⟩

/-- The most specific directive that acts everywhere, among those that match; of equals the last. -/
def decisive? (f : Filter) (isMatch : Directive → Bool) : Option Directive :=
  (f.directives.filter fun d => d.isStatic && isMatch d).foldl
    (fun best d => if best.all d.isAtLeastAsSpecific then some d else best) none

def allowsBySource (f : Filter) (level : Level) (isMatch : Directive → Bool) : Bool :=
  (f.decisive? isMatch).any (·.threshold.allows level)

/-- The threshold in force while a span is entered, if a directive asks for that span. -/
def spanThreshold? (f : Filter) (s : Span) : Option Threshold :=
  match f.directives.filter (·.matchesSpan s) with
  | [] => none
  | found => some ⟨(found.map (·.threshold.verbosity)).foldl max 0⟩

/-- Enters spans, outermost first; gives those that are shown and the thresholds in force. -/
def enter (f : Filter) (inForce : List Threshold) : List Span → List Span × List Threshold
  | [] => ([], inForce)
  | s :: rest =>
    let own := f.spanThreshold? s
    let allowed := own.isSome || inForce.any (·.allows s.level) ||
      f.allowsBySource s.level (·.matchesTarget s.target)
    if allowed && f.limit.allows s.level then
      let (shown, inForce) := f.enter (own.toList ++ inForce) rest
      (s :: shown, inForce)
    else f.enter inForce rest

def shown? (f : Filter) (e : Event) : Option Event :=
  let (spans, inForce) := f.enter [] e.spans
  let allowed := inForce.any (·.allows e.level) || f.allowsBySource e.level (·.matchesEvent e)
  if allowed && f.limit.allows e.level then some { e with spans } else none

/-- A filter of one level shows exactly the events up to that level. -/
theorem shown?_upTo_isSome (level : Level) (e : Event) :
    ((upTo level).shown? e).isSome = decide (level.rank ≤ e.level.rank) := by
  have plain (s : Span) : (upTo level).spanThreshold? s = none := rfl
  have nothing (spans : List Span) : ((upTo level).enter [] spans).2 = [] := by
    induction spans with
    | nil => rfl
    | cons s rest ih =>
      simp only [enter, plain]
      split <;> exact ih
  have most : (upTo level).limit = .upTo level := by
    simp [limit, upTo, Directive.isDynamic]
  have source : (upTo level).allowsBySource e.level (·.matchesEvent e) =
      (Threshold.upTo level).allows e.level := by
    simp [allowsBySource, decisive?, upTo, Directive.isStatic, Directive.matchesEvent,
      Directive.matchesTarget]
  simp only [shown?, nothing, most, source, Threshold.allows_upTo, List.any_nil, Bool.false_or,
    Bool.and_self]
  split <;> simp_all

end Filter

end EntityWorld
