import EntityWorld.Component.Registry

/-!
# Entity collections

One collection holds every entity of one component sequence, in two generations. Creation appends to
the pending generation; a commit sweeps destroyed rows out of the current one and then moves the
pending rows over. Row numbers mean nothing across a commit.
-/
namespace EntityWorld

/-- Entities in row order, their components column by column, and the row of each raw id. -/
structure Generation where
  ids : Array EntityId
  -- One column per kind of the sequence, in its order.
  columns : List Column
  rows : Std.TreeMap Nat Nat

namespace Generation

def empty : Generation := ⟨#[], [], ∅⟩

def size (g : Generation) : Nat := g.ids.size

/-- Appends an entity with default components. A raw id that is already here now means the new
row. -/
def append (g : Generation) (id : EntityId) : Generation :=
  { ids := g.ids.push id
    columns := g.columns.map Column.pushDefault
    rows := g.rows.insert id.raw g.ids.size }

def entity? (g : Generation) (raw : Nat) : Option EntityId :=
  g.rows[raw]?.bind fun row => g.ids[row]?

def rowOf? (g : Generation) (id : EntityId) : Option Nat :=
  g.rows[id.raw]?.filter fun row => g.ids[row]? = some id

/-- First row with the raw id of `id`, found by looking at every row. -/
def scanFor? (g : Generation) (id : EntityId) : Option Nat :=
  g.ids.findIdx? fun other => other.raw = id.raw

/-- Overwrites an id, matched by its full value. -/
def replace? (g : Generation) (id next : EntityId) : Option Generation :=
  (g.rowOf? id).map fun row => { g with ids := g.ids.setIfInBounds row next }

def clear (g : Generation) : Generation :=
  ⟨#[], g.columns.map Column.clear, ∅⟩

/-- Swap-removes a row from each column, up to the first that does not have it. -/
def removeFromColumns (row : Nat) : List Column → Except Fault Unit × List Column
  | [] => (.ok (), [])
  | column :: rest =>
    match column.swapRemove row with
    | .error fault => (.error fault, column :: rest)
    | .ok shorter =>
      let (result, rest) := removeFromColumns row rest
      (result, shorter :: rest)

def removeRow (g : Generation) (row : Nat) (id : EntityId) : Except Fault Unit × Generation :=
  let ids := swapRemove g.ids row
  let (result, columns) := removeFromColumns row g.columns
  match result with
  | .error fault => (.error fault, ⟨ids, columns, g.rows⟩)
  | .ok () =>
    let rows := g.rows.erase id.raw
    match ids[row]? with
    | some moved => (.ok (), ⟨ids, columns, rows.insert moved.raw row⟩)
    | none => (.ok (), ⟨ids, columns, rows⟩)

/-- Copies a row of each source column to the end of its counterpart, up to the first that cannot
be copied. Columns without a counterpart are left alone. -/
def copyRow (row : Nat) : List Column → List Column → Except CollectionError Unit × List Column
  | column :: rest, source :: sources =>
    match column.pushFrom source row with
    | .error cause => (.error cause, column :: rest)
    | .ok longer =>
      let (result, rest) := copyRow row rest sources
      (result, longer :: rest)
  | columns, _ => (.ok (), columns)

def appendFrom (g source : Generation) (row : Nat) (id : EntityId) :
    Except CollectionError Unit × Generation :=
  let (result, columns) := copyRow row g.columns source.columns
  match result with
  | .error cause => (.error cause, { g with columns })
  | .ok () => (.ok (), ⟨g.ids.push id, columns, g.rows.insert id.raw g.ids.size⟩)

end Generation

structure CommitReport where
  -- Destroyed entities swept from current, then pending ones destroyed before they got there.
  removed : Array EntityId
  -- Pending entities that moved into current.
  migrated : Array EntityId
  deriving DecidableEq, Repr

namespace CommitReport

def empty : CommitReport := ⟨#[], #[]⟩

instance : Inhabited CommitReport := ⟨empty⟩

def isEmpty (r : CommitReport) : Bool := r.removed.isEmpty && r.migrated.isEmpty

def append (a b : CommitReport) : CommitReport :=
  ⟨a.removed ++ b.removed, a.migrated ++ b.migrated⟩

end CommitReport

structure Collection where
  -- Empty until the collection is bound.
  sequence : Sequence
  definitions : List DefinitionId
  current : Generation
  pending : Generation

namespace Collection

def unbound : Collection := ⟨.empty, [], .empty, .empty⟩

instance : Inhabited Collection := ⟨unbound⟩

def buildColumns (registry : Registry) : List Kind → Except CollectionError (List Column)
  | [] => .ok []
  | kind :: rest =>
    match registry.createColumn kind with
    | .error _ => .error (.unknownKind kind)
    | .ok column => (buildColumns registry rest).map (column :: ·)

/-- Binds the collection to a sequence. The first call builds the columns of both generations; later
calls must name the same sequence. -/
def bind (c : Collection) (registry : Registry) (sequence : Sequence) :
    Except CollectionError Collection :=
  if sequence.isEmpty then .error .emptySequence
  else if c.sequence.isEmpty then
    (buildColumns registry sequence.kinds).map fun columns =>
      { c with
        sequence
        current := { c.current with columns }
        pending := { c.pending with columns } }
  else if c.sequence = sequence then .ok c
  else .error (.sequenceMismatch c.sequence sequence)

/-- Notes that a definition creates its entities here, once. -/
def attach (c : Collection) (definition : DefinitionId) : Logged Collection :=
  if definition ∈ c.definitions then do
    Logged.emit {
      level := .warn
      target := "cadence_core::ecs::archetype"
      message := "definition already attached to collection"
      fields := [("definition", .printed definition.text)] }
    return c
  else return { c with definitions := c.definitions ++ [definition] }

/-- Binds, and then attaches a definition if there is one. -/
def setUp (c : Collection) (registry : Registry) (definition? : Option DefinitionId)
    (sequence : Sequence) : Logged (Except CollectionError Unit × Collection) :=
  match c.bind registry sequence with
  | .error cause => return (.error cause, c)
  | .ok bound =>
    match definition? with
    | none => return (.ok (), bound)
    | some definition => return (.ok (), ← bound.attach definition)

def create (c : Collection) (id : EntityId) : Collection :=
  { c with pending := c.pending.append id }

/-- Overwrites the flags of an entity, matched by its full id, first in current, then in pending. -/
def update (c : Collection) (id next : EntityId) : Except CollectionError Unit × Collection :=
  if id.raw ≠ next.raw then (.error (.rawIdMismatch id next), c)
  else
    match (if id.lifeDiffers next then id.transition next.life else .ok id) with
    | .error cause => (.error (.illegalTransition cause), c)
    | .ok _ =>
      match c.current.replace? id next with
      | some current => (.ok (), { c with current })
      | none =>
        match c.pending.replace? id next with
        | some pending => (.ok (), { c with pending })
        | none => (.error (.notFound id), c)

/-- Sweeps destroyed rows from `row` on. The row moved into the place of a removed one is looked at
next, so every step either removes a row or passes one, and as many steps as rows are enough. -/
def sweepFrom : Nat → Nat → Generation → Array EntityId →
    Except Fault (Array EntityId) × Generation
  | 0, _, g, removed => (.ok removed, g)
  | steps + 1, row, g, removed =>
    match g.ids[row]? with
    | none => (.ok removed, g)
    | some id =>
      if id.life = .destroyed then
        match g.removeRow row id with
        | (.error fault, g) => (.error fault, g)
        | (.ok (), g) => sweepFrom steps row g (removed.push id)
      else sweepFrom steps (row + 1) g removed

def sweep (g : Generation) : Except Fault (Array EntityId) × Generation :=
  sweepFrom g.size 0 g #[]

/-- Moves pending rows, from `row` on, to the end of current; destroyed ones are left behind. -/
def migrateFrom (source : Generation) : Nat → List EntityId → Generation → CommitReport →
    Except CollectionError CommitReport × Generation
  | _, [], g, report => (.ok report, g)
  | row, id :: rest, g, report =>
    if id.life = .destroyed then
      migrateFrom source (row + 1) rest g { report with removed := report.removed.push id }
    else
      match g.appendFrom source row id with
      | (.error cause, g) => (.error cause, g)
      | (.ok (), g) =>
        migrateFrom source (row + 1) rest g { report with migrated := report.migrated.push id }

/-- Sweeps destroyed entities from current and moves pending into it. A failure ends the commit
where it happens; pending is then left as it was. -/
def commit (c : Collection) : Except (Failure CollectionError) CommitReport × Collection :=
  match sweep c.current with
  | (.error fault, current) => (.error (.fault fault), { c with current })
  | (.ok removed, current) =>
    match migrateFrom c.pending 0 c.pending.ids.toList current ⟨removed, #[]⟩ with
    | (.error cause, current) => (.error (.error cause), { c with current })
    | (.ok report, current) => (.ok report, { c with current, pending := c.pending.clear })

def size (c : Collection) : Nat := c.current.size

def isEmpty (c : Collection) : Bool := c.current.ids.isEmpty

def pendingSize (c : Collection) : Nat := c.pending.size

def entity? (c : Collection) (raw : Nat) : Option EntityId :=
  if c.current.rows.contains raw then c.current.entity? raw else c.pending.entity? raw

def column? (c : Collection) (kind : Kind) : Option Column :=
  (c.sequence.position? kind).bind fun position => c.current.columns[position]?

/-- The current rows of a kind, read as the named type. -/
def read (c : Collection) (kind : Kind) (type : StoredType) : Except CollectionError (Array Row) :=
  match c.column? kind with
  | none => .error (.missingKind kind)
  | some column =>
    if column.type.id = type.id then .ok column.rows else .error (.columnType kind type.name)

/-- Changes the current rows of a kind in place, read as the named type. The number of rows does
not change. -/
def edit (c : Collection) (kind : Kind) (type : StoredType) (change : Nat → Row → Row) :
    Except CollectionError Collection :=
  match c.read kind type with
  | .error cause => .error cause
  | .ok _ =>
    match c.sequence.position? kind with
    | none => .error (.missingKind kind)
    | some position =>
      .ok { c with current.columns := c.current.columns.modify position fun column =>
              { column with rows := column.rows.mapIdx change } }

def bytes? (c : Collection) (kind : Kind) : Option (List UInt8) :=
  (c.column? kind).map Column.bytes

def inspect (c : Collection) : String :=
  Text.inspectOpenRecord "EntityCollection"
    [("sequence", c.sequence.inspect),
     ("definitions", Text.inspectList (c.definitions.map DefinitionId.inspect)),
     ("len", toString c.size),
     ("pending", toString c.pendingSize)]

end Collection

end EntityWorld
