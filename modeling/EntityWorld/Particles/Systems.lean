import EntityWorld.Particles.Components
import EntityWorld.World.System

/-!
# Particle systems

Particles are spawned in the first fence, moved in a fence after Update, and aged out in a fence
before the last.
-/
namespace EntityWorld.Particles

def integrateFence : FenceId := ⟨"Integrate"⟩

def cleanupFence : FenceId := ⟨"Cleanup"⟩

def spawnedPerFrame : Nat := 64

/-- At this age a particle is destroyed. -/
def oldAge : Nat := 30

/-- What the systems keep. -/
structure Memory where
  position : Option Kind := none
  velocity : Option Kind := none
  age : Option Kind := none
  spawned : Nat := 0
  reaped : Nat := 0
  deriving DecidableEq, Repr

def logTarget : String := "fence_demo"

abbrev Body := Program (Access.interface Memory) Unit

abbrev SetUp := Program (Setup.interface Memory) (Except WorldError Unit)

abbrev Declare := Program (Declaration.interface Memory) (Except WorldError Unit)

/-! ### Spawner -/

def spawn : Nat → Body
  | 0 => return
  | n + 1 => do
    match ← Access.create particle.id with
    | .ok _ =>
      let _ ← Access.exchange fun m => { m with spawned := m.spawned + 1 }
      spawn n
    | .error e =>
      Access.log {
        level := .warn, target := logTarget, message := "spawn failed"
        fields := [("err", .printed e.message)] }

/-- Owns the particle definition and the fences. -/
def spawner : System Memory where
  name := "spawner"
  setUp := do
    match ← Setup.fence ⟨integrateFence, .update, .after⟩ with
    | .error e => return .error e
    | .ok () =>
      match ← Setup.fence ⟨cleanupFence, .unregister, .before⟩ with
      | .error e => return .error e
      | .ok () => return (← Setup.define particle).map fun _ => ()
  declare :=
    Declaration.schedule { name := "spawn", fence := .register, body := fun _ => spawn spawnedPerFrame }

/-! ### Physics -/

/-- Moves the particles that a task has for its own. -/
def integrate (positionKind velocityKind : Kind) (context : UpdateContext) : Body := do
  for a in ← Access.findKinds [positionKind, velocityKind] [] do
    match ← Access.read a velocityKind velocity with
    | .error _ => continue
    | .ok velocities =>
      let _ ← Access.edit a positionKind position fun total row value =>
        match (context.taskRange total).contains row, velocities[row]? with
        | true, some v => ((Vector3.ofRow value).add (.ofRow v)).toRow
        | _, _ => value

/-- Velocity of a new particle: some spread by raw id. -/
def launchVelocity (id : EntityId) : Vector3 :=
  let seed := (id.raw % 16).toUInt32.toFloat32
  ⟨1, seed * 0.5, -seed * 0.25⟩

/-- Gives a velocity to the particles that are alive and have none. -/
def launch (velocityKind : Kind) : Body := do
  for a in ← Access.findKinds [velocityKind] [] do
    let ids ← Access.entities a
    let _ ← Access.edit a velocityKind velocity fun _ row value =>
      match ids[row]? with
      | some id =>
        if id.life = .alive ∧ (Vector3.ofRow value).isZero then (launchVelocity id).toRow else value
      | none => value

def physics : System Memory where
  name := "physics"
  setUp := do
    let positionKind ← Setup.kindOf position.id
    let velocityKind ← Setup.kindOf velocity.id
    let _ ← Setup.exchange fun m => { m with position := positionKind, velocity := velocityKind }
    return .ok ()
  declare := do
    let memory ← Declaration.exchange id
    match memory.position, memory.velocity with
    | some positionKind, some velocityKind =>
      if ← Declaration.has "integrate" then return .ok ()
      else
        match ← Declaration.start {
            name := "integrate", fence := integrateFence, mode := .concurrentDistributed
            reads := [velocityKind], writes := [positionKind]
            body := integrate positionKind velocityKind } with
        | .error e => return .error e
        | .ok () =>
          Declaration.start {
            name := "launch", mode := .concurrent, writes := [velocityKind]
            body := fun _ => launch velocityKind }
    | _, _ => return .ok ()

/-! ### Reaper -/

def older (value : Row) : Row := ofWord (word value + 1)

/-- Ages the particles that are alive, and destroys those that have reached old age. -/
def grow (ageKind : Kind) : Body := do
  let mut expired := 0
  for a in ← Access.findKinds [ageKind] [] do
    match ← Access.read a ageKind age with
    | .error _ => continue
    | .ok ages =>
      let ids ← Access.entities a
      let isAlive (row : Nat) : Bool := ids[row]?.any (·.life = .alive)
      let _ ← Access.edit a ageKind age fun _ row value => if isAlive row then older value else value
      for (id, value) in ids.toList.zip ages.toList do
        if id.life = .alive ∧ oldAge ≤ word (older value) then
          Access.destroy id
          expired := expired + 1
  let reaped := expired
  let _ ← Access.exchange fun m => { m with reaped := m.reaped + reaped }

def reaper : System Memory where
  name := "reaper"
  setUp := do
    let ageKind ← Setup.kindOf age.id
    let _ ← Setup.exchange fun m => { m with age := ageKind }
    return .ok ()
  declare := do
    match (← Declaration.exchange id).age with
    | none => return .ok ()
    | some ageKind =>
      if ← Declaration.has "age" then return .ok ()
      else
        Declaration.start {
          name := "age", fence := cleanupFence, mode := .concurrent, writes := [ageKind]
          body := fun _ => grow ageKind }
  shutDown := fun memory => do
    Logged.emit {
      level := .info, target := logTarget, message := "reaper shut down"
      fields := [("reaped", .printed (toString memory.reaped))] }
    return memory

def systems : List (System Memory) := [spawner, physics, reaper]

end EntityWorld.Particles
