import EntityWorld.World.Basic

/-!
# Entity lifecycle

Life states change at fence boundaries. Queued destroy requests are applied after every fence;
after the first fence new entities become alive, and after the last one those that were on their way
out before the frame's commit are destroyed. A life state is only ever changed from what it is now,
so a request that comes late does nothing.
-/
namespace EntityWorld

structure LifecycleReport where
  promoted : Nat
  -- Destroy requests that put an entity on its way out.
  unregistered : Nat
  destroyed : Nat
  deriving DecidableEq, Repr

namespace LifecycleReport

def none : LifecycleReport := ⟨0, 0, 0⟩

instance : Inhabited LifecycleReport := ⟨none⟩

end LifecycleReport

inductive DestroyOutcome where
  | unregistered
  -- The entity is on its way out already.
  | noEffect
  | unknown
  deriving DecidableEq, Repr

namespace World

variable {σ : Type}

/-- Changes the life state of a stored entity. Callers check the change first, so a refusal is
misuse. -/
def setLife (w : World σ) (current : EntityId) (target : LifeState) :
    Logged (Except Fault Unit × World σ) :=
  match current.transition target with
  | .error cause => do
    let misuse := Misuse.lifeChange current cause
    Logged.emit misuse.event
    return (.error (.misuse misuse), w)
  | .ok next =>
    match w.shared.store.update current next with
    | (.ok (), store) => return (.ok (), { w with shared.store := store })
    | (.error cause, store) => do
      let misuse := Misuse.lifeUpdate current cause
      Logged.emit misuse.event
      return (.error (.misuse misuse), { w with shared.store := store })

/-- An entity in this state can be put on its way out. -/
def canUnregister : LifeState → Bool
  | .register | .alive => true
  | .unregister | .destroyed => false

/-- Puts the entity with the raw id of `id` on its way out, stored or waiting. -/
def applyDestroy (w : World σ) (id : EntityId) : Logged (Except Fault DestroyOutcome × World σ) :=
  match w.shared.store.entity? id.raw with
  | some current =>
    if canUnregister current.life then do
      match ← w.setLife current .unregister with
      | (.error fault, w) => return (.error fault, w)
      | (.ok (), w) =>
        return (.ok .unregistered, { w with nextUnregistering := w.nextUnregistering ++ [id.raw] })
    else return (.ok .noEffect, w)
  | none =>
    match w.shared.deferred? id.raw with
    | none => return (.ok .unknown, w)
    | some entry =>
      if canUnregister entry.id.life then
        return (.ok .unregistered, { w with
          shared := w.shared.modifyDeferred id.raw fun id => id.withLife .unregister
          nextUnregistering := w.nextUnregistering ++ [id.raw] })
      else return (.ok .noEffect, w)

def destroy (w : World σ) (id : EntityId) :
    Logged (Except (Failure WorldError) Unit × World σ) := do
  match ← w.applyDestroy id with
  | (.error fault, w) => return (.error (.fault fault), w)
  | (.ok .unknown, w) => return (.error (.error (.unknownEntity id)), w)
  | (.ok _, w) => return (.ok (), w)

/-- Applies destroy requests in order; counts those that put an entity on its way out. -/
def applyDestroys : List EntityId → Nat → World σ → Logged (Except Fault Nat × World σ)
  | [], count, w => return (.ok count, w)
  | id :: rest, count, w => do
    match ← w.applyDestroy id with
    | (.error fault, w) => return (.error fault, w)
    | (.ok .unregistered, w) => applyDestroys rest (count + 1) w
    | (.ok .noEffect, w) => applyDestroys rest count w
    | (.ok .unknown, w) =>
      note .debug "destroy request for unknown entity ignored" [("entity", .printed id.text)]
      applyDestroys rest count w

/-- Moves the listed entities that are in state `source` to state `target`; counts them. -/
def advance (source target : LifeState) : List Nat → Nat → World σ →
    Logged (Except Fault Nat × World σ)
  | [], count, w => return (.ok count, w)
  | raw :: rest, count, w =>
    match w.shared.store.entity? raw with
    | none => advance source target rest count w
    | some current =>
      if current.life = source then do
        match ← w.setLife current target with
        | (.error fault, w) => return (.error fault, w)
        | (.ok (), w) => advance source target rest (count + 1) w
      else advance source target rest count w

/-- What happens to entities after a fence. -/
def applyBoundary (w : World σ) (fence : FenceId) (life : LifecycleReport) :
    Logged (Except Fault LifecycleReport × World σ) := do
  let taken := { w with shared.destroys := [] }
  match ← applyDestroys w.shared.destroys life.unregistered taken with
  | (.error fault, w) => return (.error fault, w)
  | (.ok unregistered, w) =>
    let life := { life with unregistered }
    if fence = .register then
      let (result, w) ← advance .register .alive w.registering life.promoted
        { w with registering := [] }
      return (result.map fun promoted => { life with promoted }, w)
    else if fence = .unregister then
      let (result, w) ← advance .unregister .destroyed w.unregistering life.destroyed
        { w with unregistering := [] }
      return (result.map fun destroyed => { life with destroyed }, w)
    else return (.ok life, w)

end World

end EntityWorld
