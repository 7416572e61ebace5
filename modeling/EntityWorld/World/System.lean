import EntityWorld.Fence.Scheduler

/-!
# Systems

A system is a unit of game logic. It asks for fences and definitions once, while the world is built;
it is told when there are new archetypes; and it declares updates in every frame. Each of the three
has its own commands, so a system cannot do anything out of turn.
-/
namespace EntityWorld

namespace Setup

inductive Request (σ : Type) where
  | fence (request : FenceRequest)
  | define (definition : EntityDefinition)
  | kindOf (type : TypeId)
  | kindCount
  -- Changes the memory; the answer is what it was before.
  | exchange (change : σ → σ)

def Answer {σ : Type} : Request σ → Type
  | .fence _ => Except WorldError Unit
  | .define _ => Except WorldError ArchetypeId
  | .kindOf _ => Option Kind
  | .kindCount => Nat
  | .exchange _ => σ

abbrev interface (σ : Type) : Interface := ⟨Request σ, Answer⟩

variable {σ : Type}

def ask (request : Request σ) : Program (interface σ) (Answer request) := .call request .done

def fence (request : FenceRequest) : Program (interface σ) (Except WorldError Unit) :=
  ask (.fence request)

def define (definition : EntityDefinition) :
    Program (interface σ) (Except WorldError ArchetypeId) :=
  ask (.define definition)

def kindOf (type : TypeId) : Program (interface σ) (Option Kind) := ask (.kindOf type)

def kindCount : Program (interface σ) Nat := ask .kindCount

def exchange (change : σ → σ) : Program (interface σ) σ := ask (.exchange change)

end Setup

namespace Query

inductive Request (σ : Type) where
  | kindOf (type : TypeId)
  | find (wanted unwanted : List TypeId)
  | findKinds (wanted unwanted : List Kind)
  | collection (archetype : ArchetypeId)
  | exchange (change : σ → σ)

def Answer {σ : Type} : Request σ → Type
  | .kindOf _ => Option Kind
  | .find .. | .findKinds .. => List ArchetypeId
  | .collection _ => Option Collection
  | .exchange _ => σ

abbrev interface (σ : Type) : Interface := ⟨Request σ, Answer⟩

variable {σ : Type}

def ask (request : Request σ) : Program (interface σ) (Answer request) := .call request .done

def kindOf (type : TypeId) : Program (interface σ) (Option Kind) := ask (.kindOf type)

def find (wanted unwanted : List TypeId) : Program (interface σ) (List ArchetypeId) :=
  ask (.find wanted unwanted)

def findKinds (wanted unwanted : List Kind) : Program (interface σ) (List ArchetypeId) :=
  ask (.findKinds wanted unwanted)

def collection (a : ArchetypeId) : Program (interface σ) (Option Collection) := ask (.collection a)

def exchange (change : σ → σ) : Program (interface σ) σ := ask (.exchange change)

end Query

namespace Declaration

inductive Request (σ : Type) where
  | schedule (update : Update σ)
  | start (update : Update σ)
  | stop (name : String)
  | has (name : String)
  | kindOf (type : TypeId)
  | frame
  | exchange (change : σ → σ)

def Answer {σ : Type} : Request σ → Type
  | .schedule _ | .start _ | .stop _ => Except WorldError Unit
  | .has _ => Bool
  | .kindOf _ => Option Kind
  | .frame => Nat
  | .exchange _ => σ

abbrev interface (σ : Type) : Interface := ⟨Request σ, Answer⟩

variable {σ : Type}

def ask (request : Request σ) : Program (interface σ) (Answer request) := .call request .done

def schedule (update : Update σ) : Program (interface σ) (Except WorldError Unit) :=
  ask (.schedule update)

def start (update : Update σ) : Program (interface σ) (Except WorldError Unit) :=
  ask (.start update)

def stop (name : String) : Program (interface σ) (Except WorldError Unit) := ask (.stop name)

def has (name : String) : Program (interface σ) Bool := ask (.has name)

def kindOf (type : TypeId) : Program (interface σ) (Option Kind) := ask (.kindOf type)

def frame : Program (interface σ) Nat := ask .frame

def exchange (change : σ → σ) : Program (interface σ) σ := ask (.exchange change)

end Declaration

structure System (σ : Type) where
  -- Used in logs and errors.
  name : String
  -- Runs once, before the fence order is frozen; an error aborts the construction of the world.
  setUp : Program (Setup.interface σ) (Except WorldError Unit)
  -- Runs after the archetype index was rebuilt.
  rebind : Program (Query.interface σ) Unit := .done ()
  -- Runs in every frame; an error aborts the frame.
  declare : Program (Declaration.interface σ) (Except WorldError Unit)
  -- Runs once, when the world shuts down.
  shutDown : σ → Logged σ := fun memory => return memory

end EntityWorld
