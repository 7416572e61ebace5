import EntityWorld.Proofs.World.Asks
import EntityWorld.Proofs.World.MirroredFrames

/-!
# Runs of mirrored worlds

Worlds that mirror each other can be asked for the same, answer alike and mirror each other after every
answer, and so they do after every frame. Main statements: `Moment.Mirrored.serve?` and
`Moment.Mirrored.operate?`.
-/
namespace EntityWorld

open List (Forall₂)
open World (Settled)

variable {σ : Type} {mirror : Mirror σ}

/-- The same is asked for, of entities that may go by other ids and with programs that do alike. -/
inductive Ask.Alike (mirror : Mirror σ) : Ask σ → Ask σ → Prop
  | create (d : DefinitionId) : Alike mirror (.create d) (.create d)
  | createWith (types : List TypeId) : Alike mirror (.createWith types) (.createWith types)
  | destroy {id id' : EntityId} (named : mirror.Named id id') : Alike mirror (.destroy id) (.destroy id')
  | setPriority {id id' : EntityId} {p : Priority} (named : mirror.Named id id')
      (agree : ∀ x, mirror.relabel (x.withPriority p) = (mirror.relabel x).withPriority p) :
      Alike mirror (.setPriority id p) (.setPriority id' p)
  | setDefinitionState (d : DefinitionId) (state : LoadState) :
      Alike mirror (.setDefinitionState d state) (.setDefinitionState d state)
  | access {α β : Type} {R : α → β → Prop} {program : Program (Access.interface σ) α}
      {program' : Program (Access.interface σ) β} (does : program.Alike mirror.access R program') :
      Alike mirror (.access program) (.access program')
  | attempt : Alike mirror .attempt .attempt
  | declare : Alike mirror .declare .declare
  | execute (moves : List Batch.Move) : Alike mirror (.execute moves) (.execute moves)
  | bound (life : LifecycleReport) : Alike mirror (.bound life) (.bound life)
  | finish : Alike mirror .finish .finish

/-- The same is answered, of entities that may go by other ids. -/
inductive Dealing.Alike (mirror : Mirror σ) : Dealing σ → Dealing σ → Prop
  | create {d : DefinitionId} {answer : Except WorldError EntityId} :
      Alike mirror ⟨.create d, answer⟩ ⟨.create d, answer⟩
  | createWith {types : List TypeId} {answer : Except WorldError EntityId} :
      Alike mirror ⟨.createWith types, answer⟩ ⟨.createWith types, answer⟩
  | destroy {id id' : EntityId} {answer answer' : Except (Failure WorldError) Unit}
      (verdict : Verdict (Failure.Alike mirror.Refused) (fun _ _ => True) answer answer') :
      Alike mirror ⟨.destroy id, answer⟩ ⟨.destroy id', answer'⟩
  | setPriority {id id' : EntityId} {p : Priority} {answer answer' : Except WorldError EntityId}
      (verdict : Verdict mirror.Refused (fun x y => y = mirror.relabel x) answer answer') :
      Alike mirror ⟨.setPriority id p, answer⟩ ⟨.setPriority id' p, answer'⟩
  | setDefinitionState {d : DefinitionId} {state : LoadState} {answer : Except WorldError Unit} :
      Alike mirror ⟨.setDefinitionState d state, answer⟩ ⟨.setDefinitionState d state, answer⟩
  | access {α β : Type} {program : Program (Access.interface σ) α}
      {program' : Program (Access.interface σ) β} {heard heard' : List (Heard (Access.interface σ))}
      {a : α} {b : β} (hear : Forall₂ (Heard.Alike mirror.access) heard heard')
      (same : ∀ R, program.Alike mirror.access R program' → R a b) :
      Alike mirror ⟨.access program, (heard, a)⟩ ⟨.access program', (heard', b)⟩
  | attempt {report : CommitReport} :
      Alike mirror ⟨.attempt, report⟩ ⟨.attempt, report.relabel mirror.relabel⟩
  | declare {answer answer' : Option (String × WorldError)}
      (failed : Option.Rel (fun a b => b.1 = a.1 ∧ mirror.Refused a.2 b.2) answer answer') :
      Alike mirror ⟨.declare, answer⟩ ⟨.declare, answer'⟩
  | execute {moves : List Batch.Move} {heard heard' : List (Heard (Access.interface σ))}
      (hear : Forall₂ (Heard.Alike mirror.access) heard heard') :
      Alike mirror ⟨.execute moves, heard⟩ ⟨.execute moves, heard'⟩
  | bound {life life' : LifecycleReport} : Alike mirror ⟨.bound life, life'⟩ ⟨.bound life, life'⟩
  | finish : Alike mirror ⟨.finish, ()⟩ ⟨.finish, ()⟩

namespace Moment

/-- Two worlds stand at the same place and mirror each other. -/
inductive Mirrored (mirror : Mirror σ) : Moment σ → Moment σ → Prop
  | resting {w v : World σ} (both : World.Mirrored mirror w v) : Mirrored mirror (.resting w) (.resting v)
  | declaring {w v : World σ} (both : World.Mirrored mirror w v) :
      Mirrored mirror (.declaring w) (.declaring v)
  | passing {w v : World σ} {left : List FenceId} (both : World.Mirrored mirror w v) :
      Mirrored mirror (.passing w left) (.passing v left)
  | leaving {w v : World σ} {fence : FenceId} {left : List FenceId}
      (both : World.Mirrored mirror w v) : Mirrored mirror (.leaving w fence left) (.leaving v fence left)

theorem Mirrored.world {m n : Moment σ} (mirrored : m.Mirrored mirror n) :
    World.Mirrored mirror m.world n.world := by
  cases mirrored with
  | resting both | declaring both | passing both | leaving both => exact both

end Moment

/-! ### Operations -/

/-- What can be done with a world: it is asked for something, or it goes through a whole frame. -/
inductive Operation (σ : Type) : Type 1 where
  | ask (ask : Ask σ)
  | frame (timing : Timing)

/-- What comes of it. The times that were measured are left out. -/
inductive Sight (σ : Type) : Type 1 where
  | dealing (dealing : Dealing σ)
  | frame (answer : Except WorldError FrameReport)

namespace Moment

/-- What comes of an operation, and where the world stands after it. A frame that faults has no end. -/
def operate? : Operation σ → Moment σ → Option (Sight σ × Moment σ)
  | .ask ask, m => (m.serve? ask).map fun served => (.dealing ⟨ask, served.1⟩, served.2)
  | .frame timing, .resting w =>
    match (w.runFrame timing).value with
    | (.ok report, w) => some (.frame (.ok report.untimed), .resting w)
    | (.error (.error cause), w) => some (.frame (.error cause), .resting w)
    | (.error (.fault _), _) => none
  | .frame _, _ => none

/-- What comes of one operation after another, and where the world stands in the end. -/
def operates? : List (Operation σ) → Moment σ → Option (List (Sight σ) × Moment σ)
  | [], m => some ([], m)
  | operation :: rest, m =>
    (m.operate? operation).bind fun done =>
      (done.2.operates? rest).map fun later => (done.1 :: later.1, later.2)

variable {m next : Moment σ} {operation : Operation σ} {sight : Sight σ}

theorem settled_of_operate? (settled : Settled m) (done : m.operate? operation = some (sight, next)) :
    Settled next := by
  cases operation with
  | ask ask =>
    obtain ⟨⟨answer, after⟩, served, same⟩ := Option.map_eq_some_iff.mp done
    cases same
    obtain ⟨what, step⟩ := (World.served_of_serve? served).step
    exact settled.step step
  | frame timing =>
    cases m with
    | resting w =>
      simp only [operate?] at done
      split at done
      next report w' ran =>
        cases done
        exact World.settled_of_runFrame settled ran nofun
      next cause w' ran =>
        cases done
        exact World.settled_of_runFrame settled ran nofun
      next => cases done
    | declaring | passing | leaving => cases done

theorem exists_answer_of_frame {timing : Timing}
    (done : m.operate? (.frame timing) = some (sight, next)) : ∃ answer, sight = .frame answer := by
  cases m with
  | resting w =>
    simp only [operate?] at done
    split at done
    · cases done
      exact ⟨_, rfl⟩
    · cases done
      exact ⟨_, rfl⟩
    · cases done
  | declaring | passing | leaving => cases done

end Moment

/-- The same operation; a frame may take another time. -/
inductive Operation.Alike (mirror : Mirror σ) : Operation σ → Operation σ → Prop
  | ask {ask ask' : Ask σ} (alike : ask.Alike mirror ask') : Alike mirror (.ask ask) (.ask ask')
  | frame (timing timing' : Timing) : Alike mirror (.frame timing) (.frame timing')

inductive Sight.Alike (mirror : Mirror σ) : Sight σ → Sight σ → Prop
  | dealing {dealing dealing' : Dealing σ} (alike : dealing.Alike mirror dealing') :
      Alike mirror (.dealing dealing) (.dealing dealing')
  | frame {answer answer' : Except WorldError FrameReport}
      (verdict : Verdict mirror.Refused (fun a b => b = a) answer answer') :
      Alike mirror (.frame answer) (.frame answer')

/-- The same came of an operation, and the worlds mirror each other after it. -/
abbrev Alongside (mirror : Mirror σ) (a b : Sight σ × Moment σ) : Prop :=
  a.1.Alike mirror b.1 ∧ a.2.Mirrored mirror b.2

namespace Moment.Mirrored

variable {m n : Moment σ} {w v : World σ}

/-- What can be asked of one world and what of the other, with answers that are alike. -/
abbrev Serves (mirror : Mirror σ) (ask ask' : Ask σ) :
    Option (ask.Answer × Moment σ) → Option (ask'.Answer × Moment σ) → Prop :=
  Option.Rel fun a b => Dealing.Alike mirror ⟨ask, a.1⟩ ⟨ask', b.1⟩ ∧ a.2.Mirrored mirror b.2

private theorem serve?_attempt (both : World.Mirrored mirror w v) (sound : w.shared.Sound)
    (sound' : v.shared.Sound) : Serves mirror .attempt .attempt
      ((Moment.resting w).serve? .attempt) ((Moment.resting v).serve? .attempt) := by
  obtain ⟨report, w₁, v₁, committed, committed', -, after, -, -⟩ := both.attempt sound sound'
  obtain ⟨same, scheduler⟩ := after.scheduler.openDeclarations
  simp only [Moment.serve?, committed, committed']
  generalize w₁.refresh.value.2.scheduler.openDeclarations = r at same scheduler ⊢
  generalize v₁.refresh.value.2.scheduler.openDeclarations = r' at same scheduler ⊢
  obtain ⟨result, s⟩ := r
  obtain ⟨result', s'⟩ := r'
  obtain rfl : result' = result := same
  cases result' with
  | error cause => exact .none
  | ok => exact .some ⟨.attempt, .declaring { after with scheduler }⟩

private theorem serve?_declare (both : World.Mirrored mirror w v) : Serves mirror .declare .declare
      ((Moment.declaring w).serve? .declare) ((Moment.declaring v).serve? .declare) := by
  obtain ⟨verdict, after⟩ := both.declare both.systems
  simp only [Moment.serve?]
  generalize (World.declare w.systems w).value = r at verdict after ⊢
  generalize (World.declare v.systems v).value = r' at verdict after ⊢
  obtain ⟨result, w₁⟩ := r
  obtain ⟨result', v₁⟩ := r'
  cases verdict with
  | error refused => exact .some ⟨.declare (.some refused), .resting after.discardOneShots⟩
  | ok _ =>
    obtain ⟨same, scheduler⟩ := after.scheduler.beginPass
    dsimp only at same scheduler ⊢
    generalize w₁.scheduler.beginPass = r at same scheduler ⊢
    generalize v₁.scheduler.beginPass = r' at same scheduler ⊢
    obtain ⟨result, s⟩ := r
    obtain ⟨result', s'⟩ := r'
    obtain rfl : result' = result := same
    cases result' with
    | error cause => exact .none
    | ok frame =>
      have order : s'.order = s.order := scheduler.order
      simp only [order]
      exact .some ⟨.declare .none, .passing { after with scheduler }⟩

theorem serve? (mirrored : m.Mirrored mirror n) (sound : m.world.shared.Sound)
    (sound' : n.world.shared.Sound) {ask ask' : Ask σ} (alike : ask.Alike mirror ask') :
    Serves mirror ask ask' (m.serve? ask) (n.serve? ask') := by
  cases mirrored with
  | @resting w v both =>
    cases alike with
    | create d =>
      obtain ⟨same, after⟩ := both.create d
      simp only [Moment.serve?, same]
      exact .some ⟨.create, .resting after⟩
    | createWith types =>
      obtain ⟨same, after⟩ := both.createWith types
      simp only [Moment.serve?, same]
      exact .some ⟨.createWith, .resting after⟩
    | destroy named =>
      obtain ⟨verdict, after⟩ := both.destroy sound sound' named
      exact .some ⟨.destroy verdict, .resting after⟩
    | setPriority named agree =>
      obtain ⟨verdict, after⟩ := both.setPriority sound sound' named _ agree
      exact .some ⟨.setPriority verdict, .resting after⟩
    | setDefinitionState d state =>
      obtain ⟨same, after⟩ := both.setDefinitionState d state
      simp only [Moment.serve?, same]
      exact .some ⟨.setDefinitionState, .resting after⟩
    | access does =>
      obtain ⟨-, after, hear⟩ := both.access does
      exact .some ⟨.access hear fun R does => (both.access does).1, .resting after⟩
    | attempt => exact serve?_attempt both sound sound'
    | declare | execute | bound | finish => exact .none
  | declaring both =>
    cases alike with
    | declare => exact serve?_declare both
    | _ => exact .none
  | @passing w v left both =>
    cases alike with
    | execute moves =>
      cases left with
      | nil => exact .none
      | cons fence left =>
        refine rel_map_of_rel (both.scheduler.replayFence? fence moves both.shared) fun a b replayed => ?_
        obtain ⟨hear, shared⟩ := replayed
        have spent : World.Mirrored mirror
            { w with scheduler := w.scheduler.spend fence, shared := a.2 }
            { v with scheduler := v.scheduler.spend fence, shared := b.2 } :=
          { both with shared, scheduler := both.scheduler.spend fence }
        exact ⟨.execute hear, .leaving spent⟩
    | finish =>
      cases left with
      | nil => exact .some ⟨.finish, .resting { both with scheduler := both.scheduler.endPass }⟩
      | cons fence left => exact .none
    | _ => exact .none
  | @leaving w v fence left both =>
    cases alike with
    | bound life =>
      obtain ⟨life', w₁, v₁, done, done', after⟩ := both.applyBoundary sound sound' fence life
      simp only [Moment.serve?, done, done']
      exact .some ⟨.bound, .passing after⟩
    | _ => exact .none

/-- What can be done with one world can be done with the other, and it comes to the same. -/
theorem operate? (mirrored : m.Mirrored mirror n) (sound : m.world.shared.Sound)
    (sound' : n.world.shared.Sound) {operation operation' : Operation σ}
    (alike : operation.Alike mirror operation') :
    Option.Rel (Alongside mirror) (m.operate? operation) (n.operate? operation') := by
  cases alike with
  | ask alike =>
    refine rel_map_of_rel (mirrored.serve? sound sound' alike) fun a b both => ?_
    exact ⟨.dealing both.1, both.2⟩
  | frame timing timing' =>
    cases mirrored with
    | @resting w v both =>
      obtain ⟨verdict, after⟩ := both.runFrame sound sound' timing timing'
      simp only [Moment.operate?]
      generalize (w.runFrame timing).value = r at verdict after ⊢
      generalize (v.runFrame timing').value = r' at verdict after ⊢
      obtain ⟨result, w₁⟩ := r
      obtain ⟨result', v₁⟩ := r'
      cases verdict with
      | ok same => exact .some ⟨.frame (.ok same), .resting after⟩
      | error refused =>
        cases refused with
        | error refused => exact .some ⟨.frame (.error refused), .resting after⟩
        | fault => exact .none
    | declaring | passing | leaving => exact .none

end Moment.Mirrored

end EntityWorld
