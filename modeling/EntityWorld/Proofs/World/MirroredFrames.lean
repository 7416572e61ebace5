import EntityWorld.Proofs.World.Frames
import EntityWorld.Proofs.World.Mirrored

/-!
# Frames of mirrored worlds

Systems that do alike are told and declare alike, and a frame comes to the same in both worlds: they
report the same, apart from the time it took, and stay mirrored. Main statement: `Mirrored.runFrame`.
-/
namespace EntityWorld

open List (Forall₂)

variable {σ : Type} {mirror : Mirror σ}

/-! ### Reports without the times that were measured -/

def FenceReport.untimed (report : FenceReport) : FenceReport := { report with elapsed := .zero }

def FrameReport.untimed (report : FrameReport) : FrameReport :=
  { report with
    elapsed := .zero
    pass := { report.pass with fences := report.pass.fences.map FenceReport.untimed } }

namespace World

variable {w v : World σ}

/-! ### Systems -/

theorem keptBy_performQuery (mirror : Mirror σ) :
    mirror.query.KeptBy performQuery (Mirrored mirror) := by
  intro request request' w v queried both
  cases queried with
  | exchange changes =>
    exact ⟨both.shared.memory, { both with shared := { both.shared with
      memory := mirror.memory_of_change changes both.shared.memory } }⟩
  | same plain =>
    have shared := Shared.keptBy_perform mirror
    cases request with
    | exchange => cases plain
    | kindOf type =>
      exact ⟨(shared (.kindOf type) (.kindOf type) _ _ (.same rfl) both.shared).1, both⟩
    | find wanted unwanted =>
      exact ⟨(shared (.find wanted unwanted) (.find wanted unwanted) _ _ (.same rfl) both.shared).1, both⟩
    | findKinds wanted unwanted =>
      exact ⟨(shared (.findKinds wanted unwanted) (.findKinds wanted unwanted) _ _ (.same rfl)
        both.shared).1, both⟩
    | collection a =>
      exact ⟨(shared (.collection a) (.collection a) _ _ (.same rfl) both.shared).1, both⟩

theorem keptBy_performDeclaration (mirror : Mirror σ) :
    mirror.declaration.KeptBy performDeclaration (Mirrored mirror) := by
  intro request request' w v declared both
  cases declared with
  | exchange changes =>
    exact ⟨both.shared.memory, { both with shared := { both.shared with
      memory := mirror.memory_of_change changes both.shared.memory } }⟩
  | schedule alike =>
    obtain ⟨same, scheduler⟩ := both.scheduler.schedule alike
    exact ⟨heq_of_eq (congrArg (Except.mapError WorldError.fence) same), { both with scheduler }⟩
  | start alike =>
    obtain ⟨same, scheduler⟩ := both.scheduler.startConstant alike
    exact ⟨heq_of_eq (congrArg (Except.mapError WorldError.fence) same), { both with scheduler }⟩
  | same plain =>
    cases request with
    | schedule | start | exchange => cases plain
    | stop name =>
      obtain ⟨same, scheduler⟩ := both.scheduler.stopConstant name
      exact ⟨heq_of_eq (congrArg (Except.mapError WorldError.fence) same), { both with scheduler }⟩
    | has name => exact ⟨heq_of_eq (both.scheduler.hasConstant name), both⟩
    | kindOf type => exact ⟨heq_of_eq (congrArg (Registry.kindOf? · type) both.shared.registry), both⟩
    | frame => exact ⟨heq_of_eq (congrArg (· + 1) both.scheduler.frame), both⟩

namespace Mirrored

theorem rebind (both : Mirrored mirror w v) {systems systems' : List (System σ)}
    (alike : Forall₂ (System.Alike mirror) systems systems') :
    Mirrored mirror (World.rebind systems w).value (World.rebind systems' v).value := by
  induction alike generalizing w v with
  | nil => exact both
  | cons first _ ih =>
    obtain @⟨_, _, rebinds, -⟩ := first
    obtain ⟨-, after, -⟩ := rebinds.run (keptBy_performQuery mirror) both
    simp only [World.rebind, Logged.value_bind]
    exact ih after

theorem refresh (both : Mirrored mirror w v) :
    v.refresh.value.1 = w.refresh.value.1 ∧ Mirrored mirror w.refresh.value.2 v.refresh.value.2 := by
  have refreshed : (v.shared.store.refreshIndex v.shared.registry.kindCount).value =
      ((w.shared.store.refreshIndex w.shared.registry.kindCount).value.1,
        (w.shared.store.refreshIndex w.shared.registry.kindCount).value.2.relabel mirror.relabel) := by
    rw [both.shared.store, both.shared.registry, Store.refreshIndex_relabel]
  simp only [World.refresh, Logged.value_bind, refreshed]
  rcases (w.shared.store.refreshIndex w.shared.registry.kindCount).value with ⟨rebuilt, store⟩
  have stored : Mirrored mirror { w with shared.store := store }
      { v with shared.store := store.relabel mirror.relabel } :=
    { both with shared := { both.shared with store := rfl } }
  cases rebuilt with
  | false => exact ⟨rfl, stored⟩
  | true => exact ⟨rfl, stored.rebind both.systems⟩

/-- The same system fails, if one does. -/
theorem declare (both : Mirrored mirror w v) {systems systems' : List (System σ)}
    (alike : Forall₂ (System.Alike mirror) systems systems') :
    Verdict (fun a b => b.1 = a.1 ∧ mirror.Refused a.2 b.2) (fun _ _ => True)
        (World.declare systems w).value.1 (World.declare systems' v).value.1 ∧
      Mirrored mirror (World.declare systems w).value.2 (World.declare systems' v).value.2 := by
  induction alike generalizing w v with
  | nil => exact ⟨.ok trivial, both⟩
  | @cons s _ _ _ first _ ih =>
    obtain @⟨_, does, -, declares⟩ := first
    obtain ⟨verdict, after, -⟩ := declares.run (keptBy_performDeclaration mirror) both
    simp only [World.declare, Logged.value_bind]
    generalize (s.declare.run performDeclaration w).value = r at verdict after ⊢
    generalize (does.run performDeclaration v).value = r' at verdict after ⊢
    obtain ⟨result, w₁⟩ := r
    obtain ⟨result', v₁⟩ := r'
    cases verdict with
    | error refused => exact ⟨.error ⟨rfl, refused⟩, after⟩
    | ok _ => exact ih after

/-- What an abandoned frame drops. -/
theorem discardOneShots (both : Mirrored mirror w v) :
    Mirrored mirror { w with scheduler := w.scheduler.discardOneShots.2 }
      { v with scheduler := v.scheduler.discardOneShots.2 } :=
  { both with scheduler := both.scheduler.discardOneShots }

/-! ### Frames -/

private theorem sound_of_applyBoundary {w w' : World σ} {fence : FenceId} {life life' : LifecycleReport}
    (sound : w.shared.Sound) (applied : (w.applyBoundary fence life).value = (.ok life', w')) :
    w'.shared.Sound := by
  obtain ⟨new, bounded⟩ := bounded_of_applyBoundary (w := w) sound applied
  exact bounded.relived.sound

/-- A boundary never fails, so only the updates of a fence can end the pass. -/
theorem executeFences (both : Mirrored mirror w v) (sound : w.shared.Sound) (sound' : v.shared.Sound)
    (timing timing' : Timing) (left : List FenceId) (reports reports' : List FenceReport)
    (reported : reports'.map FenceReport.untimed = reports.map FenceReport.untimed)
    (life : LifecycleReport) :
    Verdict (fun a b => b = a)
        (fun a b => b.1.map FenceReport.untimed = a.1.map FenceReport.untimed ∧ b.2 = a.2)
        (World.executeFences timing left reports life w).value.1
        (World.executeFences timing' left reports' life v).value.1 ∧
      Mirrored mirror (World.executeFences timing left reports life w).value.2
        (World.executeFences timing' left reports' life v).value.2 := by
  induction left generalizing w v reports reports' life with
  | nil => exact ⟨.ok ⟨reported, rfl⟩, both⟩
  | cons fence rest ih =>
    obtain ⟨same, scheduler, shared⟩ :=
      both.scheduler.runFence fence (timing.fence fence) (timing'.fence fence) both.shared
    simp only [World.executeFences, Logged.value_bind]
    cases outcome : (w.scheduler.runFence fence (timing.fence fence) w.shared).value with
    | mk result state =>
      cases outcome' : (v.scheduler.runFence fence (timing'.fence fence) v.shared).value with
      | mk result' state' =>
        obtain ⟨s, t⟩ := state
        obtain ⟨s', t'⟩ := state'
        rw [outcome, outcome'] at same scheduler shared
        have after : Mirrored mirror { w with scheduler := s, shared := t }
            { v with scheduler := s', shared := t' } := { both with scheduler, shared }
        cases result with
        | error failure =>
          obtain rfl : result' = .error failure := same
          exact ⟨.error rfl, after⟩
        | ok report =>
          obtain rfl : result' = .ok { report with elapsed := timing'.fence fence } := same
          -- What updates share stays sound, so the boundary answers in both worlds.
          have kept := ((Scheduler.fenceRun_of_runFence outcome).2.grows sound).sound
          have kept' := ((Scheduler.fenceRun_of_runFence outcome').2.grows sound').sound
          obtain ⟨life', w₁, v₁, bounded, bounded', after⟩ := after.applyBoundary kept kept' fence life
          simp only [Logged.value_bind, bounded, bounded']
          refine ih after (sound_of_applyBoundary kept bounded) (sound_of_applyBoundary kept' bounded')
            (reports ++ [report]) _ ?_ life'
          simp only [List.map_append, reported, List.map_cons, List.map_nil, FenceReport.untimed]

theorem execute (both : Mirrored mirror w v) (sound : w.shared.Sound) (sound' : v.shared.Sound)
    (timing timing' : Timing) :
    Verdict (fun a b => b = a) (fun a b => b.1.frame = a.1.frame ∧
          b.1.fences.map FenceReport.untimed = a.1.fences.map FenceReport.untimed ∧ b.2 = a.2)
        (w.execute timing).value.1 (v.execute timing').value.1 ∧
      Mirrored mirror (w.execute timing).value.2 (v.execute timing').value.2 := by
  obtain ⟨same, scheduler⟩ := both.scheduler.beginPass
  unfold World.execute
  generalize w.scheduler.beginPass = r at same scheduler ⊢
  generalize v.scheduler.beginPass = r' at same scheduler ⊢
  obtain ⟨result, s⟩ := r
  obtain ⟨result', s'⟩ := r'
  obtain rfl : result' = result := same
  cases result' with
  | error cause => exact ⟨.error rfl, { both with scheduler := scheduler.endPass }⟩
  | ok frame =>
    have begun : Mirrored mirror { w with scheduler := s } { v with scheduler := s' } :=
      { both with scheduler }
    obtain ⟨verdict, after⟩ := begun.executeFences sound sound' timing timing' s.order [] [] rfl .none
    have order : s'.order = s.order := scheduler.order
    simp only [Logged.value_bind, order]
    generalize (World.executeFences timing s.order [] .none _).value = r at verdict after ⊢
    generalize (World.executeFences timing' s.order [] .none _).value = r' at verdict after ⊢
    obtain ⟨result, w₁⟩ := r
    obtain ⟨result', v₁⟩ := r'
    cases verdict with
    | @error _ failure refused =>
      subst refused
      cases failure with
      | error cause => exact ⟨.error rfl, { after with scheduler := after.scheduler.endPass }⟩
      | fault fault => exact ⟨.error rfl, after⟩
    | ok same => exact ⟨.ok ⟨rfl, same⟩, { after with scheduler := after.scheduler.endPass }⟩

theorem playFrame (both : Mirrored mirror w v) (sound : w.shared.Sound) (sound' : v.shared.Sound)
    (timing timing' : Timing) (commit : CommitReport) (rebuilt : Bool) :
    Verdict (Failure.Alike mirror.Refused) (fun a b => b.untimed = a.untimed)
        (w.playFrame timing commit rebuilt).value.1
        (v.playFrame timing' (commit.relabel mirror.relabel) rebuilt).value.1 ∧
      Mirrored mirror (w.playFrame timing commit rebuilt).value.2
        (v.playFrame timing' (commit.relabel mirror.relabel) rebuilt).value.2 := by
  have declaring (u : World σ) (sound : u.shared.Sound) :
      (World.declare u.systems u).value.2.shared.Sound := by
    obtain ⟨memory, scheduler, done, -⟩ := declare_spec u.systems u
    rw [done]
    exact (Shared.Relived.of_memory sound memory).sound
  obtain ⟨verdict, after⟩ := both.declare both.systems
  have kept := declaring w sound
  have kept' := declaring v sound'
  simp only [World.playFrame, Logged.value_bind]
  generalize (World.declare w.systems w).value = r at verdict after kept ⊢
  generalize (World.declare v.systems v).value = r' at verdict after kept' ⊢
  obtain ⟨result, w₁⟩ := r
  obtain ⟨result', v₁⟩ := r'
  cases verdict with
  | error refused => exact ⟨.error (.error refused.2), after.discardOneShots⟩
  | ok _ =>
    obtain ⟨verdict, after⟩ := after.execute kept kept' timing timing'
    simp only [Logged.value_bind]
    generalize (w₁.execute timing).value = r at verdict after ⊢
    generalize (v₁.execute timing').value = r' at verdict after ⊢
    obtain ⟨result, w₂⟩ := r
    obtain ⟨result', v₂⟩ := r'
    cases verdict with
    | @error _ failure refused =>
      subst refused
      cases failure with
      | error cause => exact ⟨.error (.error .same), after.discardOneShots⟩
      | fault fault => exact ⟨.error (.fault fault), after⟩
    | ok same =>
      obtain ⟨frame, fences, life⟩ := same
      refine ⟨.ok ?_, after⟩
      simp only [FrameReport.untimed, CommitReport.relabel, Array.size_map, frame, fences, life]

/-- The first two steps of a frame go through in both worlds. -/
theorem attempt (both : Mirrored mirror w v) (sound : w.shared.Sound) (sound' : v.shared.Sound) :
    ∃ report w₁ v₁, w.commit.value = (.ok report, w₁) ∧
      v.commit.value = (.ok (report.relabel mirror.relabel), v₁) ∧
        v₁.refresh.value.1 = w₁.refresh.value.1 ∧
          Mirrored mirror w₁.refresh.value.2 v₁.refresh.value.2 ∧
            w₁.refresh.value.2.shared.Sound ∧ v₁.refresh.value.2.shared.Sound := by
  have committing (u : World σ) (sound : u.shared.Sound) : ∃ report u₁,
      u.commit.value = (.ok report, u₁) ∧ u₁.refresh.value.2.shared.Sound := by
    obtain ⟨report, t, committed, -, -, done⟩ := commit_spec sound
    obtain ⟨t', refreshed, kept⟩ :=
      refresh_spec (w := World.oweChanges { u with shared := t } report) done.sound
    refine ⟨report, _, committed, ?_⟩
    rw [refreshed]
    exact kept.sound
  obtain ⟨report, w₁, committed, kept⟩ := committing w sound
  obtain ⟨report', v₁, committed', kept'⟩ := committing v sound'
  obtain ⟨same, after⟩ := both.commit
  rw [committed, committed'] at same after
  obtain rfl : report' = report.relabel mirror.relabel := Except.ok.inj same
  obtain ⟨rebuilt, after⟩ := after.refresh
  exact ⟨report, w₁, v₁, committed, committed', rebuilt, after, kept, kept'⟩

/-- A frame comes to the same in both worlds. -/
theorem runFrame (both : Mirrored mirror w v) (sound : w.shared.Sound) (sound' : v.shared.Sound)
    (timing timing' : Timing) :
    Verdict (Failure.Alike mirror.Refused) (fun a b => b.untimed = a.untimed)
        (w.runFrame timing).value.1 (v.runFrame timing').value.1 ∧
      Mirrored mirror (w.runFrame timing).value.2 (v.runFrame timing').value.2 := by
  obtain ⟨report, w₁, v₁, committed, committed', rebuilt, after, kept, kept'⟩ := both.attempt sound sound'
  simp only [World.runFrame, Logged.value_within, Logged.value_bind, committed, committed', rebuilt]
  generalize w₁.refresh.value = r at after kept
  generalize v₁.refresh.value.2 = v₂ at after kept'
  obtain ⟨rebuilt, w₂⟩ := r
  obtain ⟨same, scheduler⟩ := after.scheduler.openDeclarations
  generalize w₂.scheduler.openDeclarations = r at same scheduler ⊢
  generalize v₂.scheduler.openDeclarations = r' at same scheduler ⊢
  obtain ⟨result, s⟩ := r
  obtain ⟨result', s'⟩ := r'
  obtain rfl : result' = result := same
  cases result' with
  | error cause => exact ⟨.error (.error .same), { after with scheduler }⟩
  | ok =>
    have opened : Mirrored mirror { w₂ with scheduler := s } { v₂ with scheduler := s' } :=
      { after with scheduler }
    exact opened.playFrame kept kept' timing timing' report rebuilt

end Mirrored

end World

end EntityWorld
