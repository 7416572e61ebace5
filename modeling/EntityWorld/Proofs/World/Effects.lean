import EntityWorld.Proofs.World.Boundary
import EntityWorld.Proofs.World.Callbacks
import EntityWorld.Proofs.World.Commit

/-!
# What a step does

`Effect` says what each kind of step makes of a world, in terms of the relations that the parts of
the world are described by. Properties of runs are proved from it and never look into a step.
Main statement: `Step.effect`.
-/
namespace EntityWorld.World

open Shared
open Scheduler (SamePlan samePlan_spend samePlan_discardOneShots)

variable {σ : Type} {w : World σ} {m m' : Moment σ} {what : Happening}

theorem refresh_spec (sound : w.shared.Sound) :
    ∃ t, w.refresh.value.2 = { w with shared := t } ∧ Relived w.shared t fun _ life => life := by
  have keeps := Store.keeps_refreshIndex sound.store w.shared.registry.kindCount
  have refreshed := Relived.of_keeps
    (t := { w.shared with store := (w.shared.store.refreshIndex w.shared.registry.kindCount).value.2 })
    sound keeps rfl rfl rfl
  obtain ⟨memory, same, -⟩ := refresh_value w
  exact ⟨_, same, refreshed.trans (Relived.of_memory refreshed.sound memory)⟩

/-- What `setPriority` does: it answers the new id, or it knows no such entity. -/
theorem setPriority_spec (sound : w.shared.Sound) (id : EntityId) (p : Priority) :
    (w.setPriority id p).2 = w ∨ ∃ x t, (w.setPriority id p).2 = { w with shared := t } ∧
      Rewritten w.shared t x (x.withPriority p) ∧ w.shared.entity? x.raw = some x := by
  unfold setPriority
  split
  next current found =>
    obtain ⟨stored, -⟩ := sound.store.entity?_eq_some_iff.mp found
    obtain ⟨store, updated, rewritten⟩ := rewritten_of_update (current.withPriority p) sound stored
      (EntityId.raw_withPriority current p) (.inl (EntityId.life_withPriority current p).symm)
    refine .inr ⟨current, { w.shared with store }, ?_, rewritten, ?_⟩
    · simp only [updated]
    · exact sound.entity?_of_mem (mem_ids.mpr (.inl stored))
  next absent =>
    split
    next => exact .inl rfl
    next entry waiting =>
      obtain ⟨member, -⟩ := sound.deferred?_eq_some_iff.mp waiting
      exact .inr ⟨entry.id, _, rfl, rewritten_modifyDeferred (fun id => id.withPriority p) sound waiting
        (EntityId.raw_withPriority entry.id p),
        sound.entity?_of_mem (mem_ids.mpr (.inr ⟨entry, member, rfl⟩))⟩

theorem destroy_spec (sound : w.shared.Sound) (id : EntityId) :
    ∃ t new, (w.destroy id).value.2 =
        { w with shared := t, nextUnregistering := w.nextUnregistering ++ new } ∧
      Unregistered w.shared t [id.raw] new := by
  obtain ⟨outcome, t, new, applied, unregistered⟩ := applyDestroy_spec sound id
  refine ⟨t, new, ?_, unregistered⟩
  simp only [destroy, Logged.value_bind, applied]
  cases outcome <;> rfl

/-- What a step of each kind makes of a world. -/
inductive Effect : Moment σ → Happening → Moment σ → Prop where
  -- Entities may have been created.
  | grown {w : World σ} {t : Shared σ} (grown : Grows w.shared t) :
      Effect (.resting w) .called (.resting { w with shared := t })
  | prioritised {w : World σ} {t : Shared σ} {x : EntityId} {p : Priority}
      (found : w.shared.entity? x.raw = some x)
      (rewritten : Rewritten w.shared t x (x.withPriority p)) :
      Effect (.resting w) .called (.resting { w with shared := t })
  | destroyed {w : World σ} {t : Shared σ} {raw : Nat} {new : List Nat}
      (unregistered : Unregistered w.shared t [raw] new) :
      Effect (.resting w) (.destroyed raw)
        (.resting { w with shared := t, nextUnregistering := w.nextUnregistering ++ new })
  | attempted {w : World σ} {t u : Shared σ} {report : CommitReport} {scheduler : Scheduler σ}
      (committed : Committed w.shared t report) (refreshed : Relived t u fun _ life => life)
      (opened : w.scheduler.openDeclarations = (.ok (), scheduler)) :
      Effect (.resting w) (.attempted report)
        (.declaring { oweChanges w report with shared := u, scheduler })
  | abandoned {w : World σ} {memory : σ} {scheduler : Scheduler σ}
      (same : SamePlan w.scheduler scheduler) :
      Effect (.declaring w) .abandoned (.resting { w with shared.memory := memory, scheduler })
  | declared {w : World σ} {memory : σ} {frame : Nat} {scheduler begun : Scheduler σ}
      (same : SamePlan w.scheduler scheduler) (begins : scheduler.beginPass = (.ok frame, begun)) :
      Effect (.declaring w) .declared
        (.passing { w with shared.memory := memory, scheduler := begun } begun.order)
  | executed {w : World σ} {t : Shared σ} {fence : FenceId} {left : List FenceId}
      {scheduler : Scheduler σ}
      (grown : Grows w.shared t) (same : SamePlan w.scheduler scheduler) :
      Effect (.passing w (fence :: left)) (.executed fence)
        (.leaving { w with shared := t, scheduler } fence left)
  | bounded {w w' : World σ} {fence : FenceId} {left : List FenceId} {new : List Nat}
      (bounded : Bounded w w' fence new) :
      Effect (.leaving w fence left) (.bounded fence) (.passing w' left)
  | finished (w : World σ) :
      Effect (.passing w []) .finished (.resting { w with scheduler := w.scheduler.endPass })

theorem Step.effect (step : Step m what m') (sound : m.world.shared.Sound) : Effect m what m' := by
  cases step with
  | created w d => exact .grown (grows_create sound d)
  | createdWith w types => exact .grown (grows_createWith sound types)
  | destroyed w id =>
    obtain ⟨t, new, same, unregistered⟩ := destroy_spec (w := w) sound id
    rw [same]
    exact .destroyed unregistered
  | prioritised w id p =>
    rcases setPriority_spec (w := w) sound id p with same | ⟨x, t, same, rewritten, found⟩
    · rw [same]
      exact .grown (.refl sound)
    · rw [same]
      exact .prioritised found rewritten
  | loaded w d state => exact .grown (.of_store sound (Store.keeps_setLoadState sound.store d state))
  | accessed w program => exact .grown (grows_run sound program)
  | @attempted w w' report scheduler committed opened =>
    -- The commit is the one that `commit_spec` describes, and refreshing changes no life.
    obtain ⟨t, rfl, -, result⟩ := committed_of_commit (w := w) sound committed
    obtain ⟨u, same, refreshed⟩ :=
      refresh_spec (w := ({ w with shared := t } : World σ).oweChanges report) result.sound
    rw [same] at opened ⊢
    exact .attempted result refreshed opened
  -- Whether systems declare or fail to, they change the memory and what is scheduled.
  | @abandoned w w' culprit cause frame failed =>
    obtain ⟨memory, scheduler, rfl, same⟩ := eq_of_declare failed
    exact .abandoned (same.trans (samePlan_discardOneShots scheduler))
  | @declared w w' frame scheduler declared begun =>
    obtain ⟨memory, scheduler', rfl, same⟩ := eq_of_declare declared
    exact .declared same begun
  | executed ran => exact .executed (ran.grows sound) (samePlan_spend _ _)
  | @bounded w w' fence left life life' applied =>
    obtain ⟨new, bounded⟩ := bounded_of_applyBoundary (w := w) sound applied
    exact .bounded bounded
  | finished w => exact .finished w

/-- What updates share stays sound. -/
theorem Effect.sound (effect : Effect m what m') (sound : m.world.shared.Sound) :
    m'.world.shared.Sound := by
  cases effect with
  | grown grown | executed grown => exact grown.sound
  | prioritised _ rewritten => exact rewritten.sound
  | destroyed unregistered => exact unregistered.relived.sound
  | attempted _ refreshed => exact refreshed.sound
  | abandoned | declared => exact (Relived.of_memory sound _).sound
  | bounded bounded => exact bounded.relived.sound
  | finished => exact sound

end EntityWorld.World
