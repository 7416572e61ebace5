import EntityWorld.Proofs.Fence.Heard
import EntityWorld.Proofs.World.Effects

/-!
# How many entities there are

The allocator counts raw ids in use, and these are as many as there are entities. So a creation that
succeeds adds one, wherever it is heard, a commit takes away as many as it reports removed, and changes of
life states take away nobody. Main statements: `live_midway` and `live_of_committed`.
-/
namespace EntityWorld

variable {σ : Type}

/-- A creation that succeeded. -/
def Access.hasCreated : Heard (Access.interface σ) → Bool
  | ⟨.create _, answer⟩ => answer.isOk
  | ⟨.createWith _, answer⟩ => answer.isOk
  | _ => false

namespace Shared

open Access (hasCreated)

variable {s t : Shared σ}

/-! ### Commands -/

theorem live_place (sound : s.Sound) (a : ArchetypeId) :
    (s.place a).2.allocator.live = s.allocator.live + (s.place a).1.isOk.toNat := by
  have counted := s.allocator.live_allocate
  unfold place
  rcases IdAllocator.allocate_spec sound.allocator with
    ⟨cause, refused⟩ | ⟨raw, allocator, handed, books, -, bound, -, out⟩
  · rw [refused]
    rfl
  · rw [handed] at counted ⊢
    dsimp only
    split
    next store created => exact counted
    next cause store refused =>
      -- The id that found no place is taken back.
      have held : allocator.Out (EntityId.ofRaw raw).raw := by
        rw [EntityId.raw_ofRaw_of_lt bound]
        exact (out raw).mpr (.inr rfl)
      rw [IdAllocator.live_release .strict held, counted]
      rfl

theorem live_defer (s : Shared σ) (sequence : Sequence) :
    (s.defer sequence).2.allocator.live = s.allocator.live + (s.defer sequence).1.isOk.toNat := by
  have counted := s.allocator.live_allocate
  unfold defer
  split
  next refused =>
    rw [refused] at counted
    exact counted
  next handed =>
    rw [handed] at counted
    exact counted

theorem live_create (sound : s.Sound) (d : DefinitionId) :
    (s.create d).2.allocator.live = s.allocator.live + (s.create d).1.isOk.toNat := by
  unfold create
  split
  · rfl
  · split
    · exact live_place sound _
    · rfl

theorem live_createWith (sound : s.Sound) (types : List TypeId) :
    (s.createWith types).2.allocator.live = s.allocator.live + (s.createWith types).1.isOk.toNat := by
  unfold createWith
  split
  · rfl
  · split
    · rfl
    · split
      · exact live_place sound _
      · exact s.live_defer _

theorem live_perform (sound : s.Sound) (command : Access.Request σ) :
    (Access.perform command s).value.2.allocator.live = s.allocator.live +
      (hasCreated ⟨command, (Access.perform command s).value.1⟩).toNat := by
  cases command with
  | create d => exact live_create sound d
  | createWith types => exact live_createWith sound types
  | edit a kind type change =>
    obtain ⟨store, edited⟩ := s.edit_store a kind type change
    change (s.edit a kind type change).2.allocator.live = _
    rw [edited]
    rfl
  | _ => rfl

theorem composes_live : Composes (Access.perform (σ := σ)) fun s heard t => s.Sound →
    t.Sound ∧ t.allocator.live = s.allocator.live + heard.countP hasCreated where
  refl := fun s sound => ⟨sound, rfl⟩
  trans := by
    intro s t u heard later first second sound
    obtain ⟨between, now⟩ := first sound
    obtain ⟨ended, after⟩ := second between
    exact ⟨ended, by rw [after, now, List.countP_append, Nat.add_assoc]⟩
  command := by
    intro command s sound
    refine ⟨(grows_perform sound command).sound, ?_⟩
    rw [live_perform sound command, List.countP_singleton]
    cases hasCreated ⟨command, (Access.perform command s).value.1⟩ <;> rfl

/-- At any point of a fence. -/
theorem live_midway {scheduler : Scheduler σ} {fence : FenceId} {moves : List Batch.Move}
    {heard : List (Heard (Access.interface σ))} (sound : s.Sound)
    (ran : scheduler.Midway fence moves s heard t) :
    t.allocator.live = s.allocator.live + heard.countP hasCreated :=
  (composes_live.midway (fun _ _ sound => ⟨{ sound with }, rfl⟩) ran sound).2

/-! ### Commits and boundaries -/

namespace Sound

theorem mem_raws (sound : s.Sound) {raw : Nat} :
    raw ∈ s.ids.map EntityId.raw ↔ ∃ x, s.entity? raw = some x := by
  simp only [List.mem_map, sound.entity?_eq_some_iff]

theorem live_eq_length (sound : s.Sound) {held : List Nat} (distinct : held.Nodup)
    (known : ∀ raw, raw ∈ held ↔ ∃ x, s.entity? raw = some x) : s.allocator.live = held.length := by
  apply sound.allocator.live_eq_length distinct
  intro raw
  rw [known]
  simp only [sound.out, sound.entity?_eq_some_iff]

theorem live (sound : s.Sound) : s.allocator.live = s.ids.length :=
  (sound.live_eq_length sound.distinct fun _ => sound.mem_raws).trans (List.length_map _)

end Sound

theorem Relived.live {change : Nat → LifeState → LifeState} (sound : s.Sound)
    (relived : Relived s t change) : t.allocator.live = s.allocator.live := by
  rw [sound.live, ← List.length_map EntityId.raw]
  apply relived.sound.live_eq_length sound.distinct
  intro raw
  rw [sound.mem_raws, relived.entity?]
  cases s.entity? raw <;> simp

theorem live_of_committed {report : CommitReport} (sound : s.Sound) (committed : Committed s t report) :
    t.allocator.live + report.removed.size = s.allocator.live := by
  -- Who survives and who is removed are everyone.
  have stays : t.allocator.live = ((s.ids.filter Collection.survives).map EntityId.raw).length := by
    apply committed.sound.live_eq_length (sound.distinct.sublist (List.filter_sublist.map _))
    intro raw
    simp only [List.mem_map, List.mem_filter, committed.entity?, Option.filter_eq_some_iff,
      sound.entity?_eq_some_iff]
    exact exists_congr fun x => and_right_comm
  rw [stays, sound.live, ← Array.length_toList, committed.removed.length_eq, List.length_map]
  exact (List.length_eq_length_filter_add Collection.survives).symm

end Shared

end EntityWorld
