import EntityWorld.Proofs.World.Frames
import Mathlib.Algebra.Group.Nat.Defs

/-!
# Identity of entities

A raw id belongs to at most one entity: the allocator, the rows, the queue of waiting entities and
the location map agree on which raw ids are in use, wherever steps lead. Main statement:
`identity_of_reaches`.
-/
namespace EntityWorld.World

open Shared

variable {σ : Type} {w w₀ : World σ} {m m' : Moment σ} {what : Happening} {past : List (Passage σ)}

/-- The raw ids in the current rows, in the pending rows and in the queue of waiting entities. -/
def heldRaws (w : World σ) : List Nat :=
  ((w.shared.store.collections.toList.flatMap fun c => c.current.ids.toList) ++
    (w.shared.store.collections.toList.flatMap fun c => c.pending.ids.toList) ++
    w.shared.deferred.map Deferred.id).map EntityId.raw

/-- All views of which raw ids are in use agree. -/
structure Identity (w : World σ) : Prop where
  -- Handed out and not taken back is the same as being in a row or in the queue.
  out : ∀ raw, w.shared.allocator.Out raw ↔ raw ∈ w.heldRaws
  once : w.heldRaws.Nodup
  bounds : ∀ raw ∈ w.heldRaws, 1 ≤ raw ∧ raw ≤ 2 ^ 20 - 1
  freeOnce : w.shared.allocator.free.Nodup
  freeApart : ∀ raw ∈ w.shared.allocator.free, raw ∉ w.heldRaws
  located : ∀ raw a, w.locate? raw = some a ↔ ∃ c, w.collection? a = some c ∧
    ((∃ id ∈ c.current.ids, id.raw = raw) ∨ ∃ id ∈ c.pending.ids, id.raw = raw)
  entity : ∀ raw id, w.entity? raw = some id ↔ id.raw = raw ∧
    ((∃ a c, w.collection? a = some c ∧ (id ∈ c.current.ids ∨ id ∈ c.pending.ids)) ∨
      ∃ entry ∈ w.shared.deferred, entry.id = id)
  known : ∀ raw, (w.entity? raw).isSome ↔ raw ∈ w.heldRaws
  live : w.liveEntities = w.heldRaws.length
  -- A raw id that is handed out next belongs to nobody.
  fresh : ∀ id allocator, w.shared.allocator.allocate = (.ok id, allocator) → id.raw ∉ w.heldRaws

theorem heldRaws_perm (w : World σ) : w.heldRaws.Perm (w.shared.ids.map EntityId.raw) := by
  refine List.Perm.map _ (List.Perm.append_right _ ?_)
  exact List.flatMap_append_perm _ _ _

/-- What sound bookkeeping means for each view. -/
theorem identity_of_sound (sound : w.shared.Sound) : Identity w := by
  have perm := heldRaws_perm w
  have out (raw : Nat) : w.shared.allocator.Out raw ↔ raw ∈ w.heldRaws := by
    rw [sound.out, perm.mem_iff, List.mem_map]
  have once : w.heldRaws.Nodup := perm.nodup_iff.mpr sound.distinct
  refine ⟨out, once, fun raw member => ?_, sound.allocator.distinct, fun raw free member => ?_,
    sound.store.located, fun raw id => ?_, fun raw => ?_, sound.allocator.live_eq_length once out,
    fun id allocator handed member => ?_⟩
  · have isOut := (out raw).mpr member
    have below : raw < 0x100000 := sound.allocator.lt_of_out isOut
    exact ⟨isOut.1, by omega⟩
  · exact ((out raw).mpr member).2.2 free
  · rw [entity?, sound.entity?_eq_some_iff, Shared.mem_ids, Store.mem_ids_iff, and_comm]
    simp only [Collection.mem_ids, collection?]
  · rw [perm.mem_iff, List.mem_map, Option.isSome_iff_exists]
    simp only [entity?, sound.entity?_eq_some_iff]
  · -- What is handed out was not out, so nobody has it.
    rcases IdAllocator.allocate_spec sound.allocator with
      ⟨cause, refused⟩ | ⟨raw, a, done, -, -, bound, unused, -⟩
    · rw [refused] at handed
      cases handed
    · rw [done] at handed
      cases handed
      rw [EntityId.raw_ofRaw_of_lt bound] at member
      exact unused ((out raw).mpr member)

/-- Between public calls, and before and after every fence of every frame, in whatever order things
were created, destroyed, committed and abandoned: a raw id has one owner. -/
theorem identity_of_reaches {config : WorldConfig} {types : List ComponentType}
    {systems : List (System σ)} {memory : σ}
    (built : (World.new config types systems memory).value = .ok w₀)
    (reached : Reaches w₀ past m) : Identity m.world :=
  identity_of_sound (settled_of_reaches (started_of_new built) reached).sound

/-- The raw ids of two entities that commits took away belong to two others later: one of these has a
pending row and one waits for a collection. -/
theorem identity_of_twoDestroyed : ∃ w₀ past w,
    (World.new .singleThreaded ageNameTypes [failsFirst] 0).value = .ok w₀ ∧
      Reaches w₀ past (.resting w) ∧
      w.heldRaws = [3, 4, 2, 1] ∧ w.shared.deferred.map (fun d => d.id.raw) = [1] ∧ Identity w := by
  have made : ((twoDestroyed [.createWith [⟨1⟩, ⟨2⟩], .runFrame .zero, .runFrame .zero,
      .createWith [⟨1⟩], .createWith [⟨2⟩]]).any fun w =>
        w.heldRaws = [3, 4, 2, 1] ∧ w.shared.deferred.map (fun d => d.id.raw) = [1]) = true := by
    decide +kernel
  obtain ⟨w, made, facts⟩ := Option.any_eq_true _ _ |>.mp made
  obtain ⟨held, waiting⟩ := of_decide_eq_true facts
  obtain ⟨w₀, past, built, reached⟩ := reaches_of_session? made
  exact ⟨w₀, past, w, built, reached, held, waiting, identity_of_reaches built reached⟩

end EntityWorld.World
