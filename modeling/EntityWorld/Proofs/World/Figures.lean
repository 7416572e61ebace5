import EntityWorld.Proofs.World.Identity
import EntityWorld.Proofs.World.Lifetimes
import EntityWorld.Proofs.World.Sent

/-!
# Whom the figures count

A frame reports five figures: how many entities came into the current generations and left them, and how
many made each of the three changes of their lives. `counted` lists for a step those whom a figure counts,
and `roll` for the steps of a run, where an entity goes by its raw id and by how many have had the raw id
before it. Nobody is on a roll twice. Main statements: `rolled_of_reaches`, `counted_migrated`,
`counted_removed` and `counted_boundary`.
-/
namespace EntityWorld

inductive Figure where
  -- Coming into the current generations and leaving them.
  | migrated
  | removed
  -- The changes of a life.
  | promoted
  | unregistered
  | destroyed
  deriving DecidableEq, Repr

/-- A figure may count someone at this step. -/
def Happening.isCounted : Happening → Bool
  | .attempted _ | .destroyed _ | .bounded _ => true
  | .called | .abandoned | .declared | .executed _ | .finished => false

namespace Figure

variable {v v' : Census} {raw : Nat} {figure : Figure}

/-- The figure counts the entity with this raw id, given what was known before and what is known
after. -/
def Counts (v v' : Census) (raw : Nat) : Figure → Prop
  | .migrated => v.current raw = false ∧ v'.current raw = true
  | .removed => v.current raw = true ∧ v'.current raw = false
  | .promoted => v.life raw = some .register ∧ v'.life raw = some .alive
  | .unregistered =>
    (v.life raw = some .register ∨ v.life raw = some .alive) ∧ v'.life raw = some .unregister
  | .destroyed => v.life raw = some .unregister ∧ v'.life raw = some .destroyed

instance (v v' : Census) (raw : Nat) : DecidablePred (Counts v v' raw)
  | .migrated | .removed | .promoted | .unregistered | .destroyed => inferInstanceAs (Decidable (_ ∧ _))

/-- The steps at which there is something to count for the raw id. -/
def At (what : Happening) (raw : Nat) : Figure → Prop
  | .migrated | .removed => what.isAttempt = true
  | .promoted => what = .bounded .register
  -- A call may do this too, and no frame reports it then.
  | .unregistered => (∃ fence, what = .bounded fence) ∨ what = .destroyed raw
  | .destroyed => what = .bounded .unregister

theorem At.isCounted {what : Happening} (at_ : figure.At what raw) : what.isCounted = true := by
  cases figure with
  | migrated | removed =>
    cases what with
    | attempted => rfl
    | _ => cases at_
  | promoted | destroyed =>
    cases at_
    rfl
  | unregistered => rcases at_ with ⟨fence, rfl⟩ | rfl <;> rfl

/-- What is known of an entity that was counted, for as long as it is there. -/
def Done (v : Census) (raw : Nat) : Figure → Prop
  | .migrated => v.current raw = true
  | .removed => False
  | .promoted => ∃ life, v.life raw = some life ∧ life ≠ .register
  | .unregistered => v.life raw = some .unregister ∨ v.life raw = some .destroyed
  | .destroyed => v.life raw = some .destroyed

theorem Counts.not_done (counts : figure.Counts v v' raw) : ¬ figure.Done v raw := by
  cases figure with
  | migrated => simpa [Done] using counts.1
  | removed => exact id
  | promoted =>
    rintro ⟨life, known, other⟩
    cases counts.1.symm.trans known
    exact other rfl
  | unregistered => rcases counts.1 with known | known <;> simp [Done, known]
  | destroyed => simp [Done, counts.1]

end Figure

namespace World

open Shared

variable {σ : Type} {w w' w₀ : World σ} {m m' : Moment σ} {past steps : List (Passage σ)} {p : Passage σ}
  {figure : Figure} {raw : Nat}

/-- The raw ids of those whom a figure counts when one world becomes the other. -/
def counted (w w' : World σ) (figure : Figure) : List Nat :=
  (w.heldRaws ∪ w'.heldRaws).filter fun raw => figure.Counts w.census w'.census raw

/-- The raw id was taken back. -/
def Passage.returned (p : Passage σ) (raw : Nat) : Bool :=
  (p.before.world.entity? raw).isSome && (p.after.world.entity? raw).isNone

/-- How many of those that have had the raw id are gone. -/
def bygone (past : List (Passage σ)) (raw : Nat) : Nat := past.countP fun p => p.returned raw

/-- Those whom the figure counts for the steps that were made after some others: the raw id of each, and
how many have had it before. -/
def roll (figure : Figure) (past : List (Passage σ)) : List (Passage σ) → List (Nat × Nat)
  | [] => []
  | p :: rest => (counted p.before.world p.after.world figure).map (fun raw => (raw, bygone past raw)) ++
      roll figure (past ++ [p]) rest

theorem roll_append (figure : Figure) (past steps more : List (Passage σ)) :
    roll figure past (steps ++ more) = roll figure past steps ++ roll figure (past ++ steps) more := by
  induction steps generalizing past with
  | nil => simp [roll]
  | cons p rest ih => simp [roll, ih, List.append_assoc]

theorem length_roll_concat (figure : Figure) (past steps : List (Passage σ)) (p : Passage σ) :
    (roll figure past (steps ++ [p])).length =
      (roll figure past steps).length + (counted p.before.world p.after.world figure).length := by
  rw [roll_append, List.length_append]
  simp [roll]

/-! ### Who is counted -/

theorem known_of_isCurrent (sound : w.shared.Sound) (current : w.isCurrent raw = true) :
    ∃ life, w.census.life raw = some life := by
  obtain ⟨x, found⟩ := (isCurrent_iff.mp current).known sound
  exact ⟨x.life, census_life found⟩

theorem mem_heldRaws (sound : w.shared.Sound) :
    raw ∈ w.heldRaws ↔ ∃ life, w.census.life raw = some life := by
  rw [← (identity_of_sound sound).known, Option.isSome_iff_exists]
  simp only [census, Option.map_eq_some_iff]
  constructor
  · rintro ⟨x, found⟩
    exact ⟨x.life, x, found, rfl⟩
  · rintro ⟨life, x, found, -⟩
    exact ⟨x, found⟩

/-- Whoever is counted is there before or after. -/
theorem mem_counted (sound : w.shared.Sound) (sound' : w'.shared.Sound) :
    raw ∈ counted w w' figure ↔ figure.Counts w.census w'.census raw := by
  simp only [counted, List.mem_filter, List.mem_union_iff, mem_heldRaws sound, mem_heldRaws sound',
    decide_eq_true_iff, and_iff_right_iff_imp]
  intro counts
  cases figure with
  | migrated => exact .inr (known_of_isCurrent sound' counts.2)
  | removed => exact .inl (known_of_isCurrent sound counts.1)
  | promoted | unregistered | destroyed => exact .inr ⟨_, counts.2⟩

theorem nodup_counted (sound' : w'.shared.Sound) (figure : Figure) : (counted w w' figure).Nodup :=
  (List.Nodup.union _ (identity_of_sound sound').once).filter _

/-- A list of those who are counted, each once, is as long as it says. -/
theorem length_counted (sound : w.shared.Sound) (sound' : w'.shared.Sound) {raws : List Nat}
    (distinct : raws.Nodup) (same : ∀ raw, raw ∈ raws ↔ figure.Counts w.census w'.census raw) :
    raws.length = (counted w w' figure).length :=
  ((List.perm_ext_iff_of_nodup distinct (nodup_counted sound' figure)).mpr fun raw =>
    (same raw).trans (mem_counted sound sound').symm).length_eq

/-! ### Lawful steps -/

/-- An entity is taken away, or its life goes on. -/
theorem Lawful.returned_or_edge (lawful : Lawful p) {life : LifeState}
    (known : p.before.world.census.life raw = some life) :
    p.returned raw = true ∨
      ∃ life', p.after.world.census.life raw = some life' ∧ Passage.Edge p raw life life' := by
  obtain ⟨x, before, rfl⟩ := Option.map_eq_some_iff.mp known
  cases after : p.after.world.entity? raw with
  | none => exact .inl (by simp [Passage.returned, before, after])
  | some y => exact .inr ⟨y.life, census_life after, lawful.edge raw x y before after⟩

/-- Whoever is current is taken away or stays current. -/
theorem Lawful.returned_or_current (lawful : Lawful p) (sound : p.before.world.shared.Sound)
    (current : p.before.world.isCurrent raw = true) :
    p.returned raw = true ∨ p.after.world.isCurrent raw = true := by
  obtain ⟨life, known⟩ := known_of_isCurrent sound current
  rcases lawful.returned_or_edge known with gone | ⟨life', stays, -⟩
  · exact .inl gone
  · refine .inr ((lawful.current raw).mpr ?_)
    obtain ⟨y, after, -⟩ := Option.map_eq_some_iff.mp stays
    split
    · exact ⟨y, after⟩
    · exact current

theorem Lawful.edge_of_lives (lawful : Lawful p) {life life' : LifeState}
    (before : p.before.world.census.life raw = some life)
    (after : p.after.world.census.life raw = some life') : Passage.Edge p raw life life' := by
  obtain ⟨x, found, rfl⟩ := Option.map_eq_some_iff.mp before
  obtain ⟨y, there, rfl⟩ := Option.map_eq_some_iff.mp after
  exact lawful.edge raw x y found there

theorem Lawful.destroys_of_counts (lawful : Lawful p)
    (counts : Figure.unregistered.Counts p.before.world.census p.after.world.census raw) :
    Passage.Destroys p raw := by
  obtain ⟨known | known, gone⟩ := counts
  · cases lawful.edge_of_lives known gone with
    | unregistered _ requested => exact requested
  · cases lawful.edge_of_lives known gone with
    | unregistered _ requested => exact requested

theorem Lawful.at_of_counts (lawful : Lawful p)
    (counts : figure.Counts p.before.world.census p.after.world.census raw) : figure.At p.what raw := by
  -- Nothing but a commit changes who is current.
  have moved (apart : p.before.world.isCurrent raw ≠ p.after.world.isCurrent raw) :
      p.what.isAttempt = true := by
    by_contra calm
    have same := lawful.current raw
    rw [if_neg calm] at same
    exact apart (Bool.eq_iff_iff.mpr same.symm)
  cases figure with
  | migrated => exact moved fun same => by cases counts.1.symm.trans (same.trans counts.2)
  | removed => exact moved fun same => by cases counts.1.symm.trans (same.trans counts.2)
  | promoted =>
    cases lawful.edge_of_lives counts.1 counts.2 with
    | promoted at_ => exact at_
  | unregistered => exact (lawful.destroys_of_counts counts).elim .inr fun both => .inl both.1
  | destroyed =>
    cases lawful.edge_of_lives counts.1 counts.2 with
    | destroyed at_ => exact at_

/-- Who was counted, by this step or before, is taken away or has still been counted. -/
theorem Lawful.returned_or_done (lawful : Lawful p) (sound : p.before.world.shared.Sound)
    (counted : figure.Counts p.before.world.census p.after.world.census raw ∨
      figure.Done p.before.world.census raw) :
    p.returned raw = true ∨ figure.Done p.after.world.census raw := by
  cases figure with
  | migrated =>
    rcases counted with counts | done
    · exact .inr counts.2
    · exact lawful.returned_or_current sound done
  | removed =>
    rcases counted with counts | done
    · refine (lawful.returned_or_current sound counts.1).imp_right fun current => ?_
      cases counts.2.symm.trans current
    · cases done
  | promoted =>
    rcases counted with counts | ⟨life, known, other⟩
    · exact .inr ⟨.alive, counts.2, by decide⟩
    · refine (lawful.returned_or_edge known).imp_right ?_
      rintro ⟨life', stays, edge⟩
      refine ⟨life', stays, ?_⟩
      rintro rfl
      cases edge
      exact other rfl
  | unregistered =>
    rcases counted with counts | known | known
    · exact .inr (.inl counts.2)
    · refine (lawful.returned_or_edge known).imp_right ?_
      rintro ⟨life', stays, edge⟩
      cases edge with
      | kept | unregistered => exact .inl stays
      | destroyed => exact .inr stays
    · refine (lawful.returned_or_edge known).imp_right ?_
      rintro ⟨life', stays, edge⟩
      cases edge with
      | kept => exact .inr stays
      | unregistered => exact .inl stays
  | destroyed =>
    rcases counted with counts | known
    · exact .inr counts.2
    · refine (lawful.returned_or_edge known).imp_right ?_
      rintro ⟨life', stays, edge⟩
      cases edge with
      | kept => exact stays
      | unregistered early => rcases early with early | early <;> cases early

/-! ### Nobody is counted twice -/

/-- Who is on the roll has been counted: it is gone, or it is there and shows it. -/
structure Rolled (figure : Figure) (past : List (Passage σ)) (m : Moment σ) : Prop where
  distinct : (roll figure [] past).Nodup
  listed : ∀ raw n, (raw, n) ∈ roll figure [] past →
    n < bygone past raw ∨ (n = bygone past raw ∧ figure.Done m.world.census raw)

theorem bygone_concat (past : List (Passage σ)) (p : Passage σ) (raw : Nat) :
    bygone (past ++ [p]) raw = bygone past raw + (p.returned raw).toNat := by
  rw [bygone, List.countP_append, List.countP_singleton]
  cases p.returned raw <;> rfl

/-- Whoever was counted is one more of those that are gone, or is there and still shows it. -/
theorem Lawful.bygone_or_done (lawful : Lawful p) (sound : p.before.world.shared.Sound)
    (past : List (Passage σ))
    (counted : figure.Counts p.before.world.census p.after.world.census raw ∨
      figure.Done p.before.world.census raw) :
    bygone past raw < bygone (past ++ [p]) raw ∨
      (bygone past raw = bygone (past ++ [p]) raw ∧ figure.Done p.after.world.census raw) := by
  rw [bygone_concat]
  cases gone : p.returned raw with
  | true => exact .inl (Nat.lt_succ_self _)
  | false =>
    rcases lawful.returned_or_done sound counted with returned | done
    · cases gone.symm.trans returned
    · exact .inr ⟨rfl, done⟩

theorem Rolled.step (rolled : Rolled figure past p.before) (sound : p.before.world.shared.Sound)
    (sound' : p.after.world.shared.Sound) (lawful : Lawful p) :
    Rolled figure (past ++ [p]) p.after := by
  have mem {raw : Nat} : raw ∈ counted p.before.world p.after.world figure ↔
      figure.Counts p.before.world.census p.after.world.census raw :=
    mem_counted sound sound'
  have whole : roll figure [] (past ++ [p]) = roll figure [] past ++
      (counted p.before.world p.after.world figure).map fun raw => (raw, bygone past raw) := by
    simp [roll_append, roll]
  constructor
  · rw [whole, List.nodup_append]
    refine ⟨rolled.distinct, (nodup_counted sound' figure).map fun a b same => (Prod.mk.inj same).1,
      ?_⟩
    -- Who is counted now has not been counted before.
    rintro ⟨raw, n⟩ old entry new rfl
    obtain ⟨raw', member, same⟩ := List.mem_map.mp new
    cases same
    rcases rolled.listed _ _ old with earlier | ⟨-, done⟩
    · exact Nat.lt_irrefl _ earlier
    · exact (mem.mp member).not_done done
  · intro raw n member
    rw [whole, List.mem_append] at member
    rcases member with old | new
    · rcases rolled.listed raw n old with earlier | ⟨rfl, done⟩
      · apply Or.inl
        apply Nat.lt_of_lt_of_le earlier
        rw [bygone_concat]
        exact Nat.le_add_right _ _
      · exact lawful.bygone_or_done sound past (.inr done)
    · obtain ⟨raw', member, same⟩ := List.mem_map.mp new
      cases same
      exact lawful.bygone_or_done sound past (.inl (mem.mp member))

/-- Over a whole run nobody is counted twice. -/
theorem rolled_of_reaches (started : Started w₀) (reached : Reaches w₀ past m) (figure : Figure) :
    Rolled figure past m := by
  induction reached with
  | start => exact ⟨.nil, fun _ _ member => absurd member List.not_mem_nil⟩
  | step reached step ih =>
    have course := course_of_reaches started reached
    have after := course.step step
    exact ih.step (p := ⟨_, _, _⟩) course.settled.sound after.settled.sound
      (after.lawful _ (by simp))

/-! ### Commits -/

/-- Nobody is destroyed that has not been current. -/
theorem isCurrent_of_destroyed {c : Chronicle} (timely : Timely c w.census)
    (dead : w.census.life raw = some .destroyed) : w.isCurrent raw = true := by
  obtain ⟨k, left, due⟩ := timely.destroyed_iff.mp dead
  have passed := timely.passed
  exact (timely.left raw k left).2.2 (Nat.le_trans due (Nat.le_trans passed.1 passed.2))

theorem isCurrent_of_removed {c : Chronicle} {report : CommitReport} (lawful : Lawful p)
    (timely : Timely c p.before.world.census) (attempted : p.what = .attempted report) :
    ∀ x ∈ report.removed.toList, p.before.world.isCurrent x.raw = true := by
  intro x member
  obtain ⟨y, found, dead⟩ := ((lawful.removed report attempted).2 x.raw).mp (List.mem_map_of_mem member)
  exact isCurrent_of_destroyed timely (dead ▸ census_life found)

theorem counted_migrated {report : CommitReport} (effect : Effect m (.attempted report) m')
    (sound : m.world.shared.Sound) :
    report.migrated.size = (counted m.world m'.world .migrated).length := by
  have sound' := effect.sound sound
  cases effect with
  | @attempted w t u _ scheduler committed refreshed opened =>
    rw [← Array.length_toList, ← List.length_map EntityId.raw]
    refine length_counted sound sound' committed.distinct fun raw => ?_
    have before : w.isCurrent raw = false ↔ ¬ w.shared.IsCurrent raw := by
      rw [← Bool.not_eq_true, isCurrent_iff]
    have after : isCurrent { w.oweChanges report with shared := u, scheduler } raw = true ↔
        ∃ x, t.entity? raw = some x :=
      isCurrent_iff.trans ((refreshed.current raw).trans (committed.current raw))
    refine Iff.trans ?_ (and_congr before after).symm
    simp only [List.mem_map, committed.migrated]
    constructor
    · rintro ⟨x, ⟨found, new⟩, rfl⟩
      exact ⟨new, x, found⟩
    · rintro ⟨new, x, found⟩
      obtain ⟨-, rfl⟩ := committed.sound.entity?_eq_some_iff.mp found
      exact ⟨x, ⟨found, new⟩, rfl⟩

theorem counted_removed {c : Chronicle} {report : CommitReport} (lawful : Lawful p)
    (timely : Timely c p.before.world.census) (attempted : p.what = .attempted report)
    (sound : p.before.world.shared.Sound) (sound' : p.after.world.shared.Sound) :
    report.removed.size = (counted p.before.world p.after.world .removed).length := by
  obtain ⟨distinct, removed⟩ := lawful.removed report attempted
  have attempt : p.what.isAttempt = true := by
    rw [attempted]
    rfl
  rw [← Array.length_toList, ← List.length_map EntityId.raw]
  refine length_counted sound sound' distinct fun raw => (removed raw).trans ?_
  change _ ↔ p.before.world.isCurrent raw = true ∧ p.after.world.isCurrent raw = false
  rw [← Bool.not_eq_true, lawful.current, if_pos attempt]
  constructor
  · rintro ⟨x, found, dead⟩
    refine ⟨isCurrent_of_destroyed timely (dead ▸ census_life found), ?_⟩
    rintro ⟨y, there⟩
    cases ((lawful.gone raw x found).mpr ⟨attempt, dead⟩).symm.trans there
  · rintro ⟨current, gone⟩
    obtain ⟨x, found⟩ := (isCurrent_iff.mp current).known sound
    have absent : p.after.world.entity? raw = none :=
      Option.eq_none_iff_forall_ne_some.mpr fun y there => gone ⟨y, there⟩
    exact ⟨x, found, ((lawful.gone raw x found).mp absent).2⟩

/-! ### Boundaries -/

open EntityId (sent)

theorem life_sent (requests : List Nat) (x : EntityId) :
    (x.sent canUnregister .unregister requests).life = unregisterAll requests x.raw x.life := by
  unfold sent unregisterAll
  split <;> simp

/-- What a boundary adds to a report. -/
theorem applyBoundary_eq {fence : FenceId} {life life' : LifecycleReport} (sound : w.shared.Sound)
    (applied : (w.applyBoundary fence life).value = (.ok life', w')) :
    ∃ leaving promoted destroyed : List Nat, life' = ⟨life.promoted + promoted.length,
        life.unregistered + leaving.length, life.destroyed + destroyed.length⟩ ∧
      Going w.shared.entity? canUnregister (w.shared.destroys.map EntityId.raw) leaving ∧
      Going (w.shared.store.relabel (sent canUnregister .unregister
          (w.shared.destroys.map EntityId.raw))).entity? (fun life => life = .register)
        (if fence = .register then w.registering else []) promoted ∧
      Going (w.shared.store.relabel (sent canUnregister .unregister
          (w.shared.destroys.map EntityId.raw))).entity? (fun life => life = .unregister)
        (if fence = .unregister then w.unregistering else []) destroyed := by
  have taken : Relived w.shared { w.shared with destroys := [] } fun _ life => life :=
    .of_keeps sound (.refl sound.store) rfl rfl rfl
  obtain ⟨leaving, goes, asked, sound'⟩ :=
    applyDestroys_eq_relabel (w := { w with shared.destroys := [] }) w.shared.destroys
      life.unregistered taken.sound
  simp only [applyBoundary, Logged.value_bind, asked] at applied
  by_cases first : fence = .register
  · subst first
    obtain ⟨promoted, alive, done⟩ := advance_eq_relabel w.registering life.promoted sound'
      (w := { w with
        shared := ({ w.shared with destroys := [] } : Shared σ).relabel
          (sent canUnregister .unregister (w.shared.destroys.map EntityId.raw))
        registering := [], nextUnregistering := w.nextUnregistering ++ leaving })
      (rfl : LifeState.canBecome .register .alive = true)
    simp only [if_true, Logged.value_bind, done, Logged.value_pure] at applied
    cases applied
    exact ⟨leaving, promoted, [], rfl, goes, alive, .nil _ _⟩
  · by_cases last : fence = .unregister
    · subst last
      obtain ⟨destroyed, dead, done⟩ := advance_eq_relabel w.unregistering life.destroyed sound'
        (w := { w with
          shared := ({ w.shared with destroys := [] } : Shared σ).relabel
            (sent canUnregister .unregister (w.shared.destroys.map EntityId.raw))
          unregistering := [], nextUnregistering := w.nextUnregistering ++ leaving })
        (rfl : LifeState.canBecome .unregister .destroyed = true)
      simp only [if_neg first, if_true, Logged.value_bind, done, Logged.value_pure] at applied
      cases applied
      exact ⟨leaving, [], destroyed, rfl, goes, .nil _ _, dead⟩
    · simp only [if_neg first, if_neg last, Logged.value_pure] at applied
      cases applied
      rw [if_neg first, if_neg last]
      exact ⟨leaving, [], [], rfl, goes, .nil _ _, .nil _ _⟩

/-- Who is listed and, after the requests, in the first state goes to the second. -/
theorem mem_advanced {requests listed going : List Nat} {source target : LifeState}
    (sound : w.shared.Sound)
    (goes : Going (w.shared.store.relabel (sent canUnregister .unregister requests)).entity?
      (fun life => life = source) listed going)
    (different : unregisterAll requests raw source ≠ target)
    (spared : raw ∈ listed → ∀ life, w.census.life raw = some life →
      unregisterAll requests raw life = source → life = source) :
    raw ∈ going ↔ w.census.life raw = some source ∧
      advanceAll w.shared.IsStored source target listed raw (unregisterAll requests raw source) =
        target := by
  have life_eq {x : EntityId} (found : w.shared.store.entity? raw = some x) :
      w.census.life raw = some x.life ∧
        (x.sent canUnregister .unregister requests).life = unregisterAll requests raw x.life := by
    obtain ⟨stored, rfl⟩ := sound.store.entity?_eq_some_iff.mp found
    exact ⟨census_life (sound.entity?_of_mem (mem_ids.mpr (.inl stored))), life_sent requests x⟩
  simp only [goes.mem_iff, Store.entity?_relabel, Option.map_eq_some_iff, decide_eq_true_iff]
  unfold advanceAll
  constructor
  · rintro ⟨member, y, ⟨x, found, rfl⟩, due⟩
    obtain ⟨known, sent⟩ := life_eq found
    rw [sent] at due
    have same := spared member x.life known due
    rw [same] at known due
    exact ⟨known, if_pos ⟨member, ⟨x, found⟩, due⟩⟩
  · rintro ⟨known, advanced⟩
    split at advanced
    next both =>
      obtain ⟨member, ⟨x, found⟩, due⟩ := both
      obtain ⟨known', sent⟩ := life_eq found
      cases known.symm.trans known'
      exact ⟨member, _, ⟨x, found, rfl⟩, sent.trans due⟩
    next => exact absurd advanced different

/-- Owed changes are counted at the boundary at which they are due. -/
theorem length_advanced (target : LifeState) {fence due : FenceId} {source : LifeState}
    {listed going : List Nat} (sound : w.shared.Sound) (sound' : w'.shared.Sound)
    (lives : ∀ raw, w'.census.life raw = (w.census.life raw).map (w.boundaryLife fence raw))
    (goes : Going (w.shared.store.relabel (sent canUnregister .unregister
        (w.shared.destroys.map EntityId.raw))).entity? (fun life => life = source)
      (if fence = due then listed else []) going)
    (changes : fence = due → ∀ raw life, w.boundaryLife fence raw life = advanceAll w.shared.IsStored
      source target listed raw (unregisterAll (w.shared.destroys.map EntityId.raw) raw life))
    (different : ∀ raw, unregisterAll (w.shared.destroys.map EntityId.raw) raw source ≠ target)
    (spared : ∀ raw ∈ listed, ∀ life, w.census.life raw = some life →
      unregisterAll (w.shared.destroys.map EntityId.raw) raw life = source → life = source)
    (counts : ∀ raw, figure.Counts w.census w'.census raw ↔
      w.census.life raw = some source ∧ w'.census.life raw = some target)
    (elsewhere : ∀ raw, figure.Counts w.census w'.census raw → fence = due) :
    going.length = (counted w w' figure).length := by
  refine length_counted sound sound' goes.distinct fun raw => ?_
  by_cases here : fence = due
  · rw [if_pos here] at goes
    refine (mem_advanced sound goes (different raw) (spared raw)).trans (Iff.trans ?_ (counts raw).symm)
    refine and_congr_right fun known => ?_
    rw [lives, known, Option.map_some, Option.some.injEq, changes here]
  · rw [if_neg here] at goes
    refine iff_of_false (fun member => ?_) fun counts => here (elsewhere raw counts)
    cases ((goes.mem_iff raw).mp member).1

/-- Requests that are applied are counted where they put someone on the way out. -/
theorem length_leaving {leaving : List Nat} (lawful : Lawful p)
    (boundary : ∃ fence, p.what = .bounded fence) (sound : p.before.world.shared.Sound)
    (sound' : p.after.world.shared.Sound)
    (goes : Going p.before.world.shared.entity? canUnregister
      (p.before.world.shared.destroys.map EntityId.raw) leaving) :
    leaving.length = (counted p.before.world p.after.world .unregistered).length := by
  refine length_counted sound sound' goes.distinct fun raw => (goes.mem_iff raw).trans ?_
  constructor
  · rintro ⟨requested, x, found, able⟩
    have early := early_iff.mp able
    have known := census_life found
    obtain ⟨y, there, gone⟩ := lawful.unregistered raw x (.inr ⟨boundary, requested⟩) found early
    exact ⟨early.imp (fun new => known.trans (congrArg some new)) fun old =>
      known.trans (congrArg some old), (census_life there).trans (congrArg some gone)⟩
  · intro counts
    have requested : raw ∈ p.before.world.shared.destroys.map EntityId.raw := by
      rcases lawful.destroys_of_counts counts with called | ⟨-, requested⟩
      · obtain ⟨fence, bounded⟩ := boundary
        cases called.symm.trans bounded
      · exact requested
    refine ⟨requested, ?_⟩
    rcases counts.1 with known | known
    · obtain ⟨x, found, new⟩ := Option.map_eq_some_iff.mp known
      exact ⟨x, found, early_iff.mpr (.inl new)⟩
    · obtain ⟨x, found, old⟩ := Option.map_eq_some_iff.mp known
      exact ⟨x, found, early_iff.mpr (.inr old)⟩

/-- A boundary counts exactly those whom its figures are about. -/
theorem counted_boundary {c : Chronicle} {fence : FenceId} {life life' : LifecycleReport}
    (timely : Timely c w.census) (sound : w.shared.Sound)
    (applied : (w.applyBoundary fence life).value = (.ok life', w')) :
    life' = ⟨life.promoted + (counted w w' .promoted).length,
      life.unregistered + (counted w w' .unregistered).length,
      life.destroyed + (counted w w' .destroyed).length⟩ := by
  obtain ⟨new, bounded⟩ := bounded_of_applyBoundary sound applied
  have sound' := bounded.relived.sound
  have lives (raw : Nat) := life_of_relived bounded.relived raw
  have lawful : Lawful ⟨.leaving w fence [], .bounded fence, .passing w' []⟩ :=
    lawful_of_bounded rfl timely bounded
  obtain ⟨leaving, promoted, destroyed, rfl, goes, alive, dead⟩ := applyBoundary_eq sound applied
  have unregistered : leaving.length = (counted w w' .unregistered).length :=
    length_leaving (p := ⟨.leaving w fence [], .bounded fence, .passing w' []⟩) lawful ⟨fence, rfl⟩ sound
      sound' goes
  have promotes : promoted.length = (counted w w' .promoted).length := by
    apply length_advanced .alive sound sound' lives alive
    case changes =>
      rintro rfl raw life
      rw [boundaryLife, if_pos rfl]
    case different =>
      intro raw
      unfold unregisterAll
      split <;> simp
    case spared => exact fun _ _ _ _ => unregisterAll_of_register
    case counts => exact fun _ => .rfl
    case elsewhere =>
      intro raw counts
      exact Happening.bounded.inj (lawful.at_of_counts counts)
  have destroys : destroyed.length = (counted w w' .destroyed).length := by
    apply length_advanced .destroyed sound sound' lives dead
    case changes =>
      rintro rfl raw life
      rw [boundaryLife, if_neg (by decide), if_pos rfl]
    case different => exact fun raw => by simp [unregisterAll, canUnregister]
    case spared =>
      intro raw listed life known due
      exact (unregisterAll_of_listed timely known listed _).symm.trans due
    case counts => exact fun _ => .rfl
    case elsewhere =>
      intro raw counts
      exact Happening.bounded.inj (lawful.at_of_counts counts)
  rw [unregistered, promotes, destroys]

end World

end EntityWorld
