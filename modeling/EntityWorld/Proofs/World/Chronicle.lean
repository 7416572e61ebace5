import EntityWorld.World.Lifecycle
import Mathlib.Data.List.Nodup

/-!
# Which attempt changes a life state

An attempt at a frame begins with its commit; it passes the boundaries of Register and Unregister or
it is abandoned before both. A chronicle notes for each entity which attempt committed it and by
which attempt it was on its way out; its life state follows from these two numbers and from the last
attempts that passed the two boundaries. `Timely` says so, and what is listed for whom.
-/
namespace EntityWorld

/-- What a world knows about its entities' lives, by raw id. -/
structure Census where
  life : Nat → Option LifeState
  -- The entity is in a current row.
  current : Nat → Bool
  registering : List Nat
  unregistering : List Nat
  nextUnregistering : List Nat

/-- Attempts are counted from 1. -/
@[ext]
structure Chronicle where
  -- Commits so far.
  attempts : Nat
  -- The last attempt that was completed.
  completed : Nat
  -- The last attempt that passed the boundary of Register.
  registered : Nat
  -- The last attempt that passed the boundary of Unregister.
  unregistered : Nat
  -- The attempt whose commit made the entity current.
  committed : Nat → Option Nat
  -- The first attempt whose commit saw the entity on its way out.
  left : Nat → Option Nat

namespace Chronicle

def start : Chronicle := ⟨0, 0, 0, 0, fun _ => none, fun _ => none⟩

/-- The life state that an entity has come to. -/
def lifeOf (c : Chronicle) (raw : Nat) : LifeState :=
  match c.left raw with
  | some k => if k ≤ c.unregistered then .destroyed else .unregister
  | none =>
    match c.committed raw with
    | some k => if k ≤ c.registered then .alive else .register
    | none => .register

/-- Entities are put on their way out before the next commit. -/
def depart (c : Chronicle) (new : List Nat) : Chronicle :=
  { c with left := fun raw => if raw ∈ new then some (c.attempts + 1) else c.left raw }

/-- The next attempt begins with its commit. -/
def commit (c : Chronicle) (current : Nat → Bool) : Chronicle :=
  { c with
    attempts := c.attempts + 1
    committed := fun raw => if current raw then (c.committed raw).or (some (c.attempts + 1)) else none
    left := fun raw => if current raw then c.left raw else none }

end Chronicle

structure Timely (c : Chronicle) (v : Census) : Prop where
  life : ∀ raw life, v.life raw = some life → life = c.lifeOf raw
  current : ∀ raw, v.current raw = true ↔ ∃ k, c.committed raw = some k
  committed : ∀ raw k, c.committed raw = some k → (∃ life, v.life raw = some life) ∧ k ≤ c.attempts
  left : ∀ raw k, c.left raw = some k →
    (∃ life, v.life raw = some life) ∧ k ≤ c.attempts + 1 ∧ (k ≤ c.attempts → v.current raw = true)
  -- Who was committed but not promoted, and was not on its way out at its commit.
  registering : ∀ raw, raw ∈ v.registering ↔
    ∃ k, c.committed raw = some k ∧ c.registered < k ∧ ∀ j, c.left raw = some j → k < j
  registeringOnce : v.registering.Nodup
  unregistering : ∀ raw, raw ∈ v.unregistering ↔
    ∃ k, c.left raw = some k ∧ c.unregistered < k ∧ k ≤ c.attempts
  nextUnregistering : ∀ raw, raw ∈ v.nextUnregistering ↔ c.left raw = some (c.attempts + 1)
  leavingOnce : (v.unregistering ++ v.nextUnregistering).Nodup
  passed : c.unregistered ≤ c.registered ∧ c.registered ≤ c.attempts
  -- Who is destroyed was destroyed by the last attempt: the next commit takes it away.
  swept : ∀ raw k, c.left raw = some k → k ≤ c.unregistered → c.unregistered = c.attempts

namespace Timely

variable {c : Chronicle} {v v' : Census} {raw : Nat} {life : LifeState}

/-- Who has left is in a late state, and who has not left is in an early one. -/
theorem canUnregister_iff (timely : Timely c v) (known : v.life raw = some life) :
    World.canUnregister life = true ↔ c.left raw = none := by
  rw [timely.life raw life known]
  unfold Chronicle.lifeOf
  cases c.left raw with
  | some k =>
    simp only
    split <;> simp [World.canUnregister]
  | none =>
    simp only
    split
    · split <;> simp [World.canUnregister]
    · simp [World.canUnregister]

theorem life_of_left {k : Nat} (timely : Timely c v) (known : v.life raw = some life)
    (left : c.left raw = some k) : life = if k ≤ c.unregistered then .destroyed else .unregister := by
  rw [timely.life raw life known, Chronicle.lifeOf, left]

/-- An entity is on its way out when some attempt is to destroy it. -/
theorem unregister_iff (timely : Timely c v) :
    v.life raw = some .unregister ↔ ∃ k, c.left raw = some k ∧ c.unregistered < k := by
  constructor
  · intro known
    cases left : c.left raw with
    | none =>
      have := (timely.canUnregister_iff known).mpr left
      cases this
    | some k =>
      have state := timely.life_of_left known left
      split at state
      · cases state
      next later => exact ⟨k, rfl, Nat.lt_of_not_le later⟩
  · rintro ⟨k, left, later⟩
    obtain ⟨⟨life, known⟩, -⟩ := timely.left raw k left
    rw [known, timely.life_of_left known left, if_neg (Nat.not_le_of_lt later)]

theorem destroyed_iff (timely : Timely c v) :
    v.life raw = some .destroyed ↔ ∃ k, c.left raw = some k ∧ k ≤ c.unregistered := by
  constructor
  · intro known
    cases left : c.left raw with
    | none =>
      have := (timely.canUnregister_iff known).mpr left
      cases this
    | some k =>
      have state := timely.life_of_left known left
      split at state
      next earlier => exact ⟨k, rfl, earlier⟩
      · cases state
  · rintro ⟨k, left, earlier⟩
    obtain ⟨⟨life, known⟩, -⟩ := timely.left raw k left
    rw [known, timely.life_of_left known left, if_pos earlier]

/-! ### Listed exactly once -/

theorem count_leaving (timely : Timely c v) (raw : Nat) :
    (v.unregistering ++ v.nextUnregistering).count raw =
      if v.life raw = some .unregister then 1 else 0 := by
  rw [timely.leavingOnce.count]
  refine if_congr ?_ rfl rfl
  rw [List.mem_append, timely.unregistering, timely.nextUnregistering, timely.unregister_iff]
  constructor
  -- The first list is for attempts that have begun, the second for the next one.
  · rintro (⟨k, left, later, -⟩ | left)
    · exact ⟨k, left, later⟩
    · exact ⟨_, left, Nat.lt_succ_of_le (Nat.le_trans timely.passed.1 timely.passed.2)⟩
  · rintro ⟨k, left, later⟩
    obtain ⟨-, bound, -⟩ := timely.left raw k left
    rcases Nat.lt_or_eq_of_le bound with earlier | rfl
    · exact .inl ⟨k, left, later, Nat.le_of_lt_succ earlier⟩
    · exact .inr left

theorem count_registering (timely : Timely c v) (current : v.current raw = true)
    (known : v.life raw = some .register) : v.registering.count raw = 1 := by
  refine List.count_eq_one_of_mem timely.registeringOnce ((timely.registering raw).mpr ?_)
  obtain ⟨k, committed⟩ := (timely.current raw).mp current
  have left : c.left raw = none := (timely.canUnregister_iff known).mp rfl
  refine ⟨k, committed, ?_, by simp [left]⟩
  have state := timely.life raw .register known
  rw [Chronicle.lifeOf, left, committed] at state
  simp only at state
  split at state
  · cases state
  next later => exact Nat.lt_of_not_le later

/-! ### What keeps it -/

/-- Changing life states makes nobody come or go. -/
private theorem known_of_lives {change : Nat → LifeState → LifeState}
    (lives : ∀ raw, v'.life raw = (v.life raw).map (change raw)) (raw : Nat) :
    (∃ life, v'.life raw = some life) ↔ ∃ life, v.life raw = some life := by
  rw [lives]
  cases v.life raw <;> simp

/-- Entities may be new; nothing else matters to what is owed. -/
theorem grow (timely : Timely c v) (kept : ∀ raw life, v.life raw = some life → v'.life raw = some life)
    (new : ∀ raw life, v'.life raw = some life →
      v.life raw = some life ∨ (v.life raw = none ∧ life = .register))
    (current : v'.current = v.current) (registering : v'.registering = v.registering)
    (unregistering : v'.unregistering = v.unregistering)
    (nextUnregistering : v'.nextUnregistering = v.nextUnregistering) : Timely c v' where
  life := by
    intro raw life known
    rcases new raw life known with old | ⟨unknown, rfl⟩
    · exact timely.life raw life old
    · -- Nothing has been noted of an entity that was not there.
      cases left : c.left raw with
      | some k =>
        obtain ⟨⟨life, known⟩, -⟩ := timely.left raw k left
        rw [unknown] at known
        cases known
      | none =>
        cases committed : c.committed raw with
        | some k =>
          obtain ⟨⟨life, known⟩, -⟩ := timely.committed raw k committed
          rw [unknown] at known
          cases known
        | none => simp only [Chronicle.lifeOf, left, committed]
  current := by simpa only [current] using timely.current
  committed := fun raw k committed =>
    have ⟨⟨life, known⟩, bound⟩ := timely.committed raw k committed
    ⟨⟨life, kept raw life known⟩, bound⟩
  left := fun raw k left =>
    have ⟨⟨life, known⟩, bound, there⟩ := timely.left raw k left
    ⟨⟨life, kept raw life known⟩, bound, by rwa [current]⟩
  registering := by simpa only [registering] using timely.registering
  registeringOnce := by simpa only [registering] using timely.registeringOnce
  unregistering := by simpa only [unregistering] using timely.unregistering
  nextUnregistering := by simpa only [nextUnregistering] using timely.nextUnregistering
  leavingOnce := by simpa only [unregistering, nextUnregistering] using timely.leavingOnce
  passed := timely.passed
  swept := timely.swept

/-- Entities in an early state go on their way out. -/
theorem depart {new : List Nat} (timely : Timely c v) (distinct : new.Nodup)
    (able : ∀ raw ∈ new, ∃ life, v.life raw = some life ∧ World.canUnregister life = true)
    (lives : ∀ raw, v'.life raw = (v.life raw).map fun life => if raw ∈ new then .unregister else life)
    (current : v'.current = v.current) (registering : v'.registering = v.registering)
    (unregistering : v'.unregistering = v.unregistering)
    (nextUnregistering : v'.nextUnregistering = v.nextUnregistering ++ new) :
    Timely (c.depart new) v' := by
  have notLeft (raw : Nat) (member : raw ∈ new) : c.left raw = none := by
    obtain ⟨life, known, early⟩ := able raw member
    exact (timely.canUnregister_iff known).mp early
  have left_eq (raw : Nat) :
      (c.depart new).left raw = if raw ∈ new then some (c.attempts + 1) else c.left raw := rfl
  have old {raw k : Nat} (left : c.left raw = some k) : raw ∉ new := by
    intro member
    rw [notLeft raw member] at left
    cases left
  have known (raw : Nat) := known_of_lives lives raw
  refine ⟨fun raw life there => ?_, by rw [current]; exact timely.current, fun raw k committed => ?_,
    fun raw k left => ?_, fun raw => ?_, by simpa only [registering] using timely.registeringOnce,
    fun raw => ?_, fun raw => ?_, ?_, timely.passed, fun raw k left earlier => ?_⟩
  · -- Who departs leaves with the next attempt, which has not passed Unregister.
    rw [lives] at there
    obtain ⟨life', before, rfl⟩ := Option.map_eq_some_iff.mp there
    unfold Chronicle.lifeOf
    rw [left_eq]
    split
    next member =>
      have later : ¬ c.attempts + 1 ≤ c.unregistered := by
        have := timely.passed
        omega
      exact (if_neg later).symm
    next => exact timely.life raw life' before
  · rw [known]
    exact timely.committed raw k committed
  · rw [known, current]
    rw [left_eq] at left
    split at left
    next member =>
      cases left
      obtain ⟨life, there, -⟩ := able raw member
      exact ⟨⟨life, there⟩, Nat.le_refl _, fun early => absurd early (Nat.not_succ_le_self _)⟩
    next => exact timely.left raw k left
  · rw [registering, timely.registering]
    simp only [left_eq]
    split
    next member =>
      -- Who goes only now was committed before the next attempt.
      rw [notLeft raw member]
      constructor
      · rintro ⟨k, committed, later, -⟩
        refine ⟨k, committed, later, fun j left => ?_⟩
        cases left
        exact Nat.lt_succ_of_le (timely.committed raw k committed).2
      · rintro ⟨k, committed, later, -⟩
        exact ⟨k, committed, later, nofun⟩
    next => rfl
  · -- The list for this attempt is closed: who departs now is listed for the next one.
    rw [unregistering, timely.unregistering, left_eq]
    split
    next member =>
      rw [notLeft raw member]
      constructor
      · rintro ⟨k, left, -⟩
        cases left
      · rintro ⟨k, left, -, bound⟩
        cases left
        exact absurd bound (Nat.not_succ_le_self _)
    next => rfl
  · rw [nextUnregistering, List.mem_append, timely.nextUnregistering, left_eq]
    split
    next member => simp [member, Chronicle.depart]
    next absent => simp [absent, Chronicle.depart]
  · -- Whoever is listed has left already, and cannot depart again.
    rw [unregistering, nextUnregistering, ← List.append_assoc]
    refine List.nodup_append.mpr ⟨timely.leavingOnce, distinct, fun raw listed other member same => ?_⟩
    subst same
    have left : ∃ k, c.left raw = some k := by
      rcases List.mem_append.mp listed with doomed | departing
      · obtain ⟨k, left, -⟩ := (timely.unregistering raw).mp doomed
        exact ⟨k, left⟩
      · exact ⟨_, (timely.nextUnregistering raw).mp departing⟩
    obtain ⟨k, left⟩ := left
    exact old left member
  · rw [left_eq] at left
    split at left
    next =>
      cases left
      have := timely.passed
      change c.attempts + 1 ≤ c.unregistered at earlier
      omega
    next => exact timely.swept raw k left earlier

/-- Whoever departs was not on the way out before. -/
theorem left_depart {new : List Nat} {k : Nat} (timely : Timely c v)
    (able : ∀ raw ∈ new, ∃ life, v.life raw = some life ∧ World.canUnregister life = true)
    (left : (c.depart new).left raw = some k) : (c.left raw).or (some (c.attempts + 1)) = some k := by
  simp only [Chronicle.depart] at left
  split at left
  next member =>
    obtain ⟨life, known, early⟩ := able raw member
    rw [(timely.canUnregister_iff known).mp early]
    exact left
  next =>
    rw [left]
    rfl

/-- The boundary of Register: who is listed and still new becomes alive. -/
theorem promote (timely : Timely c v)
    (lives : ∀ raw, v'.life raw = (v.life raw).map fun life =>
      if raw ∈ v.registering ∧ life = .register then .alive else life)
    (current : v'.current = v.current) (registering : v'.registering = [])
    (unregistering : v'.unregistering = v.unregistering)
    (nextUnregistering : v'.nextUnregistering = v.nextUnregistering) :
    Timely { c with registered := c.attempts } v' := by
  have known (raw : Nat) := known_of_lives lives raw
  refine ⟨fun raw life there => ?_, by rw [current]; exact timely.current, fun raw k committed => ?_,
    fun raw k left => ?_, fun raw => ?_, by rw [registering]; exact .nil,
    by rw [unregistering]; exact timely.unregistering,
    by rw [nextUnregistering]; exact timely.nextUnregistering,
    by rw [unregistering, nextUnregistering]; exact timely.leavingOnce,
    ⟨Nat.le_trans timely.passed.1 timely.passed.2, Nat.le_refl _⟩, timely.swept⟩
  · rw [lives] at there
    obtain ⟨before, old, rfl⟩ := Option.map_eq_some_iff.mp there
    have state := timely.life raw before old
    cases left : c.left raw with
    | some k =>
      -- Who has left is not new any more.
      have late : ¬ World.canUnregister before = true := fun early => by
        rw [(timely.canUnregister_iff old).mp early] at left
        cases left
      rw [if_neg fun both => late (by rw [both.2]; rfl), state]
      simp only [Chronicle.lifeOf, left]
    | none =>
      cases committed : c.committed raw with
      | none =>
        have absent : raw ∉ v.registering := fun listed => by
          obtain ⟨k, committed', -⟩ := (timely.registering raw).mp listed
          rw [committed] at committed'
          cases committed'
        rw [if_neg fun both => absent both.1, state]
        simp only [Chronicle.lifeOf, left, committed]
      | some k =>
        -- It was promoted before, or it is listed and promoted now.
        have bound := (timely.committed raw k committed).2
        simp only [Chronicle.lifeOf, left, committed] at state ⊢
        rw [if_pos bound]
        by_cases earlier : k ≤ c.registered
        · rw [if_pos earlier] at state
          subst state
          exact if_neg fun both => by cases both.2
        · rw [if_neg earlier] at state
          exact if_pos ⟨(timely.registering raw).mpr
            ⟨k, committed, Nat.lt_of_not_le earlier, by simp [left]⟩, state⟩
  · rw [known]
    exact timely.committed raw k committed
  · rw [known, current]
    exact timely.left raw k left
  · rw [registering]
    refine ⟨nofun, ?_⟩
    rintro ⟨k, committed, later, -⟩
    exact absurd (timely.committed raw k committed).2 (Nat.not_le_of_lt later)

/-- The boundary of Unregister, after the one of Register: who is listed is destroyed. -/
theorem destroy (timely : Timely c v) (registered : c.registered = c.attempts)
    (lives : ∀ raw, v'.life raw = (v.life raw).map fun life =>
      if raw ∈ v.unregistering ∧ life = .unregister then .destroyed else life)
    (current : v'.current = v.current) (registering : v'.registering = v.registering)
    (unregistering : v'.unregistering = [])
    (nextUnregistering : v'.nextUnregistering = v.nextUnregistering) :
    Timely { c with unregistered := c.attempts } v' := by
  have known (raw : Nat) := known_of_lives lives raw
  refine ⟨fun raw life there => ?_, by rw [current]; exact timely.current, fun raw k committed => ?_,
    fun raw k left => ?_, by rw [registering]; exact timely.registering,
    by rw [registering]; exact timely.registeringOnce, fun raw => ?_,
    by rw [nextUnregistering]; exact timely.nextUnregistering, ?_,
    ⟨Nat.le_of_eq registered.symm, timely.passed.2⟩, fun _ _ _ _ => rfl⟩
  · rw [lives] at there
    obtain ⟨before, old, rfl⟩ := Option.map_eq_some_iff.mp there
    have state := timely.life raw before old
    cases left : c.left raw with
    | none =>
      have early := (timely.canUnregister_iff old).mpr left
      have new : before ≠ .unregister := fun late => by
        rw [late] at early
        cases early
      rw [if_neg fun both => new both.2, state]
      simp only [Chronicle.lifeOf, left]
    | some k =>
      have state := timely.life_of_left old left
      simp only [Chronicle.lifeOf, left]
      by_cases listed : raw ∈ v.unregistering
      · -- Whoever is listed is destroyed now.
        obtain ⟨j, left', later, bound⟩ := (timely.unregistering raw).mp listed
        obtain rfl : k = j := Option.some.inj (left.symm.trans left')
        rw [if_neg (Nat.not_le_of_lt later)] at state
        rw [if_pos ⟨listed, state⟩, if_pos bound]
      · rw [if_neg fun both => listed both.1, state]
        by_cases bound : k ≤ c.attempts
        · -- Whoever this attempt could destroy and who is not listed has been destroyed before.
          have earlier : k ≤ c.unregistered := by
            by_contra later
            exact listed ((timely.unregistering raw).mpr ⟨k, left, Nat.lt_of_not_le later, bound⟩)
          rw [if_pos earlier, if_pos bound]
        · rw [if_neg fun earlier => bound ?_, if_neg bound]
          exact Nat.le_trans earlier (Nat.le_trans timely.passed.1 timely.passed.2)
  · rw [known]
    exact timely.committed raw k committed
  · rw [known, current]
    exact timely.left raw k left
  · rw [unregistering]
    refine ⟨nofun, ?_⟩
    rintro ⟨k, left, later, bound⟩
    exact absurd bound (Nat.not_le_of_lt later)
  · rw [unregistering, nextUnregistering]
    exact (List.nodup_append.mp timely.leavingOnce).2.1

end Timely

/-! ### Commits -/

/-- What a commit makes of a census: who is destroyed is gone, everyone else is current, and who is
new among the current ones is listed. -/
structure Census.Commits (v v' : Census) (fresh : List Nat) : Prop where
  lives : ∀ raw, v'.life raw = (v.life raw).filter fun life => life ≠ .destroyed
  current : ∀ raw, v'.current raw = true ↔ ∃ life, v'.life raw = some life
  distinct : fresh.Nodup
  listed : ∀ raw, raw ∈ fresh ↔ v'.life raw = some .register ∧ ¬ v.current raw = true
  registering : v'.registering = v.registering ++ fresh
  unregistering : v'.unregistering = v.unregistering ++ v.nextUnregistering
  nextUnregistering : v'.nextUnregistering = []

namespace Timely

variable {c : Chronicle} {v v' : Census} {fresh : List Nat} {raw k : Nat} {life : LifeState}

private theorem survives (commits : v.Commits v' fresh) :
    v'.life raw = some life ↔ v.life raw = some life ∧ life ≠ .destroyed := by
  rw [commits.lives, Option.filter_eq_some_iff, decide_eq_true_iff]

private theorem committed_commit :
    (c.commit v'.current).committed raw = some k ↔
      v'.current raw = true ∧ (c.committed raw).or (some (c.attempts + 1)) = some k := by
  simp only [Chronicle.commit]
  split
  next there => simp [there]
  next absent => simp [absent]

/-- Nobody is known after a commit who was destroyed before it. -/
private theorem not_destroyed (timely : Timely c v) (commits : v.Commits v' fresh)
    (there : v'.current raw = true) (left : c.left raw = some k) : c.unregistered < k := by
  obtain ⟨life, known⟩ := (commits.current raw).mp there
  obtain ⟨old, alive⟩ := (survives commits).mp known
  refine Nat.lt_of_not_le fun earlier => alive ?_
  exact Option.some.inj (old.symm.trans (timely.destroyed_iff.mpr ⟨k, left, earlier⟩))

private theorem current_of_left (timely : Timely c v) (commits : v.Commits v' fresh)
    (left : c.left raw = some k) (later : c.unregistered < k) : v'.current raw = true := by
  have state := timely.unregister_iff.mpr ⟨k, left, later⟩
  exact (commits.current raw).mpr ⟨_, (survives commits).mpr ⟨state, nofun⟩⟩

private theorem left_commit (timely : Timely c v) (commits : v.Commits v' fresh) :
    (c.commit v'.current).left raw = some k ↔ c.left raw = some k ∧ c.unregistered < k := by
  simp only [Chronicle.commit]
  constructor
  · intro left
    split at left
    next there => exact ⟨left, timely.not_destroyed commits there left⟩
    · cases left
  · rintro ⟨left, later⟩
    rw [if_pos (timely.current_of_left commits left later), left]

/-- Who is promised a promotion stays. -/
private theorem current_of_registering (timely : Timely c v) (commits : v.Commits v' fresh)
    (member : raw ∈ v.registering) : v'.current raw = true := by
  obtain ⟨k, committed, later, before⟩ := (timely.registering raw).mp member
  obtain ⟨⟨life, old⟩, -⟩ := timely.committed raw k committed
  refine (commits.current raw).mpr ⟨life, (survives commits).mpr ⟨old, ?_⟩⟩
  -- Destroyed entities have passed the boundary of Register.
  rintro rfl
  obtain ⟨j, left, earlier⟩ := timely.destroyed_iff.mp old
  have := before j left
  have := timely.passed
  omega

private theorem life_commit (timely : Timely c v) (commits : v.Commits v' fresh)
    (known : v'.life raw = some life) : life = (c.commit v'.current).lifeOf raw := by
  have state := timely.life raw life ((survives commits).mp known).1
  have here := (commits.current raw).mpr ⟨life, known⟩
  simp only [Chronicle.lifeOf, Chronicle.commit, here, if_true] at state ⊢
  cases left : c.left raw with
  | some k => rwa [left] at state
  | none =>
    rw [left] at state
    cases committed : c.committed raw with
    | some k =>
      rw [committed] at state
      exact state
    | none =>
      -- The attempt that commits it has not passed the boundary of Register.
      rw [committed] at state
      have := timely.passed
      have later : ¬ c.attempts + 1 ≤ c.registered := by omega
      simpa [later] using state

private theorem registering_commit (timely : Timely c v) (commits : v.Commits v' fresh) :
    raw ∈ v'.registering ↔ ∃ k, (c.commit v'.current).committed raw = some k ∧ c.registered < k ∧
      ∀ j, (c.commit v'.current).left raw = some j → k < j := by
  have passed := timely.passed
  rw [commits.registering, List.mem_append, commits.listed]
  simp only [committed_commit, timely.left_commit commits]
  constructor
  · rintro (member | ⟨known, notCurrent⟩)
    · obtain ⟨k, committed, later, before⟩ := (timely.registering raw).mp member
      exact ⟨k, ⟨timely.current_of_registering commits member, by rw [committed]; rfl⟩, later,
        fun j left => before j left.1⟩
    · have never : c.committed raw = none := by
        cases committed : c.committed raw with
        | none => rfl
        | some k => exact absurd ((timely.current raw).mpr ⟨k, committed⟩) notCurrent
      refine ⟨c.attempts + 1, ⟨(commits.current raw).mpr ⟨_, known⟩, by rw [never]; rfl⟩,
        Nat.lt_succ_of_le passed.2, fun j left => ?_⟩
      rw [(timely.canUnregister_iff ((survives commits).mp known).1).mp rfl] at left
      cases left.1
  · rintro ⟨k, ⟨there, number⟩, later, before⟩
    obtain ⟨life, known⟩ := (commits.current raw).mp there
    have before (j : Nat) (left : c.left raw = some j) : k < j :=
      before j ⟨left, timely.not_destroyed commits there left⟩
    cases committed : c.committed raw with
    | some j =>
      rw [committed] at number
      cases number
      exact .inl ((timely.registering raw).mpr ⟨k, committed, later, before⟩)
    | none =>
      rw [committed] at number
      cases number
      -- It was not on its way out before this commit, so it is new.
      have left : c.left raw = none := by
        cases left : c.left raw with
        | none => rfl
        | some j =>
          have bound := (timely.left raw j left).2.1
          exact absurd (before j left) (Nat.not_lt_of_le bound)
      have state := timely.life raw life ((survives commits).mp known).1
      simp only [Chronicle.lifeOf, left, committed] at state
      subst state
      refine .inr ⟨known, fun there => ?_⟩
      obtain ⟨k, again⟩ := (timely.current raw).mp there
      rw [committed] at again
      cases again

private theorem unregistering_commit (timely : Timely c v) (commits : v.Commits v' fresh) :
    raw ∈ v'.unregistering ↔ ∃ k, (c.commit v'.current).left raw = some k ∧ c.unregistered < k ∧
      k ≤ c.attempts + 1 := by
  rw [commits.unregistering, List.mem_append, timely.unregistering, timely.nextUnregistering]
  simp only [timely.left_commit commits]
  constructor
  · rintro (⟨k, left, later, bound⟩ | left)
    · exact ⟨k, ⟨left, later⟩, later, Nat.le_succ_of_le bound⟩
    · have later : c.unregistered < c.attempts + 1 :=
        Nat.lt_succ_of_le (Nat.le_trans timely.passed.1 timely.passed.2)
      exact ⟨_, ⟨left, later⟩, later, Nat.le_refl _⟩
  · rintro ⟨k, ⟨left, later⟩, -, bound⟩
    rcases Nat.lt_or_eq_of_le bound with earlier | rfl
    · exact .inl ⟨k, left, later, Nat.le_of_lt_succ earlier⟩
    · exact .inr left

theorem commit (timely : Timely c v) (commits : v.Commits v' fresh) :
    Timely (c.commit v'.current) v' where
  life := fun raw life known => timely.life_commit commits known
  current := by
    intro raw
    simp only [committed_commit]
    constructor
    · intro there
      refine ⟨(c.committed raw).getD (c.attempts + 1), there, ?_⟩
      cases c.committed raw <;> rfl
    · rintro ⟨k, there, -⟩
      exact there
  committed := by
    intro raw k committed
    obtain ⟨there, number⟩ := committed_commit.mp committed
    refine ⟨(commits.current raw).mp there, ?_⟩
    cases old : c.committed raw with
    | none =>
      rw [old] at number
      cases number
      exact Nat.le_refl _
    | some j =>
      rw [old] at number
      cases number
      exact Nat.le_succ_of_le (timely.committed raw k old).2
  left := by
    intro raw k left
    obtain ⟨old, later⟩ := (timely.left_commit commits).mp left
    have there := timely.current_of_left commits old later
    exact ⟨(commits.current raw).mp there, Nat.le_succ_of_le (timely.left raw k old).2.1,
      fun _ => there⟩
  registering := fun raw => timely.registering_commit commits
  registeringOnce := by
    rw [commits.registering]
    refine List.nodup_append.mpr ⟨timely.registeringOnce, commits.distinct,
      fun raw old other new same => ?_⟩
    subst same
    obtain ⟨k, committed, -⟩ := (timely.registering raw).mp old
    exact ((commits.listed raw).mp new).2 ((timely.current raw).mpr ⟨k, committed⟩)
  unregistering := fun raw => timely.unregistering_commit commits
  nextUnregistering := by
    intro raw
    rw [commits.nextUnregistering]
    refine ⟨nofun, fun left => ?_⟩
    have := (timely.left raw _ ((timely.left_commit commits).mp left).1).2.1
    exact absurd this (Nat.not_succ_le_self _)
  leavingOnce := by
    rw [commits.unregistering, commits.nextUnregistering, List.append_nil]
    exact timely.leavingOnce
  passed := ⟨timely.passed.1, Nat.le_succ_of_le timely.passed.2⟩
  swept := by
    intro raw k left earlier
    obtain ⟨-, later⟩ := (timely.left_commit commits).mp left
    exact absurd earlier (Nat.not_le_of_lt later)

end Timely

end EntityWorld
