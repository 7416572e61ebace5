import EntityWorld.Proofs.Entity.Transition
import EntityWorld.Proofs.Entity.Word

/-!
# What an id remembers

Callers write the priority and the life state of an id in any order. A write reaches its own field and
no other, so the raw id stays, and each field has the value that was written to it last; a word that is
written with masks and shifts stays the word of the id. Main statement: `independent_of_calls`.
-/
namespace EntityWorld

namespace EntityId

/-! ### Calls -/

/-- A call that writes to an id. -/
inductive Call where
  | priority (p : Priority)
  | life (s : LifeState)
  -- Writes a life state too, or is refused.
  | transition (next : LifeState)
  deriving DecidableEq, Repr

/-- What a caller has after an answer: when it is refused, what it had before. -/
def kept {α : Type} (old : α) : Except IllegalTransition α → α
  | .ok new => new
  | .error _ => old

def after (id : EntityId) : Call → EntityId
  | .priority p => id.withPriority p
  | .life s => id.withLife s
  | .transition next => kept id (id.transition next)

def afterAll (id : EntityId) (calls : List Call) : EntityId := calls.foldl after id

end EntityId

/-- The same call on a machine word. -/
def Word.after (w : Word) : EntityId.Call → Word
  | .priority p => w.withPriority p
  | .life s => w.withLife s
  | .transition next => EntityId.kept w (w.transition next)

def Word.afterAll (w : Word) (calls : List EntityId.Call) : Word := calls.foldl Word.after w

namespace EntityId

variable {id a b : EntityId}

/-- The priorities that calls write, in their order. -/
def prioritiesOf : List Call → List Priority
  | [] => []
  | .priority p :: rest => p :: prioritiesOf rest
  | .life _ :: rest | .transition _ :: rest => prioritiesOf rest

/-- The life states that calls write, in their order, where this is the one at first. -/
def livesOf (state : LifeState) : List Call → List LifeState
  | [] => []
  | .priority _ :: rest => livesOf state rest
  | .life s :: rest => s :: livesOf s rest
  | .transition next :: rest =>
    if state.Reaches next then next :: livesOf next rest else livesOf state rest

/-! ### One call -/

theorem after_transition (id : EntityId) (next : LifeState) :
    id.after (.transition next) = if id.life.Reaches next then id.withLife next else id := by
  rw [after, transition_eq]
  split <;> rfl

theorem raw_after (id : EntityId) (call : Call) : (id.after call).raw = id.raw := by
  cases call with
  | priority p => exact raw_withPriority id p
  | life s => exact raw_withLife id s
  | transition next =>
    rw [after_transition]
    split
    · exact raw_withLife id next
    · rfl

theorem word_after (id : EntityId) (call : Call) : (id.after call).word = id.word.after call := by
  cases call with
  | priority p => exact word_withPriority id p
  | life s => exact word_withLife id s
  | transition next =>
    rw [after, Word.after, transition_word]
    cases id.transition next <;> rfl

/-! ### Any number of calls -/

theorem raw_afterAll (id : EntityId) (calls : List Call) : (id.afterAll calls).raw = id.raw := by
  induction calls generalizing id with
  | nil => rfl
  | cons call rest ih => exact (ih (id.after call)).trans (raw_after id call)

theorem word_afterAll (id : EntityId) (calls : List Call) :
    (id.afterAll calls).word = id.word.afterAll calls := by
  induction calls generalizing id with
  | nil => rfl
  | cons call rest ih =>
    refine (ih (id.after call)).trans ?_
    rw [word_after]
    rfl

/-- The flags are those of the priority that was written last. Unlike the priority they tell whether any
was written, since an id may come with both flags. -/
theorem flags_afterAll (id : EntityId) (calls : List Call) : (id.afterAll calls).flags =
    ((prioritiesOf calls).getLast?.map Priority.flags).getD id.flags := by
  induction calls generalizing id with
  | nil => rfl
  | cons call rest ih =>
    refine (ih (id.after call)).trans ?_
    cases call with
    | priority p =>
      -- What it writes is what the calls after it begin with.
      rw [prioritiesOf, List.getLast?_cons, after, flags_withPriority]
      cases (prioritiesOf rest).getLast? <;> rfl
    | life s => rw [prioritiesOf, after, flags_withLife]
    | transition next =>
      rw [prioritiesOf, after_transition]
      split
      · rw [flags_withLife]
      · rfl

theorem priority_afterAll (id : EntityId) (calls : List Call) :
    (id.afterAll calls).priority = (prioritiesOf calls).getLast?.getD id.priority := by
  rw [priority, flags_afterAll]
  cases (prioritiesOf calls).getLast? with
  | none => rfl
  | some p => exact Priority.ofFlags_flags p

theorem bothFlags_afterAll (id : EntityId) (calls : List Call) :
    (id.afterAll calls).flags = 3 ↔ id.flags = 3 ∧ prioritiesOf calls = [] := by
  rw [flags_afterAll, ← List.getLast?_eq_none_iff]
  cases (prioritiesOf calls).getLast? with
  | none => simp
  | some p => cases p <;> simp [Priority.flags]

theorem life_afterAll (id : EntityId) (calls : List Call) :
    (id.afterAll calls).life = (livesOf id.life calls).getLast?.getD id.life := by
  induction calls generalizing id with
  | nil => rfl
  | cons call rest ih =>
    refine (ih (id.after call)).trans ?_
    cases call with
    | priority p => rw [livesOf, after, life_withPriority]
    | life s => rw [livesOf, List.getLast?_cons, after, life_withLife, Option.getD_some]
    | transition next =>
      rw [livesOf, after_transition]
      split
      · rw [List.getLast?_cons, life_withLife, Option.getD_some]
      · rfl

/-! ### Where an id comes from -/

/-- The word that an id is made from. -/
inductive Origin where
  -- A raw id; the bits above it are dropped.
  | raw (w : Word)
  | bits (w : Word)

namespace Origin

def value : Origin → Word
  | .raw w | .bits w => w

def toId : Origin → EntityId
  | .raw w => ofRaw w.toNat
  | .bits w => ofBits w.toNat

/-- What masks make of the word. -/
def word : Origin → Word
  | .raw w => w.ofRaw
  | .bits w => w.ofBits

def bothFlags : Origin → Bool
  | .raw _ => false
  | .bits w => w.getLsbD 20 && w.getLsbD 21

def priority : Origin → Priority
  | .raw _ => .normal
  | .bits w =>
    match w.getLsbD 20, w.getLsbD 21 with
    | true, false => .high
    | false, true => .low
    | _, _ => .normal

def life : Origin → LifeState
  | .raw _ => .register
  | .bits w =>
    match w.getLsbD 22, w.getLsbD 23 with
    | false, false => .register
    | true, false => .alive
    | false, true => .unregister
    | true, true => .destroyed

theorem word_toId (o : Origin) : o.toId.word = o.word := by
  cases o with
  | raw w => exact word_ofRaw w
  | bits w => exact word_ofBits w

theorem raw_toId (o : Origin) : o.toId.raw = o.value.toNat % rawBound := by
  cases o with
  | raw w => exact raw_ofRaw w.toNat
  | bits w => exact Nat.mod_mod_of_dvd w.toNat (by decide)

theorem flags_toId_bits (w : Word) :
    (bits w).toId.flags = (w.getLsbD 20).toNat + 2 * (w.getLsbD 21).toNat := by
  rw [flags_eq, toId, testBit_ofBits w (by decide), testBit_ofBits w (by decide)]

theorem bothFlags_toId (o : Origin) : o.toId.flags = 3 ↔ o.bothFlags = true := by
  cases o with
  | raw w => simp [toId, bothFlags]
  | bits w =>
    rw [flags_toId_bits, bothFlags]
    cases w.getLsbD 20 <;> cases w.getLsbD 21 <;> decide

theorem priority_toId (o : Origin) : o.toId.priority = o.priority := by
  cases o with
  | raw w =>
    rw [EntityId.priority, toId, flags_ofRaw]
    rfl
  | bits w =>
    rw [EntityId.priority, flags_toId_bits, priority]
    cases w.getLsbD 20 <;> cases w.getLsbD 21 <;> rfl

theorem life_toId (o : Origin) : o.toId.life = o.life := by
  cases o with
  | raw w => exact life_ofRaw w.toNat
  | bits w =>
    have code := code_eq (bits w).toId
    rw [toId, testBit_ofBits w (by decide), testBit_ofBits w (by decide)] at code
    rw [← LifeState.ofCode_code (bits w).toId.life, toId, code, life]
    cases w.getLsbD 22 <;> cases w.getLsbD 23 <;> rfl

end Origin

/-! ### Every word and all calls -/

/-- How an id answers when a life state is asked for. -/
structure Checks (id : EntityId) (next : LifeState) : Prop where
  answer : (∃ moved, id.transition next = .ok moved) ↔ id.life.Reaches next
  moved : ∀ moved, id.transition next = .ok moved →
    moved.life = next ∧ ∀ i, i < 22 ∨ 24 ≤ i → moved.bits.testBit i = id.bits.testBit i
  refused : ∀ cause, id.transition next = .error cause →
    cause = ⟨id.life, next⟩ ∧ id.after (.transition next) = id

theorem checks (id : EntityId) (next : LifeState) : Checks id next where
  answer := by simp only [transition_eq_ok_iff, exists_and_left, exists_eq, and_true]
  moved moved given := by
    obtain ⟨-, rfl⟩ := transition_eq_ok_iff.mp given
    refine ⟨life_withLife id next, fun i elsewhere => ?_⟩
    have outside : ¬ (22 ≤ i ∧ i < 24) := by omega
    rw [testBit_withLife, if_neg outside]
  refused cause given := by
    obtain ⟨blocked, rfl⟩ := transition_eq_error_iff.mp given
    exact ⟨rfl, by rw [after_transition, if_neg blocked]⟩

/-- A word, read and changed with masks and shifts, is that of an id. -/
structure Codes (word : Word) (id : EntityId) : Prop where
  bits : word.toNat = id.bits
  raw : word.raw.toNat = id.raw
  priority : word.priority = id.priority
  life : word.life = id.life
  reserved : ∀ i, 24 ≤ i → word.getLsbD i = false
  whole : word.ofBits = word
  differs : ∀ other : EntityId, word.lifeDiffers other.word = id.lifeDiffers other
  transition : ∀ next, word.transition next = (id.transition next).map EntityId.word

theorem ofBits_bits (id : EntityId) : ofBits id.bits = id := ext_bits (Nat.mod_eq_of_lt id.bits_lt)

theorem codes_word (id : EntityId) : Codes id.word id where
  bits := toNat_word id
  raw := raw_word id
  priority := priority_word id
  life := life_word id
  reserved i above := by
    rw [getLsbD_word]
    exact Nat.testBit_lt_two_pow
      (Nat.lt_of_lt_of_le id.bits_lt (Nat.pow_le_pow_right Nat.two_pos above))
  whole := by rw [← word_ofBits, toNat_word, ofBits_bits]
  differs := lifeDiffers_word id
  transition := transition_word id

/-- What an id is after some calls. -/
structure Independent (origin : Origin) (calls : List Call) (id : EntityId) : Prop where
  raw : id.raw = origin.value.toNat % rawBound
  priority : id.priority = (prioritiesOf calls).getLast?.getD origin.priority
  life : id.life = (livesOf origin.life calls).getLast?.getD origin.life
  -- They are read as no priority, until one is written.
  bothFlags : id.flags = 3 ↔ origin.bothFlags = true ∧ prioritiesOf calls = []
  whole : ofBits id.bits = id
  checks : ∀ next, Checks id next
  codes : Codes (origin.word.afterAll calls) id

theorem independent_afterAll (origin : Origin) (calls : List Call) :
    Independent origin calls (origin.toId.afterAll calls) where
  raw := (raw_afterAll _ calls).trans origin.raw_toId
  priority := by rw [priority_afterAll, origin.priority_toId]
  life := by rw [life_afterAll, origin.life_toId]
  bothFlags := by rw [bothFlags_afterAll, origin.bothFlags_toId]
  whole := ofBits_bits _
  checks := EntityId.checks _
  codes := by
    rw [← origin.word_toId, ← word_afterAll]
    exact codes_word _

/-- What can be read from two ids is the same. -/
def SameFields (a b : EntityId) : Prop := a.raw = b.raw ∧ a.priority = b.priority ∧ a.life = b.life

/-- Flags that are not both set can be read back from the priority. -/
theorem flags_priority (single : id.flags ≠ 3) : id.priority.flags = id.flags := by
  have table : ∀ flags < 4, flags ≠ 3 → (Priority.ofFlags flags).flags = flags := by decide
  exact table id.flags id.flags_lt single

theorem eq_iff_sameFields (left : a.flags ≠ 3) (right : b.flags ≠ 3) :
    a = b ↔ SameFields a b := by
  constructor
  · rintro rfl
    exact ⟨rfl, rfl, rfl⟩
  · rintro ⟨raw, priority, life⟩
    refine ext_fields raw ?_ life
    rw [← flags_priority left, ← flags_priority right, priority]

theorem flags_afterAll_ofRaw (raw : Nat) (calls : List Call) :
    ((ofRaw raw).afterAll calls).flags ≠ 3 := by
  rw [Ne, bothFlags_afterAll, flags_ofRaw]
  simp

/-- Whatever word an id is made from and whatever is written to it, no field disturbs another; and what
is made from raw ids is told apart by its fields. -/
theorem independent_of_calls :
    (∀ origin calls, Independent origin calls (origin.toId.afterAll calls)) ∧
      ∀ (v w : Word) (calls others : List Call),
        (ofRaw v.toNat).afterAll calls = (ofRaw w.toNat).afterAll others ↔
          SameFields ((ofRaw v.toNat).afterAll calls) ((ofRaw w.toNat).afterAll others) :=
  ⟨independent_afterAll, fun v w calls others =>
    eq_iff_sameFields (flags_afterAll_ofRaw v.toNat calls) (flags_afterAll_ofRaw w.toNat others)⟩

-- Both flags are read as none, so here the fields do not tell.
example : SameFields (ofBits 0x300001) (ofBits 1) ∧ ofBits 0x300001 ≠ ofBits 1 := by
  unfold SameFields
  decide

end EntityId

end EntityWorld
