import EntityWorld.Entity.Word
import Mathlib.Algebra.Group.Nat.Defs

/-!
# The machine word of an id

Every operation on ids is the one of the same name on their machine words. Bit by bit: the fields of an
id lie side by side, and what is written to one of them reaches no bit of another.
-/
namespace EntityWorld.EntityId

variable {i : Nat}

/-! ### The bits of an id -/

theorem bits_eq (id : EntityId) :
    id.bits = rawBound * (4 * id.life.code + id.flags) + id.raw := by
  have packed := congrArg bits id.pack_fields
  rw [bits_pack, Nat.mod_eq_of_lt id.raw_lt, Nat.mod_eq_of_lt id.flags_lt,
    Nat.mod_eq_of_lt id.life.code_lt] at packed
  simp only [rawBound] at packed ⊢
  omega

theorem top_lt (id : EntityId) : id.bits / (4 * rawBound) < 4 := by
  have bound := id.bits_lt
  simp only [idBound, rawBound] at bound ⊢
  omega

/-- Each bit is one of the raw id, of the flags or of the life state. -/
theorem testBit_bits (id : EntityId) (i : Nat) : id.bits.testBit i =
    if i < 20 then id.raw.testBit i
    else if i < 22 then id.flags.testBit (i - 20)
    else id.life.code.testBit (i - 22) := by
  have upper : (4 * id.life.code + id.flags).testBit (i - 20) =
      if i - 20 < 2 then id.flags.testBit (i - 20) else id.life.code.testBit (i - 20 - 2) :=
    Nat.testBit_two_pow_mul_add (i := 2) _ id.flags_lt (i - 20)
  have whole : id.bits.testBit i =
      if i < 20 then id.raw.testBit i else (4 * id.life.code + id.flags).testBit (i - 20) := by
    rw [bits_eq]
    exact Nat.testBit_two_pow_mul_add (i := 20) _ id.raw_lt i
  rw [whole, upper]
  by_cases raw : i < 20
  · rw [if_pos raw, if_pos raw]
  · have flags : i - 20 < 2 ↔ i < 22 := by omega
    rw [if_neg raw, if_neg raw, Nat.sub_sub]
    simp only [flags]

theorem testBit_code_of_beyond (s : LifeState) (beyond : 24 ≤ i) : s.code.testBit (i - 22) = false := by
  have width : 2 ≤ i - 22 := by omega
  exact Nat.testBit_lt_two_pow
    (Nat.lt_of_lt_of_le s.code_lt (Nat.pow_le_pow_right Nat.two_pos width))

/-- A priority is written to two bits, and all others stay. -/
theorem testBit_withPriority (id : EntityId) (p : Priority) (i : Nat) :
    (id.withPriority p).bits.testBit i =
      if 20 ≤ i ∧ i < 22 then p.flags.testBit (i - 20) else id.bits.testBit i := by
  rw [testBit_bits, testBit_bits id, raw_withPriority, flags_withPriority, life_withPriority]
  rcases Nat.lt_or_ge i 20 with raw | above
  · simp [raw, Nat.not_le.mpr raw]
  · have raw : ¬ i < 20 := Nat.not_lt.mpr above
    rcases Nat.lt_or_ge i 22 with flags | life
    · simp [above, flags, raw]
    · simp [Nat.not_lt.mpr life, raw]

/-- A life state is written to the two above them. -/
theorem testBit_withLife (id : EntityId) (s : LifeState) (i : Nat) :
    (id.withLife s).bits.testBit i =
      if 22 ≤ i ∧ i < 24 then s.code.testBit (i - 22) else id.bits.testBit i := by
  rw [testBit_bits, testBit_bits id, raw_withLife, flags_withLife, life_withLife]
  rcases Nat.lt_or_ge i 22 with below | above
  · simp [below, Nat.not_le.mpr below]
  · have flags : ¬ i < 22 := Nat.not_lt.mpr above
    have raw : ¬ i < 20 := by omega
    rcases Nat.lt_or_ge i 24 with life | beyond
    · simp [above, life, flags, raw]
    · simp [Nat.not_lt.mpr beyond, flags, raw, testBit_code_of_beyond _ beyond]

theorem flags_eq (id : EntityId) :
    id.flags = (id.bits.testBit 20).toNat + 2 * (id.bits.testBit 21).toNat := by
  rw [Nat.toNat_testBit, Nat.toNat_testBit]
  simp only [flags, rawBound]
  omega

theorem code_eq (id : EntityId) :
    id.life.code = (id.bits.testBit 22).toNat + 2 * (id.bits.testBit 23).toNat := by
  have bound := id.bits_lt
  rw [Nat.toNat_testBit, Nat.toNat_testBit, life, LifeState.code_ofCode id.top_lt]
  simp only [idBound, rawBound] at bound ⊢
  omega

theorem testBit_ofBits (w : Word) (field : i < 24) :
    (ofBits w.toNat).bits.testBit i = w.getLsbD i := by
  have low : (ofBits w.toNat).bits.testBit i = (decide (i < 24) && w.toNat.testBit i) :=
    Nat.testBit_mod_two_pow w.toNat 24 i
  rw [low, decide_eq_true field, Bool.true_and, BitVec.testBit_toNat]

/-! ### The machine word of an id -/

theorem toNat_word (id : EntityId) : id.word.toNat = id.bits :=
  Nat.mod_eq_of_lt (Nat.lt_trans id.bits_lt (by decide))

theorem getLsbD_word (id : EntityId) (i : Nat) : id.word.getLsbD i = id.bits.testBit i := by
  rw [← BitVec.testBit_toNat, toNat_word]

theorem word_ofRaw (w : Word) : (ofRaw w.toNat).word = w.ofRaw := by
  rw [Word.ofRaw, BitField.and_mask]
  exact (BitVec.shiftLeft_zero _).symm

theorem word_ofBits (w : Word) : (ofBits w.toNat).word = w.ofBits := by
  have fields : Word.rawField.mask ||| Word.flagsField.mask ||| Word.lifeField.mask =
      (BitField.mk 0 24).mask := by decide
  rw [Word.ofBits, fields, BitField.and_mask]
  exact (BitVec.shiftLeft_zero _).symm

theorem word_withPriority (id : EntityId) (p : Priority) :
    (id.withPriority p).word = id.word.withPriority p := by
  refine BitVec.eq_of_getLsbD_eq fun i inside => ?_
  rw [Word.withPriority, BitField.getLsbD_put p.flags_lt inside, getLsbD_word, getLsbD_word,
    testBit_withPriority]
  rfl

theorem word_withLife (id : EntityId) (s : LifeState) :
    (id.withLife s).word = id.word.withLife s := by
  refine BitVec.eq_of_getLsbD_eq fun i inside => ?_
  rw [Word.withLife, BitField.getLsbD_put s.code_lt inside, getLsbD_word, getLsbD_word,
    testBit_withLife]
  rfl

theorem raw_word (id : EntityId) : id.word.raw.toNat = id.raw := by
  rw [Word.raw, BitVec.toNat_and, toNat_word]
  exact Nat.and_two_pow_sub_one_eq_mod id.bits 20

theorem flags_word (id : EntityId) :
    id.word &&& Word.flagsField.mask = Word.flagsField.place id.flags := by
  rw [BitField.and_mask, toNat_word, Nat.shiftRight_eq_div_pow]
  rfl

theorem code_word (id : EntityId) :
    id.word &&& Word.lifeField.mask = Word.lifeField.place id.life.code := by
  rw [BitField.and_mask, toNat_word, Nat.shiftRight_eq_div_pow, life, LifeState.code_ofCode id.top_lt]
  exact congrArg Word.lifeField.place (Nat.mod_eq_of_lt id.top_lt)

theorem priority_word (id : EntityId) : id.word.priority = id.priority := by
  have table : ∀ flags < 4, (if Word.flagsField.place flags = Word.flagsField.place 1 then .high
      else if Word.flagsField.place flags = Word.flagsField.place 2 then .low
      else .normal) = Priority.ofFlags flags := by decide
  rw [Word.priority, flags_word]
  exact table id.flags id.flags_lt

theorem life_word (id : EntityId) : id.word.life = id.life := by
  have top : (id.word >>> Word.lifeField.low &&& 3#32).toNat = id.bits / (4 * rawBound) % 4 := by
    rw [BitVec.toNat_and, BitVec.toNat_ushiftRight, toNat_word, Nat.shiftRight_eq_div_pow]
    exact Nat.and_two_pow_sub_one_eq_mod _ 2
  rw [Word.life, top, Nat.mod_eq_of_lt id.top_lt, life]

theorem lifeDiffers_word (a b : EntityId) : a.word.lifeDiffers b.word = a.lifeDiffers b := by
  have split : (a.word ^^^ b.word) &&& Word.lifeField.mask =
      Word.lifeField.place a.life.code ^^^ Word.lifeField.place b.life.code := by
    rw [← code_word, ← code_word]
    refine BitVec.eq_of_getLsbD_eq fun i _ => ?_
    simp only [BitVec.getLsbD_and, BitVec.getLsbD_xor, Bool.and_xor_distrib_right]
  rw [Word.lifeDiffers, split, lifeDiffers]
  cases a.life <;> cases b.life <;> decide

theorem transition_word (id : EntityId) (next : LifeState) :
    id.word.transition next = (id.transition next).map word := by
  rw [Word.transition, transition, life_word]
  split
  · rfl
  · split
    · rw [← word_withLife]
      rfl
    · rfl

end EntityWorld.EntityId
