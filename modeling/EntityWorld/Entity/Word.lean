import EntityWorld.Entity.Id

/-!
# Entity ids in machine words

`EntityId` says what the fields of an id are. Here an id is a machine word of 32 bits whose fields are
read with masks and shifts, and a field is written by clearing its bits and setting the new ones. The
eight bits above the life state are reserved.
-/
namespace EntityWorld

abbrev Word := BitVec 32

/-- Bits of a word that lie side by side. -/
structure BitField where
  low : Nat
  width : Nat
  deriving DecidableEq, Repr

namespace BitField

variable (f : BitField)

def mask : Word := BitVec.ofNat 32 (((1 <<< f.width) - 1) <<< f.low)

/-- A value, moved to where the field is. -/
def place (value : Nat) : Word := BitVec.ofNat 32 value <<< f.low

def put (w : Word) (value : Nat) : Word := (w &&& ~~~f.mask) ||| f.place value

end BitField

namespace Word

def rawField : BitField := ⟨0, 20⟩

def flagsField : BitField := ⟨20, 2⟩

def lifeField : BitField := ⟨22, 2⟩

example : rawField.mask = 0xFFFFF#32 ∧ flagsField.mask = 0x300000#32 ∧ lifeField.mask = 0xC00000#32 := by
  decide

def ofRaw (w : Word) : Word := w &&& rawField.mask

def ofBits (w : Word) : Word := w &&& (rawField.mask ||| flagsField.mask ||| lifeField.mask)

def raw (w : Word) : Word := w &&& rawField.mask

def priority (w : Word) : Priority :=
  if w &&& flagsField.mask = flagsField.place Priority.high.flags then .high
  else if w &&& flagsField.mask = flagsField.place Priority.low.flags then .low
  else .normal

def life (w : Word) : LifeState := .ofCode ((w >>> lifeField.low) &&& 3#32).toNat

def withPriority (w : Word) (p : Priority) : Word := flagsField.put w p.flags

def withLife (w : Word) (s : LifeState) : Word := lifeField.put w s.code

def lifeDiffers (a b : Word) : Bool := ((a ^^^ b) &&& lifeField.mask) != 0#32

def transition (w : Word) (next : LifeState) : Except IllegalTransition Word :=
  if w.life = next then .ok w
  else if w.life.canBecome next then .ok (w.withLife next)
  else .error ⟨w.life, next⟩

end Word

/-- The machine word of an id. -/
def EntityId.word (id : EntityId) : Word := BitVec.ofNat 32 id.bits

/-! ### Bit by bit -/

namespace BitField

variable {f : BitField} {w : Word} {value i : Nat}

theorem getLsbD_mask (inside : i < 32) :
    f.mask.getLsbD i = decide (f.low ≤ i ∧ i < f.low + f.width) := by
  simp only [mask, BitVec.getLsbD_ofNat, Nat.testBit_shiftLeft, Nat.one_shiftLeft,
    Nat.testBit_two_pow_sub_one, inside, decide_true, Bool.true_and]
  rw [Bool.eq_iff_iff]
  simp only [Bool.and_eq_true, decide_eq_true_eq]
  omega

theorem getLsbD_place (inside : i < 32) :
    (f.place value).getLsbD i = (decide (f.low ≤ i) && value.testBit (i - f.low)) := by
  have within : i - f.low < 32 := Nat.lt_of_le_of_lt (Nat.sub_le i f.low) inside
  simp only [place, BitVec.getLsbD_shiftLeft, BitVec.getLsbD_ofNat, inside, within, decide_true,
    Bool.true_and, ← Nat.not_le, decide_not, Bool.not_not]

/-- A value that fits into the field has no bits beyond it. -/
theorem testBit_of_beyond (fits : value < 1 <<< f.width) (beyond : f.low + f.width ≤ i) :
    value.testBit (i - f.low) = false := by
  rw [Nat.one_shiftLeft] at fits
  refine Nat.testBit_lt_two_pow (Nat.lt_of_lt_of_le fits ?_)
  exact Nat.pow_le_pow_right (by decide) (by omega)

/-- Inside the field are the bits of the new value, and everywhere else the old ones. -/
theorem getLsbD_put (fits : value < 1 <<< f.width) (inside : i < 32) :
    (f.put w value).getLsbD i =
      if f.low ≤ i ∧ i < f.low + f.width then value.testBit (i - f.low) else w.getLsbD i := by
  rw [put, BitVec.getLsbD_or, BitVec.getLsbD_and, BitVec.getLsbD_not, getLsbD_mask inside,
    getLsbD_place inside, decide_eq_true inside]
  by_cases low : f.low ≤ i
  · by_cases high : i < f.low + f.width
    · simp [low, high]
    · simp [low, high, testBit_of_beyond fits (Nat.le_of_not_lt high)]
  · simp [low]

/-- A mask leaves the field's value at its place. -/
theorem and_mask : w &&& f.mask = f.place ((w.toNat >>> f.low) % (1 <<< f.width)) := by
  refine BitVec.eq_of_getLsbD_eq fun i inside => ?_
  rw [BitVec.getLsbD_and, getLsbD_mask inside, getLsbD_place inside, Nat.one_shiftLeft,
    Nat.testBit_mod_two_pow, Nat.testBit_shiftRight]
  by_cases low : f.low ≤ i
  · have width : i - f.low < f.width ↔ i < f.low + f.width := by omega
    rw [Nat.add_sub_cancel' low, BitVec.testBit_toNat]
    simp [low, width, Bool.and_comm]
  · simp [low]

end BitField

end EntityWorld
