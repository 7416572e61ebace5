import EntityWorld.Text.Inspect

/-!
# Entity ids

An entity is one word of 24 bits. The low 20 bits are its raw id, which never changes; two bits
flag its priority and the top two code its life state.

```text
 23 22 21 20 19                    0
+-----+--+--+-----------------------+
| life|lo|hi|        raw id         |
+-----+--+--+-----------------------+
```

Raw id 0 belongs to no entity. Each field is written without touching the others: `raw_withLife`
and its companions below are all that other modules use.
-/
namespace EntityWorld

/-- Raw ids lie below this bound. -/
abbrev rawBound : Nat := 0x100000

/-- Ids lie below this bound. -/
abbrev idBound : Nat := 0x1000000

inductive Priority where
  | high
  | normal
  | low
  deriving DecidableEq, Repr

namespace Priority

/-- The two flag bits: high is the lower one. -/
def flags : Priority → Nat
  | .normal => 0
  | .high => 1
  | .low => 2

/-- No flag and both flags are read as normal. -/
def ofFlags : Nat → Priority
  | 1 => .high
  | 2 => .low
  | _ => .normal

def text : Priority → String
  | .high => "High"
  | .normal => "Normal"
  | .low => "Low"

def ofText? (s : String) : Option Priority := [high, normal, low].find? fun p => p.text == s

theorem ofFlags_flags (p : Priority) : ofFlags p.flags = p := by
  cases p <;> rfl

theorem flags_lt (p : Priority) : p.flags < 4 := by
  cases p <;> decide

end Priority

/-- Where an entity is in its life. -/
inductive LifeState where
  -- Created this frame, not yet visible as alive.
  | register
  | alive
  -- Destroy requested, still readable.
  | unregister
  -- Swept from its collection at the next commit.
  | destroyed
  deriving DecidableEq, Repr

namespace LifeState

def code : LifeState → Nat
  | .register => 0
  | .alive => 1
  | .unregister => 2
  | .destroyed => 3

def ofCode : Nat → LifeState
  | 0 => .register
  | 1 => .alive
  | 2 => .unregister
  | _ => .destroyed

def text : LifeState → String
  | .register => "Register"
  | .alive => "Alive"
  | .unregister => "Unregister"
  | .destroyed => "Destroyed"

def ofText? (s : String) : Option LifeState :=
  [register, alive, unregister, destroyed].find? fun state => state.text == s

/-- The legal forward steps. Staying in a state is not a step. -/
def canBecome : LifeState → LifeState → Bool
  | .register, .alive => true
  | .register, .unregister => true
  | .alive, .unregister => true
  | .unregister, .destroyed => true
  | _, _ => false

theorem ofCode_code (s : LifeState) : ofCode s.code = s := by
  cases s <;> rfl

theorem code_ofCode {n : Nat} (bound : n < 4) : (ofCode n).code = n := by
  match n with
  | 0 | 1 | 2 | 3 => rfl

theorem code_lt (s : LifeState) : s.code < 4 := by
  cases s <;> decide

end LifeState

structure IllegalTransition where
  source : LifeState
  target : LifeState
  deriving DecidableEq, Repr

/-- Bit-packed identity and bookkeeping of an entity. -/
structure EntityId where
  bits : Nat
  bits_lt : bits < idBound
  deriving DecidableEq, Repr

namespace EntityId

/-- The id with the given fields; each is cut to its width. -/
def pack (raw flags life : Nat) : EntityId :=
  ⟨raw % rawBound + rawBound * (flags % 4) + 4 * rawBound * (life % 4), by
    simp only [rawBound, idBound]; omega⟩

def null : EntityId := pack 0 0 0

/-- A fresh id with this raw id; bits above the raw id are discarded. -/
def ofRaw (raw : Nat) : EntityId := pack raw 0 0

/-- Reads a whole word; bits above the life state are discarded. -/
def ofBits (word : Nat) : EntityId := ⟨word % idBound, Nat.mod_lt _ (by decide)⟩

def raw (id : EntityId) : Nat := id.bits % rawBound

/-- The two priority bits as they stand. -/
def flags (id : EntityId) : Nat := id.bits / rawBound % 4

def priority (id : EntityId) : Priority := Priority.ofFlags id.flags

def life (id : EntityId) : LifeState := LifeState.ofCode (id.bits / (4 * rawBound))

def isNull (id : EntityId) : Bool := id.raw == 0

def withPriority (id : EntityId) (p : Priority) : EntityId := pack id.raw p.flags id.life.code

def withLife (id : EntityId) (s : LifeState) : EntityId := pack id.raw id.flags s.code

def lifeDiffers (a b : EntityId) : Bool := a.life != b.life

/-- Checked life-state change. Moving to the current state succeeds without change. -/
def transition (id : EntityId) (next : LifeState) : Except IllegalTransition EntityId :=
  if id.life = next then .ok id
  else if id.life.canBecome next then .ok (id.withLife next)
  else .error ⟨id.life, next⟩

/-- Ids are ordered as words. -/
instance : Ord EntityId where
  compare a b := compare a.bits b.bits

def text (id : EntityId) : String :=
  "#" ++ toString id.raw ++ "[" ++ id.priority.text ++ "/" ++ id.life.text ++ "]"

def inspect (id : EntityId) : String :=
  Text.inspectRecord "EntityId"
    [("raw", toString id.raw), ("priority", id.priority.text), ("life", id.life.text)]

instance : Inhabited EntityId := ⟨null⟩

instance : ToString EntityId := ⟨text⟩

/-! ### Fields -/

theorem ext_bits {a b : EntityId} (same : a.bits = b.bits) : a = b := by
  cases a; cases b; simp_all

theorem bits_pack (raw flags life : Nat) :
    (pack raw flags life).bits = raw % rawBound + rawBound * (flags % 4) + 4 * rawBound * (life % 4) :=
  rfl

theorem raw_lt (id : EntityId) : id.raw < rawBound := Nat.mod_lt _ (by decide)

theorem flags_lt (id : EntityId) : id.flags < 4 := Nat.mod_lt _ (by decide)

@[simp] theorem raw_pack (raw flags life : Nat) : (pack raw flags life).raw = raw % rawBound := by
  simp only [EntityId.raw, bits_pack, rawBound]; omega

@[simp] theorem flags_pack (raw flags life : Nat) : (pack raw flags life).flags = flags % 4 := by
  simp only [EntityId.flags, bits_pack, rawBound]; omega

@[simp] theorem life_pack (raw flags life : Nat) :
    (pack raw flags life).life = LifeState.ofCode (life % 4) := by
  simp only [EntityId.life, bits_pack, rawBound]; congr 1; omega

/-- An id is what its three fields say. -/
theorem pack_fields (id : EntityId) : pack id.raw id.flags id.life.code = id := by
  apply ext_bits
  have bound := id.bits_lt
  simp only [idBound] at bound
  have high : id.bits / (4 * rawBound) < 4 := by simp only [rawBound]; omega
  simp only [bits_pack, EntityId.raw, EntityId.flags, EntityId.life, LifeState.code_ofCode high]
  simp only [rawBound]
  omega

theorem ext_fields {a b : EntityId} (sameRaw : a.raw = b.raw) (sameFlags : a.flags = b.flags)
    (sameLife : a.life = b.life) : a = b := by
  rw [← pack_fields a, ← pack_fields b, sameRaw, sameFlags, sameLife]

@[simp] theorem raw_ofRaw (raw : Nat) : (ofRaw raw).raw = raw % rawBound := raw_pack _ _ _

theorem raw_ofRaw_of_lt {raw : Nat} (bound : raw < rawBound) : (ofRaw raw).raw = raw := by
  rw [raw_ofRaw, Nat.mod_eq_of_lt bound]

@[simp] theorem life_ofRaw (raw : Nat) : (ofRaw raw).life = .register := life_pack _ _ _

@[simp] theorem flags_ofRaw (raw : Nat) : (ofRaw raw).flags = 0 := flags_pack _ _ _

@[simp] theorem raw_withLife (id : EntityId) (s : LifeState) : (id.withLife s).raw = id.raw := by
  rw [withLife, raw_pack, Nat.mod_eq_of_lt id.raw_lt]

@[simp] theorem flags_withLife (id : EntityId) (s : LifeState) : (id.withLife s).flags = id.flags := by
  rw [withLife, flags_pack, Nat.mod_eq_of_lt id.flags_lt]

@[simp] theorem life_withLife (id : EntityId) (s : LifeState) : (id.withLife s).life = s := by
  rw [withLife, life_pack, Nat.mod_eq_of_lt s.code_lt, LifeState.ofCode_code]

@[simp] theorem raw_withPriority (id : EntityId) (p : Priority) : (id.withPriority p).raw = id.raw := by
  rw [withPriority, raw_pack, Nat.mod_eq_of_lt id.raw_lt]

@[simp] theorem flags_withPriority (id : EntityId) (p : Priority) :
    (id.withPriority p).flags = p.flags := by
  rw [withPriority, flags_pack, Nat.mod_eq_of_lt p.flags_lt]

@[simp] theorem life_withPriority (id : EntityId) (p : Priority) :
    (id.withPriority p).life = id.life := by
  rw [withPriority, life_pack, Nat.mod_eq_of_lt id.life.code_lt, LifeState.ofCode_code]

@[simp] theorem priority_withPriority (id : EntityId) (p : Priority) :
    (id.withPriority p).priority = p := by
  rw [priority, flags_withPriority, Priority.ofFlags_flags]

theorem priority_withLife (id : EntityId) (s : LifeState) :
    (id.withLife s).priority = id.priority := by
  rw [priority, priority, flags_withLife]

end EntityId

end EntityWorld
