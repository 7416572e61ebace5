import EntityWorld.Fault
import EntityWorld.Total

/-!
# Durations

Lengths of time, in nanoseconds. Seconds live in a machine word, so there is a longest duration;
sums past it are faults.
-/
namespace EntityWorld

structure Duration where
  nanos : Nat
  deriving DecidableEq, Repr

namespace Duration

def zero : Duration := ⟨0⟩

instance : Inhabited Duration := ⟨zero⟩

def nanosPerSecond : Nat := 1000000000

def ofSeconds (seconds : Nat) (nanos : Nat := 0) : Duration := ⟨seconds * nanosPerSecond + nanos⟩

def ofMicros (micros : Nat) : Duration := ⟨micros * 1000⟩

def ofMillis (millis : Nat) : Duration := ⟨millis * 1000000⟩

def seconds (d : Duration) : Nat := d.nanos / nanosPerSecond

/-- What is left after the whole seconds. -/
def subsecondNanos (d : Duration) : Nat := d.nanos % nanosPerSecond

def micros (d : Duration) : Nat := d.nanos / 1000

/-- Whole microseconds, as many as a machine word can hold. -/
def microsWord (d : Duration) : Nat := min d.micros (wordBound - 1)

def sum (ds : List Duration) : Except Fault Duration :=
  let whole : Duration := ⟨total (ds.map nanos)⟩
  if whole.seconds < wordBound then .ok whole else .error .outOfRange

end Duration

end EntityWorld
