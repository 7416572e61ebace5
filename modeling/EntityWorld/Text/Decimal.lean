/-!
# Decimal text with a fixed number of places

A floating-point number is a whole number times a power of two. Its text is the nearest decimal with
the places asked for, computed exactly; of two that are equally near, the one with the even last
digit.
-/
namespace EntityWorld.Text

/-- The whole number nearest to a quotient; a half goes to the even neighbour. -/
def nearest (num den : Nat) : Nat :=
  let low := num / den
  let rest := 2 * (num % den)
  if rest < den ∨ (rest = den ∧ low % 2 = 0) then low else low + 1

theorem nearest_bounds {num den : Nat} (positive : 0 < den) :
    2 * num ≤ 2 * (nearest num den * den) + den ∧ 2 * (nearest num den * den) ≤ 2 * num + den := by
  have parts := Nat.div_add_mod num den
  have commuted := Nat.mul_comm den (num / den)
  have rest := Nat.mod_lt num positive
  simp only [nearest]
  split
  · omega
  · rw [Nat.add_mul]; omega

/-- Fractions of a floating-point number lie below this bound. -/
def fractionBound : Nat := 0x10000000000000

/-- Whole number and power of two of a finite number that is not negative. -/
def significand (x : Float) : Nat × Int :=
  let bits := x.toBits.toNat
  let fraction := bits % fractionBound
  let exponent : Nat := bits / fractionBound % 2048
  if exponent = 0 then (fraction, -1074) else (fraction + fractionBound, (exponent : Int) - 1075)

/-- How often a unit of the last place goes into a number. -/
def scaled (places : Nat) (x : Float) : Nat :=
  match significand x with
  | (n, .ofNat e) => n * Nat.pow 10 places * Nat.pow 2 e
  | (n, .negSucc e) => nearest (n * Nat.pow 10 places) (Nat.pow 2 (e + 1))

/-- Puts the point before the last digits; there is at least one digit before it. -/
def pointed (places n : Nat) : String :=
  let last := toString (n % Nat.pow 10 places)
  toString (n / Nat.pow 10 places) ++ "." ++
    String.ofList (List.replicate (places - last.length) '0') ++ last

/-- The text of a number that is not negative, with this many places. -/
def fixed (places : Nat) (x : Float) : String := pointed places (scaled places x)

end EntityWorld.Text
