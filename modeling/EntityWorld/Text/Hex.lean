/-!
# Hexadecimal text

Numbers with a fixed number of lower-case digits, and bytes with two digits each. Reading takes
digits of either half-byte in turn and passes over a half-byte that has no partner.
-/
namespace EntityWorld.Text

/-- The digits of a number, filled up with zeros to a width. -/
def hexDigits (width n : Nat) : List Char :=
  let digits := Nat.toDigits 16 n
  List.replicate (width - digits.length) '0' ++ digits

def hexNumber (width n : Nat) : String := String.ofList (hexDigits width n)

def hexBytes (bytes : List UInt8) : String :=
  String.ofList (bytes.flatMap fun b => hexDigits 2 b.toNat)

/-- The value of a lower-case digit. -/
def hexValue (c : Char) : Nat := if c.isDigit then c.toNat - '0'.toNat else c.toNat - 'a'.toNat + 10

def bytesOfDigits : List Char → List UInt8
  | high :: low :: rest => UInt8.ofNat (16 * hexValue high + hexValue low) :: bytesOfDigits rest
  | _ => []

def bytesOfHex (s : String) : List UInt8 := bytesOfDigits s.toList

/-- A byte reads back from its two digits, whatever follows. -/
theorem bytesOfDigits_hexDigits (b : UInt8) (rest : List Char) :
    bytesOfDigits (hexDigits 2 b.toNat ++ rest) = b :: bytesOfDigits rest := by
  have table : ∀ n : Fin 256, (hexDigits 2 n.val).length = 2 ∧
      bytesOfDigits (hexDigits 2 n.val) = [UInt8.ofNat n.val] := by
    decide +kernel
  obtain ⟨two, value⟩ := table ⟨b.toNat, b.toNat_lt⟩
  match digits : hexDigits 2 b.toNat, two with
  | [high, low], _ =>
    rw [digits] at value
    simpa [bytesOfDigits] using value

theorem bytesOfHex_hexBytes (bytes : List UInt8) : bytesOfHex (hexBytes bytes) = bytes := by
  simp only [bytesOfHex, hexBytes, String.toList_ofList]
  induction bytes with
  | nil => rfl
  | cons b rest ih => rw [List.flatMap_cons, bytesOfDigits_hexDigits, ih]

end EntityWorld.Text
