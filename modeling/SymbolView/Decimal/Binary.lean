/-!
# Binary floating-point words

A floating-point number is kept as the word that stores it.  Apart from its sign, a finite word `n`
of a format stands for the value `format.ulps n / 2 ^ format.scale`, where the numerator is exact;
larger words stand for larger values, so the neighbours of a value are those of its word.

Powers are written `Nat.pow`, which is the same function whatever else is imported: the instance
that `^` stands for depends on it.
-/

set_option autoImplicit false

namespace SymbolView
namespace Decimal

/-- A format in which an exponent field stands above a fraction field. -/
structure BinaryFormat where
  /-- The width of the fraction field. -/
  fractionBits : Nat
  /-- The width of the exponent field. -/
  exponentBits : Nat

namespace BinaryFormat

/-- The 32-bit interchange format. -/
def binary32 : BinaryFormat := ⟨23, 8⟩

/-- The 64-bit interchange format. -/
def binary64 : BinaryFormat := ⟨52, 11⟩

variable (format : BinaryFormat)

/-- The word without its sign bit. -/
def magnitude (word : Nat) : Nat := word % Nat.pow 2 (format.fractionBits + format.exponentBits)

/-- Whether the sign bit of the word is set. -/
def isNegative (word : Nat) : Bool :=
  word / Nat.pow 2 (format.fractionBits + format.exponentBits) % 2 == 1

/-- The magnitude of the infinities: the exponent field is full, the fraction field empty. -/
def infinity : Nat := (Nat.pow 2 format.exponentBits - 1) * Nat.pow 2 format.fractionBits

/-- Values are whole multiples of `1 / 2 ^ scale`. -/
def scale : Nat := Nat.pow 2 (format.exponentBits - 1) - 2 + format.fractionBits

/-- The value of a magnitude, as a multiple of `1 / 2 ^ scale`.  Where the exponent field is zero
the fraction stands for itself, elsewhere it follows a leading one. -/
def ulps (n : Nat) : Nat :=
  let fraction := n % Nat.pow 2 format.fractionBits
  match n / Nat.pow 2 format.fractionBits with
  | 0 => fraction
  | e + 1 => (Nat.pow 2 format.fractionBits + fraction) * Nat.pow 2 e

end BinaryFormat
end Decimal
end SymbolView
