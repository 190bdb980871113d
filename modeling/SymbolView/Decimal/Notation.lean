import SymbolView.Decimal.Shortest

/-!
# Writing floating-point numbers

`floatText` writes a floating-point word with the fewest digits that read back.  Zero and magnitudes
from one thousandth up to, but not including, ten million are written positionally, others with an
exponent; at least one digit stands on either side of the point.
-/

set_option autoImplicit false

namespace SymbolView
namespace Decimal

/-- A decimal `0.d₁d₂… * 10 ^ point` whose last digit is not zero. -/
structure Digits where
  /-- The digits, first to last. -/
  digits : List Char
  /-- The place of the point, counted from the front of the digits. -/
  point : Int

/-- The digits of a number without the zeros at the end. -/
def Scaled.normalize (s : Scaled) : Digits :=
  let all := Nat.toDigits 10 s.digits
  ⟨(all.reverse.dropWhile (· == '0')).reverse, s.exponent + all.length⟩

/-- The digits, or a single zero if there are none. -/
def orZero : List Char → List Char
  | [] => ['0']
  | ds => ds

namespace Digits

variable (d : Digits)

/-- Digits on both sides of the point, without an exponent. -/
def positional : String :=
  let places := d.point.toNat
  let whole := d.digits.take places ++ List.replicate (places - d.digits.length) '0'
  let fraction := List.replicate (-d.point).toNat '0' ++ d.digits.drop places
  String.ofList (orZero whole ++ '.' :: orZero fraction)

/-- One digit before the point, and the exponent after an `E`. -/
def scientific : String :=
  String.ofList (d.digits.take 1 ++ '.' :: orZero (d.digits.drop 1)) ++ "E" ++ (d.point - 1).repr

end Digits

/-- Whether a magnitude is written without an exponent. -/
def Target.isPositional (t : Target) : Bool :=
  t.denominator ≤ 1000 * t.value && t.value < 10000000 * t.denominator

/-- A magnitude above zero. -/
def Target.text (t : Target) : String :=
  let digits := t.shortest.normalize
  if t.isPositional then digits.positional else digits.scientific

/-- A floating-point word as text. -/
def floatText (format : BinaryFormat) (word : Nat) : String :=
  let n := format.magnitude word
  if format.infinity < n then "NaN"
  else
    (if format.isNegative word then "-" else "")
      ++ if n = format.infinity then "Infinity"
        else if n = 0 then "0.0"
        else (format.target n).text

end Decimal
end SymbolView
