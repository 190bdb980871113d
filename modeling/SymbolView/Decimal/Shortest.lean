import SymbolView.Decimal.Binary

/-!
# The shortest decimal that reads back

A binary floating-point number stands for the interval of reals that round to it.  `shortest` finds
the coarsest decimal grid that has a point in the interval, and on it the point nearest to the
value; of two that are equally near it takes the larger.

If a grid has a point in the interval at all, one of the two grid points around the value is in it,
so only those two are tried.  All arithmetic is exact, on natural numbers.
-/

set_option autoImplicit false

namespace SymbolView
namespace Decimal

/-- A positive value and the interval of reals that round to it, all over one denominator. -/
structure Target where
  /-- The numerator of the value. -/
  value : Nat
  /-- The numerator of the lower end. -/
  low : Nat
  /-- The numerator of the upper end. -/
  high : Nat
  /-- The denominator of all three. -/
  denominator : Nat
  /-- Whether the ends belong to the interval. -/
  closed : Bool

/-- The interval of a finite magnitude above zero ends half-way to its neighbours; the ends round to
the word that is even. -/
def BinaryFormat.target (format : BinaryFormat) (n : Nat) : Target where
  value := 2 * format.ulps n
  low := format.ulps (n - 1) + format.ulps n
  high := format.ulps n + format.ulps (n + 1)
  denominator := Nat.pow 2 (format.scale + 1)
  closed := n % 2 == 0

/-- A number `digits * 10 ^ exponent`. -/
structure Scaled where
  /-- The digits, read as one number. -/
  digits : Nat
  /-- The power of ten. -/
  exponent : Int

namespace Target

variable (t : Target)

/-- What the numerators of the interval are multiplied by to compare them on the grid
`10 ^ exponent`. -/
def raise (exponent : Int) (numerator : Nat) : Nat := numerator * Nat.pow 10 (-exponent).toNat

/-- A grid point over the same denominator. -/
def gridPoint (exponent : Int) (digits : Nat) : Nat :=
  digits * Nat.pow 10 exponent.toNat * t.denominator

/-- Whether a grid point is in the interval. -/
def admits (exponent : Int) (digits : Nat) : Bool :=
  let point := t.gridPoint exponent digits
  let low := raise exponent t.low
  let high := raise exponent t.high
  if t.closed then low ≤ point && point ≤ high else low < point && point < high

/-- The grid point at or below the value. -/
def floor (exponent : Int) : Nat :=
  raise exponent t.value / (Nat.pow 10 exponent.toNat * t.denominator)

/-- Whether the value is nearer to the grid point at or below it than to the next one. -/
def isNearerBelow (exponent : Int) : Bool :=
  2 * raise exponent t.value <
    t.gridPoint exponent (t.floor exponent) + t.gridPoint exponent (t.floor exponent + 1)

/-- The nearest point of a grid that is in the interval, if there is one. -/
def nearest? (exponent : Int) : Option Scaled :=
  let below := t.floor exponent
  match t.admits exponent below, t.admits exponent (below + 1) with
  | true, true => some ⟨if t.isNearerBelow exponent then below else below + 1, exponent⟩
  | true, false => some ⟨below, exponent⟩
  | false, true => some ⟨below + 1, exponent⟩
  | false, false => none

/-- The exponent `k` for which the value is at least `10 ^ (k - 1)` and below `10 ^ k`. -/
def magnitude : Int :=
  let shift := (Nat.toDigits 10 t.denominator).length
  (Nat.toDigits 10 (t.value * Nat.pow 10 shift / t.denominator)).length - shift

/-- No two numbers of the formats in use agree in more digits than this. -/
def maxDigits : Nat := 17

/-- The nearest point of the coarsest grid with a point in the interval. -/
def shortest : Scaled :=
  ((List.range maxDigits).findSome? fun i ↦ t.nearest? (t.magnitude - (i + 1 : Nat))).getD
    ⟨t.value, 0⟩

end Target
end Decimal
end SymbolView
