/-
# Decimal text of binary64 numbers

A decimal is a natural number of digits with a power of ten. Two ways lead from
a finite magnitude to a decimal:

| way | decimal chosen |
| --- | --- |
| `Magnitude.shortest` | the fewest digits that read back to the magnitude, the nearest of those |
| `Magnitude.toPlaces` | the nearest with a given number of places, a half going to the even digit |

Both are written positionally, however long that gets; no exponent is written.
-/

import ModulePolicy.Number.Binary64

namespace ModulePolicy

/-- The number `digits · 10^exponent`. -/
structure Decimal where
  digits : Nat
  exponent : Int
deriving DecidableEq

namespace Decimal

/-- The decimal digits of `n`, filled with zeros on the left to a least width. -/
def paddedDigits (width n : Nat) : List Char :=
  let ds := Nat.toDigits 10 n
  List.replicate (width - ds.length) '0' ++ ds

/-- How many places a decimal has after its point. -/
def places (x : Decimal) : Nat := (-x.exponent).toNat

/-- The whole part. -/
def whole (x : Decimal) : Nat := x.digits * tenTo x.exponent.toNat / tenTo x.places

/-- The digits after the point, all places of them. -/
def fraction (x : Decimal) : List Char :=
  if x.places = 0 then [] else paddedDigits x.places (x.digits % tenTo x.places)

/-- The digits after the point without the zeros that end them. -/
def trimmedFraction (x : Decimal) : List Char :=
  (x.fraction.reverse.dropWhile (· = '0')).reverse

end Decimal

namespace Magnitude

/-- The least `k` with `x < 10^k`, for a finite `x` above zero: `x · 10^324` is
at least one, and the length of its whole part tells. -/
def decimalScale (x : Magnitude) : Int :=
  (Nat.toDigits 10 (x.units * tenTo 324 / unitsPerOne)).length - 324

/-- `x / 10^e` rounded down. -/
def floorOnGrid (x : Magnitude) (e : Int) : Nat :=
  x.units * tenTo (-e).toNat / (unitsPerOne * tenTo e.toNat)

/-- Whether `x` lies nearer to `lo · 10^e` than to `(lo + 1) · 10^e`. -/
def nearerBelow (x : Magnitude) (lo : Nat) (e : Int) : Bool :=
  2 * x.units * tenTo (-e).toNat < (2 * lo + 1) * (unitsPerOne * tenTo e.toNat)

/-- The multiple of `10^e` that reads back to `x`, if one of the two beside `x`
does. Of two the nearer is taken, and of two equally near the greater. -/
def onGrid? (x : Magnitude) (e : Int) : Option Decimal :=
  let lo := x.floorOnGrid e
  let below := ofDecimal lo e = x
  let above := ofDecimal (lo + 1) e = x
  if below ∧ (¬ above ∨ x.nearerBelow lo e) then some ⟨lo, e⟩
  else if above then some ⟨lo + 1, e⟩
  else none

/-- A finite magnitude as a decimal without rounding: a unit is
`5^1074 · 10^(-1074)`. -/
def exactDecimal (x : Magnitude) : Decimal := ⟨x.units * Nat.pow 5 1074, -1074⟩

/-- The decimal with the fewest digits that reads back to a finite magnitude.
The grids of one, two, … digits are tried in turn. Seventeen digits are enough
for every magnitude; the exact decimal stands behind them. -/
def shortest (x : Magnitude) : Decimal :=
  if x = zero then ⟨0, 0⟩
  else
    let k := x.decimalScale
    ((List.range 17).findSome? fun (i : Nat) => x.onGrid? (k - 1 - (i : Int))).getD x.exactDecimal

/-- The decimal with the given number of places nearest to a finite magnitude. -/
def toPlaces (x : Magnitude) (places : Nat) : Decimal :=
  ⟨roundHalfEven (x.units * tenTo places) unitsPerOne, -(places : Int)⟩

end Magnitude

/-- What a notation for binary64 numbers leaves open: the text after a whole
number, and the name of not-a-number. -/
structure NumberNotation where
  afterWhole : String
  notANumber : String

namespace NumberNotation

/-- Numbers inside messages: `2`, `1.5`, `-0`, `NaN`, `inf`. -/
def plain : NumberNotation := ⟨"", "NaN"⟩

/-- Numbers in configuration files, where a whole number keeps a point: `2.0`,
`1.5`, `-0.0`, `nan`, `inf`. -/
def pointed : NumberNotation := ⟨".0", "nan"⟩

end NumberNotation

namespace Binary64

def sign (negative : Bool) : List Char := if negative then ['-'] else []

/-- The fewest digits that read back to the number, in a notation. -/
def render (style : NumberNotation) : Binary64 → String
  | nan => style.notANumber
  | signed negative x =>
    if x.isFinite then
      let d := x.shortest
      let fraction := d.trimmedFraction
      String.ofList (sign negative ++ Nat.toDigits 10 d.whole ++
        if fraction = [] then style.afterWhole.toList else '.' :: fraction)
    else String.ofList (sign negative ++ ['i', 'n', 'f'])

/-- The number with exactly the given places after the point. -/
def renderPlaces (places : Nat) : Binary64 → String
  | nan => NumberNotation.plain.notANumber
  | signed negative x =>
    if x.isFinite then
      let d := x.toPlaces places
      String.ofList (sign negative ++ Nat.toDigits 10 d.whole ++ '.' :: d.fraction)
    else String.ofList (sign negative ++ ['i', 'n', 'f'])

end Binary64

end ModulePolicy
