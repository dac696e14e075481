/-
# Magnitudes of binary64 numbers

A magnitude is a binary64 number without its sign. Magnitudes are numbered in
increasing order, and the number is kept as the `code`:

| code `c` | magnitude |
| --- | --- |
| `0` | zero |
| `1 … 2^52 - 1` | `c · 2^(-1074)` |
| `2^52 … 2047 · 2^52 - 1` | `(2^52 + c % 2^52) · 2^(c / 2^52 - 1075)` |
| `2047 · 2^52` | infinity |

The code is the number that the 64 bits of the magnitude spell: `2^52` is
`0x10000000000000`, one is `0x3FF0000000000000`, infinity `0x7FF0000000000000`.

Every finite magnitude is a whole number of units of `2^(-1074)`, so exact
arithmetic on them is arithmetic on `Nat`, and one rounding of a quotient of
naturals (`Magnitude.ofRatio`) serves every operation.
-/

namespace ModulePolicy

/-- The quotient `n / d` rounded to a natural number, a half going to the even
neighbour. -/
def roundHalfEven (n d : Nat) : Nat :=
  let q := n / d
  let r := 2 * (n % d)
  if r < d then q else if d < r then q + 1 else q + q % 2

/-- The power `10^k`. -/
def tenTo (k : Nat) : Nat := Nat.pow 10 k

/-- A binary64 number without its sign, by its place in the increasing order of
all of them. -/
structure Magnitude where
  code : Nat
  code_le : code ≤ 0x7FF0000000000000
deriving DecidableEq

namespace Magnitude

@[ext] theorem ext {x y : Magnitude} (h : x.code = y.code) : x = y := by
  cases x; cases y; cases h; rfl

/-- The magnitude with a given code, infinity if there is none. -/
def ofCode (c : Nat) : Magnitude := ⟨min c 0x7FF0000000000000, Nat.min_le_right _ _⟩

def zero : Magnitude := ofCode 0

def one : Magnitude := ofCode 0x3FF0000000000000

def infinity : Magnitude := ofCode 0x7FF0000000000000

def isFinite (x : Magnitude) : Bool := x.code < 0x7FF0000000000000

/-- How many units of `2^(-1074)` a finite magnitude holds. -/
def units (x : Magnitude) : Nat :=
  if x.code < 0x10000000000000 then x.code
  else
    (0x10000000000000 + x.code % 0x10000000000000) <<< (x.code / 0x10000000000000 - 1)

/-- How many units make one. -/
def unitsPerOne : Nat := 1 <<< 1074

/-- The magnitude nearest to `n / d`, a tie going to the even code; infinity
from half a step above the largest finite magnitude on.

With `2^k` units between neighbouring magnitudes at the place of `n / d`, the
rounded count of such steps and `k` make up the code: a count that rounds up to
`2^53` carries into the next `k` by itself. -/
def ofRatio (n d : Nat) : Magnitude :=
  let k := Nat.log2 (n * unitsPerOne / d) - 52
  ofCode (roundHalfEven (n * unitsPerOne) (d <<< k) + k * 0x10000000000000)

/-- The magnitude nearest to a natural number. -/
def ofNat (n : Nat) : Magnitude := ofRatio n 1

/-- The magnitude nearest to `digits · 10^exponent`. An exponent that leaves
the range of finite magnitudes is answered at once, so no power beyond the
range is built. -/
def ofDecimal (digits : Nat) (exponent : Int) : Magnitude :=
  if digits = 0 then zero
  else if 309 < exponent then infinity
  else if exponent < -(330 + (Nat.log2 digits : Int)) then zero
  else ofRatio (digits * tenTo exponent.toNat) (tenTo (-exponent).toNat)

/-- The rounded product of finite magnitudes. -/
def mul (x y : Magnitude) : Magnitude :=
  ofRatio (x.units * y.units) (unitsPerOne * unitsPerOne)

/-- The rounded quotient of finite magnitudes, the divisor not zero. -/
def div (x y : Magnitude) : Magnitude := ofRatio x.units y.units

/-- `1 - x`, rounded, for `x` at most one. -/
def complement (x : Magnitude) : Magnitude := ofRatio (unitsPerOne - x.units) unitsPerOne

/-- The greater of two magnitudes. -/
def max (x y : Magnitude) : Magnitude := if x.code ≤ y.code then y else x

end Magnitude

end ModulePolicy
