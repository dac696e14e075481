/-
# Binary64 numbers

A binary64 number is a sign with a magnitude, or is not a number. All values
that are not numbers count as one.

| relation | zero against negative zero | not-a-number |
| --- | --- | --- |
| `x = y` | different | equal to itself |
| `x.numericallyEq y` | equal | unequal to everything |
| `x.le y` | both ways | never |
-/

import ModulePolicy.Number.Magnitude

namespace ModulePolicy

inductive Binary64
  | nan
  | signed (negative : Bool) (magnitude : Magnitude)
deriving DecidableEq

namespace Binary64

/-- A magnitude as a number that is not negative. -/
def ofMagnitude (x : Magnitude) : Binary64 := .signed false x

def zero : Binary64 := ofMagnitude .zero

def one : Binary64 := ofMagnitude .one

/-- The number nearest to `digits · 10^exponent`, with a sign. -/
def ofDecimal (negative : Bool) (digits : Nat) (exponent : Int) : Binary64 :=
  .signed negative (.ofDecimal digits exponent)

/-- The 64 bits of the number as a natural number, absent for not-a-number. -/
def bits? : Binary64 → Option Nat
  | nan => none
  | signed negative x => some (x.code + if negative then 0x8000000000000000 else 0)

/-- Place in the numeric order, where both zeros stand at `0`. -/
def rank? : Binary64 → Option Int
  | nan => none
  | signed false x => some x.code
  | signed true x => some (-x.code)

def le (x y : Binary64) : Bool :=
  match x.rank?, y.rank? with
  | some i, some j => i ≤ j
  | _, _ => false

def lt (x y : Binary64) : Bool :=
  match x.rank?, y.rank? with
  | some i, some j => i < j
  | _, _ => false

/-- Equality of the numbers meant: the two zeros are equal, and not-a-number
is equal to nothing. -/
def numericallyEq (x y : Binary64) : Bool :=
  match x.rank?, y.rank? with
  | some i, some j => i = j
  | _, _ => false

/-- Not-a-number becomes zero, what lies below `0` zero and what lies above `1`
one; negative zero stays. -/
def clampToUnit (x : Binary64) : Binary64 :=
  if x = nan then zero
  else if x.lt zero then zero
  else if one.lt x then one
  else x

end Binary64

end ModulePolicy
