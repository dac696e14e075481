/-
# Numerals in JSON

A numeral is a sign, whole digits without a leading zero, and perhaps fraction
digits and an exponent. Its value is

| form | value |
| --- | --- |
| whole digits within 64 bits | a natural number |
| the same with a sign, from `-1` to `-2^63` | an integer |
| anything else, `-0` included | a binary64 number |

A binary64 number is made from a significand of 64 bits, which takes the digits
of each part as long as they fit, and one multiplication or division by a power
of ten; both steps round. A value beyond the finite numbers is malformed.
-/

import ModulePolicy.Json.Reader
import ModulePolicy.Number.Binary64

namespace ModulePolicy.Json

/-- A numeral by its parts; the digits stand as written. -/
structure Numeral where
  negative : Bool
  whole : List Char
  fraction : Option (List Char)
  exponent : Option (Bool × List Char)

/-- All digits at the front. -/
def takeDigits : Reader (List Char) := fun s =>
  .ok (s.takeWhile Char.isDigit, s.dropWhile Char.isDigit)

/-- One digit or more. At the end of the text `atEnd` is raised. -/
def readDigits (atEnd : Fault) : Reader (List Char) := do
  match ← get with
  | [] => throw atEnd
  | c :: _ => if c.isDigit then takeDigits else throw .malformed

/-- Digits without a leading zero. -/
def readWhole (atEnd : Fault) : Reader (List Char) := do
  let digits ← readDigits atEnd
  match digits with
  | '0' :: _ :: _ => throw .malformed
  | _ => pure digits

def readFraction (atEnd : Fault) : Reader (Option (List Char)) := do
  match ← takeOneOf ['.'] with
  | some _ => return some (← readDigits atEnd)
  | none => return none

def readExponent (atEnd : Fault) : Reader (Option (Bool × List Char)) := do
  match ← takeOneOf ['e', 'E'] with
  | some _ =>
    let sign ← takeOneOf ['+', '-']
    return some (sign = some '-', ← readDigits atEnd)
  | none => return none

/-- A numeral. Where the text ends inside it, `atEnd` is raised. -/
def readNumeral (atEnd : Fault) : Reader Numeral := do
  let sign ← takeOneOf ['-']
  let whole ← readWhole atEnd
  let fraction ← readFraction atEnd
  let exponent ← readExponent atEnd
  pure ⟨sign.isSome, whole, fraction, exponent⟩

inductive NumeralValue
  | natural (n : Nat)
  | negative (n : Nat)
  | decimal (x : Binary64)
deriving DecidableEq

namespace Numeral

def digitValue (c : Char) : Nat := c.toNat - '0'.toNat

/-- Takes digits into a significand as long as it fits into 64 bits. Also
answers the digits that are left. -/
def absorb : Nat → List Char → Nat × List Char
  | n, [] => (n, [])
  | n, c :: cs =>
    let next := 10 * n + digitValue c
    if next < 0x10000000000000000 then absorb next cs else (n, c :: cs)

/-- Division by a power of ten, by `10^308` at a time as long as the power is
beyond the finite numbers. -/
def divideByPower (x : Magnitude) (e : Nat) : Magnitude :=
  if x = .zero then x
  else if e ≤ 308 then x.div (.ofDecimal 1 e)
  else divideByPower (x.div (.ofDecimal 1 308)) (e - 308)
termination_by e

/-- A significand times a power of ten; nothing beyond the finite numbers. -/
def scale? (significand : Nat) (e : Int) : Option Magnitude :=
  let x := Magnitude.ofNat significand
  if 0 ≤ e then
    if x = .zero then some x
    else if 308 < e then none
    else
      let scaled := x.mul (.ofDecimal 1 e)
      if scaled.isFinite then some scaled else none
  else some (divideByPower x (-e).toNat)

/-- The binary64 value of a numeral, if it is within range. -/
def decimal? (x : Numeral) : Option Binary64 :=
  let (significand, dropped) := absorb 0 x.whole
  let fraction := x.fraction.getD []
  let (significand, left) := absorb significand fraction
  let places : Int := (dropped.length : Int) - (fraction.length - left.length : Nat)
  let magnitude? :=
    match x.exponent with
    | none => scale? significand places
    | some (negative, digits) =>
      let e := Nat.ofDigitChars 10 digits 0
      if 0x80000000 ≤ e then if significand = 0 ∨ negative then some .zero else none
      else scale? significand (places + if negative then -(e : Int) else e)
  magnitude?.map (.signed x.negative)

/-- The value of a numeral, if it is within range. -/
def value? (x : Numeral) : Option NumeralValue :=
  let n := Nat.ofDigitChars 10 x.whole 0
  if x.fraction.isNone ∧ x.exponent.isNone ∧ n < 0x10000000000000000 ∧ ¬ x.negative then
    some (.natural n)
  else if x.fraction.isNone ∧ x.exponent.isNone ∧ x.negative ∧ 0 < n ∧ n ≤ 0x8000000000000000 then
    some (.negative n)
  else x.decimal?.map .decimal

end Numeral

/-- The value of a numeral. -/
def readNumeralValue : Reader NumeralValue := do
  match (← readNumeral .incomplete).value? with
  | some value => pure value
  | none => throw .malformed

end ModulePolicy.Json
