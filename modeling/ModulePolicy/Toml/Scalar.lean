/-
# Values in TOML documents

Of a value only what a setting can be is kept:

| value | kept |
| --- | --- |
| boolean, integer, float | the value |
| text, date or time, array, inline table | that it is one |

A boolean, a number or a date is written as one word, the longest run of
characters that such words consist of; the word as a whole must be one of them.
Only between a date and a time may stand a blank.
-/

import ModulePolicy.Number.Binary64

namespace ModulePolicy.Toml

inductive Value
  | boolean (b : Bool)
  | integer (i : Int)
  | float (x : Binary64)
  | text
  | dateTime
  | array
  | inlineTable
deriving DecidableEq

/-- The characters of words. -/
def isWordChar (c : Char) : Bool := c.isAlphanum || ['+', '-', '_', '.', ':'].contains c

/-- Digits with single underscores between them. -/
def groupedDigits? (isDigit : Char → Bool) : List Char → Option (List Char)
  | [] => none
  | [c] => if isDigit c then some [c] else none
  | c :: '_' :: cs => if isDigit c then (groupedDigits? isDigit cs).map (c :: ·) else none
  | c :: d :: cs => if isDigit c then (groupedDigits? isDigit (d :: cs)).map (c :: ·) else none

/-- Decimal digits without a leading zero. -/
def wholeDigits? (cs : List Char) : Option (List Char) :=
  match groupedDigits? Char.isDigit cs with
  | some ('0' :: _ :: _) => none
  | digits? => digits?

/-- A sign, if there is one, and what follows. -/
def splitSign : List Char → Bool × List Char
  | '+' :: cs => (false, cs)
  | '-' :: cs => (true, cs)
  | cs => (false, cs)

def hexDigitValue (c : Char) : Nat :=
  if c.isDigit then c.toNat - '0'.toNat else c.toLower.toNat - 'a'.toNat + 10

def isHexDigit (c : Char) : Bool := c.isDigit || 'a' ≤ c.toLower && c.toLower ≤ 'f'

/-- The number that digits write to a base. -/
def ofDigits (base : Nat) (digits : List Char) : Nat :=
  digits.foldl (fun n c => base * n + hexDigitValue c) 0

/-- Digits to a base of two, eight or sixteen. -/
def basedInteger? (base : Nat) (cs : List Char) : Option Int :=
  (groupedDigits? (fun c => isHexDigit c && hexDigitValue c < base) cs).map fun ds =>
    (ofDigits base ds : Int)

/-- An integer of any size. -/
def unboundedInteger? : List Char → Option Int
  | '0' :: 'x' :: cs => basedInteger? 16 cs
  | '0' :: 'o' :: cs => basedInteger? 8 cs
  | '0' :: 'b' :: cs => basedInteger? 2 cs
  | cs =>
    let (negative, cs) := splitSign cs
    (wholeDigits? cs).map fun ds =>
      let n : Int := Nat.ofDigitChars 10 ds 0
      if negative then -n else n

/-- An integer of 64 bits. -/
def integer? (cs : List Char) : Option Int :=
  match unboundedInteger? cs with
  | some i => if -0x8000000000000000 ≤ i ∧ i < 0x8000000000000000 then some i else none
  | none => none

def isExponentMark (c : Char) : Bool := c = 'e' || c = 'E'

/-- The digits behind the point of a float, up to its exponent. -/
def fraction? (cs : List Char) : Option (List Char) :=
  match cs with
  | '.' :: cs => groupedDigits? Char.isDigit (cs.takeWhile fun c => !isExponentMark c)
  | _ => some []

/-- The exponent of a float. -/
def exponent? (cs : List Char) : Option Int :=
  match cs with
  | _ :: cs =>
    let (negative, cs) := splitSign cs
    (groupedDigits? Char.isDigit cs).map fun ds =>
      let n : Int := Nat.ofDigitChars 10 ds 0
      if negative then -n else n
  | [] => some 0

/-- A decimal with a fraction or an exponent. One that rounds to positive
infinity is refused. -/
def decimal? (cs : List Char) : Option Binary64 :=
  let (negative, cs) := splitSign cs
  let whole := cs.takeWhile fun c => !(c = '.' || isExponentMark c)
  let rest := cs.drop whole.length
  if rest = [] then none
  else
    let exponent := rest.dropWhile fun c => !isExponentMark c
    match wholeDigits? whole, fraction? rest, exponent? exponent with
    | some ds, some fs, some e =>
      let x := Magnitude.ofDecimal (Nat.ofDigitChars 10 (ds ++ fs) 0) (e - fs.length)
      if x.isFinite || negative then some (.signed negative x) else none
    | _, _, _ => none

def float? (cs : List Char) : Option Binary64 :=
  match splitSign cs with
  | (negative, ['i', 'n', 'f']) => some (.signed negative .infinity)
  | (_, ['n', 'a', 'n']) => some .nan
  | _ => decimal? cs

/-- The number of two digits. -/
def twoDigits? (a b : Char) : Option Nat :=
  if a.isDigit && b.isDigit then some (Nat.ofDigitChars 10 [a, b] 0) else none

def isLeapYear (year : Nat) : Bool := year % 4 = 0 && (year % 100 ≠ 0 || year % 400 = 0)

def daysInMonth (year month : Nat) : Nat :=
  if month = 2 then if isLeapYear year then 29 else 28
  else if [4, 6, 9, 11].contains month then 30
  else 31

/-- A day of the calendar, as `YYYY-MM-DD`. -/
def isDate : List Char → Bool
  | [a, b, c, d, '-', e, f, '-', g, h] =>
    match twoDigits? a b, twoDigits? c d, twoDigits? e f, twoDigits? g h with
    | some century, some year, some month, some day =>
      1 ≤ month && month ≤ 12 && 1 ≤ day && day ≤ daysInMonth (100 * century + year) month
    | _, _, _, _ => false
  | _ => false

def isHourMinute (a b c d : Char) : Bool :=
  match twoDigits? a b, twoDigits? c d with
  | some hour, some minute => hour ≤ 23 && minute ≤ 59
  | _, _ => false

/-- Takes a time of day, as `hh:mm:ss` with any fraction of a second. The
sixtieth second is one that leaps. -/
def takeTime? : List Char → Option (List Char)
  | a :: b :: ':' :: c :: d :: ':' :: e :: f :: cs =>
    match twoDigits? e f with
    | some second =>
      if isHourMinute a b c d && second ≤ 60 then
        match cs with
        | '.' :: cs =>
          if (cs.takeWhile Char.isDigit).isEmpty then none else some (cs.dropWhile Char.isDigit)
        | _ => some cs
      else none
    | none => none
  | _ => none

/-- Nothing, `Z`, or an offset as `+hh:mm`. -/
def isOffset : List Char → Bool
  | [] => true
  | [c] => c = 'Z' || c = 'z'
  | [sign, a, b, ':', c, d] => (sign = '+' || sign = '-') && isHourMinute a b c d
  | _ => false

/-- A time on its own, or what may follow a date. -/
def isTime (withOffset : Bool) (cs : List Char) : Bool :=
  match takeTime? cs with
  | some rest => rest.isEmpty || withOffset && isOffset rest
  | none => false

def isDateTime (cs : List Char) : Bool :=
  isTime false cs || isDate (cs.take 10) &&
    match cs.drop 10 with
    | [] => true
    | c :: time => ['T', 't', ' '].contains c && isTime true time

/-- The value that a word writes. -/
def valueOfWord? (cs : List Char) : Option Value :=
  if cs = ['t', 'r', 'u', 'e'] then some (.boolean true)
  else if cs = ['f', 'a', 'l', 's', 'e'] then some (.boolean false)
  else
    match integer? cs, float? cs with
    | some i, _ => some (.integer i)
    | none, some x => some (.float x)
    | none, none => if isDateTime cs then some .dateTime else none

end ModulePolicy.Toml
