/-
# Quoted text in TOML documents

| form | may hold |
| --- | --- |
| `"…"` | escapes, one line |
| `'…'` | no escapes, one line |
| three quotes on each side | the same over several lines, and up to two quotes in a row |

Escapes are `\b`, `\t`, `\n`, `\f`, `\r`, `\"`, `\\`, `\uXXXX` and
`\UXXXXXXXX`, the last two for scalar values only. Over several lines a
backslash may also end a line. Control characters other than tabs are refused.
-/

import ModulePolicy.Toml.Scalar

namespace ModulePolicy.Toml

def isBlank (c : Char) : Bool := c = ' ' || c = '\t'

/-- The characters of comments and literal texts: no controls but the tab. -/
def isPlain (c : Char) : Bool := c = '\t' || 0x20 ≤ c.toNat && c.toNat ≠ 0x7F

def simpleEscape? : Char → Option Char
  | 'b' => some '\x08'
  | 't' => some '\t'
  | 'n' => some '\n'
  | 'f' => some '\x0c'
  | 'r' => some '\r'
  | '"' => some '"'
  | '\\' => some '\\'
  | _ => none

/-- The character with the number that hexadecimal digits write. -/
def scalarValue? (digits : List Char) : Option Char :=
  let n := ofDigits 16 digits
  if digits.all isHexDigit && (n < 0xD800 || 0xE000 ≤ n && n < 0x110000) then some (Char.ofNat n)
  else none

/-- A text on one line from behind its opening quote on, with what follows the
closing one. -/
def basicText? : List Char → Option (List Char × List Char)
  | [] => none
  | '"' :: s => some ([], s)
  | '\\' :: 'u' :: a :: b :: c :: d :: s =>
    match scalarValue? [a, b, c, d] with
    | some x => (basicText? s).map fun r => (x :: r.1, r.2)
    | none => none
  | '\\' :: 'U' :: a :: b :: c :: d :: e :: f :: g :: h :: s =>
    match scalarValue? [a, b, c, d, e, f, g, h] with
    | some x => (basicText? s).map fun r => (x :: r.1, r.2)
    | none => none
  | '\\' :: c :: s =>
    match simpleEscape? c with
    | some x => (basicText? s).map fun r => (x :: r.1, r.2)
    | none => none
  | c :: s => if isPlain c then (basicText? s).map fun r => (c :: r.1, r.2) else none

/-- A literal text on one line from behind its opening quote on. -/
def literalText? (s : List Char) : Option (List Char × List Char) :=
  let content := s.takeWhile fun c => isPlain c && c ≠ '\''
  match s.drop content.length with
  | '\'' :: rest => some (content, rest)
  | _ => none

/-- Whether a line ends here. -/
def startsNewline : List Char → Bool
  | '\n' :: _ => true
  | '\r' :: '\n' :: _ => true
  | _ => false

/-- What follows a text over several lines, from behind its opening quotes on. -/
def afterBasicLines? : List Char → Option (List Char)
  | [] => none
  | '"' :: '"' :: '"' :: '"' :: '"' :: s => some s
  | '"' :: '"' :: '"' :: '"' :: s => some s
  | '"' :: '"' :: '"' :: s => some s
  | '\\' :: 'u' :: a :: b :: c :: d :: s =>
    if (scalarValue? [a, b, c, d]).isSome then afterBasicLines? s else none
  | '\\' :: 'U' :: a :: b :: c :: d :: e :: f :: g :: h :: s =>
    if (scalarValue? [a, b, c, d, e, f, g, h]).isSome then afterBasicLines? s else none
  | '\\' :: c :: s =>
    if (simpleEscape? c).isSome then afterBasicLines? s
    else if startsNewline ((c :: s).dropWhile isBlank) then afterBasicLines? (c :: s)
    else none
  | '\r' :: '\n' :: s => afterBasicLines? s
  | c :: s => if isPlain c || c = '\n' then afterBasicLines? s else none

/-- What follows a literal text over several lines. -/
def afterLiteralLines? : List Char → Option (List Char)
  | [] => none
  | '\'' :: '\'' :: '\'' :: '\'' :: '\'' :: s => some s
  | '\'' :: '\'' :: '\'' :: '\'' :: s => some s
  | '\'' :: '\'' :: '\'' :: s => some s
  | '\r' :: '\n' :: s => afterLiteralLines? s
  | c :: s => if isPlain c || c = '\n' then afterLiteralLines? s else none

end ModulePolicy.Toml
