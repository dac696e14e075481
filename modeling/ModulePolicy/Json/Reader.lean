/-
# Reading JSON text

A reader takes one thing off the front of a text. It stops at the first fault,
which is of one of three kinds:

| fault | the text |
| --- | --- |
| `incomplete` | ends inside a value |
| `malformed` | is no JSON, or goes on after the value |
| `mismatched` | is JSON so far, but not what was to be read |

A value of the wrong type is `mismatched` once its first character is read, or
the whole of it for numbers, strings and literal names; so a fault inside one of
these comes first.
-/

namespace ModulePolicy.Json

inductive Fault
  | incomplete
  | malformed
  | mismatched
deriving DecidableEq

/-- Takes a value off the front of a text, or stops at a fault. -/
abbrev Reader (α : Type) := StateT (List Char) (Except Fault) α

def isBlank (c : Char) : Bool := c = ' ' || c = '\t' || c = '\n' || c = '\r'

def skipBlanks : Reader Unit := fun s => .ok ((), s.dropWhile isBlank)

/-- Takes exactly the characters of a word. -/
def readWord : List Char → Reader Unit
  | [], s => .ok ((), s)
  | _ :: _, [] => .error .incomplete
  | w :: word, c :: s => if c = w then readWord word s else .error .malformed

/-- Takes the first character if it is one of the given ones. -/
def takeOneOf (cs : List Char) : Reader (Option Char)
  | [] => .ok (none, [])
  | d :: s => if cs.contains d then .ok (some d, s) else .ok (none, d :: s)

/-- The next element of a list: whether there is one. The bracket that ends the
list is taken, and the comma before an element that is not the first. -/
def nextElement (first : Bool) : Reader Bool := do
  skipBlanks
  match ← get with
  | [] => throw .incomplete
  | ']' :: s => do set s; pure false
  | ',' :: s =>
    if first then pure true
    else do
      set s
      skipBlanks
      match ← get with
      | [] => throw .incomplete
      | ']' :: _ => throw .malformed
      | _ => pure true
  | _ => if first then pure true else throw .malformed

/-- The next key of an object: whether there is one. The brace that ends the
object is taken, and the comma before a key that is not the first; the key
itself is left, at its quote. -/
def nextKey (first : Bool) : Reader Bool := do
  skipBlanks
  match ← get with
  | [] => throw .incomplete
  | '}' :: s => do set s; pure false
  | ',' :: s =>
    if first then throw .malformed
    else do
      set s
      skipBlanks
      match ← get with
      | [] => throw .incomplete
      | '"' :: _ => pure true
      | _ => throw .malformed
  | '"' :: _ => if first then pure true else throw .malformed
  | _ => throw .malformed

/-- The given character after blanks. -/
def expect (c : Char) : Reader Unit := do
  skipBlanks
  match ← get with
  | [] => throw .incomplete
  | d :: s => if d = c then set s else throw .malformed

/-- Runs a reader on a whole text; nothing but blanks may follow the value. -/
def readAll {α : Type} (reader : Reader α) (text : String) : Except Fault α :=
  match reader text.toList with
  | .error fault => .error fault
  | .ok (a, rest) => if rest.all isBlank then .ok a else .error .malformed

end ModulePolicy.Json
