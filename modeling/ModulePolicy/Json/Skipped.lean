/-
# Skipped values

The value of a key that nobody asked for is read past. It must still be JSON,
but more is let through than for a value that is wanted:

| part | liberty |
| --- | --- |
| numerals | any size |
| texts | halves of surrogate pairs |
| lists and objects | nested without limit |

The open lists and objects are kept on a stack, innermost first.
-/

import ModulePolicy.Json.Numeral
import ModulePolicy.Json.Quoted

namespace ModulePolicy.Json

/-- An escape from behind the backslash on, whatever character it is. -/
def skipEscape : List Char → Except Fault (List Char)
  | [] => .error .incomplete
  | 'u' :: s =>
    match readHex4 s with
    | .error fault => .error fault
    | .ok (_, rest) => .ok rest
  | c :: s => if (simpleEscape? c).isSome then .ok s else .error .malformed

theorem skipEscape_length {s rest : List Char} (h : skipEscape s = .ok rest) :
    rest.length < s.length := by
  unfold skipEscape at h
  split at h
  · cases h
  · split at h
    · cases h
    · rename_i hv
      cases h
      exact Nat.lt_succ_of_lt (readHex4_length hv)
  · split at h
    · cases h; simp
    · cases h

/-- A text from behind its opening quote on. -/
def skipQuoted (s : List Char) : Except Fault (List Char) :=
  match s with
  | [] => .error .incomplete
  | '"' :: s => .ok s
  | '\\' :: s =>
    match h : skipEscape s with
    | .error fault => .error fault
    | .ok s' =>
      have := skipEscape_length h
      skipQuoted s'
  | c :: s => if c.toNat < 0x20 then .error .malformed else skipQuoted s
termination_by s.length

inductive Container
  | list
  | object
deriving DecidableEq

namespace Container

def close : Container → Char
  | list => ']'
  | object => '}'

end Container

/-- Where the reading past a value stands: before a value, or inside the
innermost container before an element or its end. -/
inductive SkipState
  | value
  | inside (first : Bool)
deriving DecidableEq

/-- A value that is no container. -/
def skipScalar : Reader Unit := fun s =>
  match s with
  | 'n' :: s => readWord ['u', 'l', 'l'] s
  | 't' :: s => readWord ['r', 'u', 'e'] s
  | 'f' :: s => readWord ['a', 'l', 's', 'e'] s
  | '"' :: s => (skipQuoted s).map fun rest => ((), rest)
  | c :: s =>
    if c = '-' || c.isDigit then (readNumeral .malformed (c :: s)).map fun r => ((), r.2)
    else .error .malformed
  | [] => .error .incomplete

/-- The key of an object's element and the colon behind it. -/
def skipKey : Reader Unit := do
  expect '"'
  let s ← get
  match skipQuoted s with
  | .error fault => throw fault
  | .ok rest =>
    set rest
    expect ':'

/-- What has to come before the next value in a container. -/
def enter : Container → Reader Unit
  | .list => pure ()
  | .object => skipKey

/-- One step of reading past a value, with the open containers. The answer is
`none` once the outermost value has ended. -/
def skipStep (state : SkipState) (stack : List Container) :
    Reader (Option (SkipState × List Container)) := do
  skipBlanks
  match state, stack with
  | .value, _ =>
    match ← get with
    | '[' :: s => do set s; pure (some (.inside true, .list :: stack))
    | '{' :: s => do set s; pure (some (.inside true, .object :: stack))
    | _ => do
      skipScalar
      pure (if stack.isEmpty then none else some (.inside false, stack))
  | .inside _, [] => pure none
  | .inside first, top :: outer =>
    match ← get with
    | [] => throw .incomplete
    | c :: s =>
      if c = top.close then do
        set s
        pure (if outer.isEmpty then none else some (.inside false, outer))
      else if first then do
        enter top
        pure (some (.value, stack))
      else if c = ',' then do
        set s
        enter top
        pure (some (.value, stack))
      else throw .malformed

/-- Steps until the outermost value has ended. Each value takes characters, and
between two values lies one step, so twice the length of the text is enough. -/
def skipSteps : Nat → SkipState → List Container → Reader Unit
  | 0, _, _ => throw .incomplete
  | n + 1, state, stack => do
    match ← skipStep state stack with
    | none => pure ()
    | some (state, stack) => skipSteps n state stack

/-- Reads past a value. -/
def skipValue : Reader Unit := fun s => skipSteps (2 * s.length + 2) .value [] s

end ModulePolicy.Json
