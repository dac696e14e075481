/-
# TOML documents

A document is a sequence of lines: blank ones, comments, headers and keys with
values. Reading takes the lines first (`Line`) and then puts the tree of tables
together; a document is refused as a whole if either fails.

Lines end with a line feed, after a carriage return or not. Dotted keys have
fewer than eighty parts, and arrays and inline tables lie in each other less
than eighty deep. A byte order mark at the start is skipped.
-/

import ModulePolicy.Toml.Quoted
import ModulePolicy.Toml.Table

namespace ModulePolicy.Toml

/-- Takes something off the front of a text, or refuses it. -/
abbrev Reader (α : Type) := StateT (List Char) Option α

/-- The bound on the parts of a key and on the depth of values. -/
def nestingLimit : Nat := 80

def skipBlanks : Reader Unit := fun s => some ((), s.dropWhile isBlank)

def expect (c : Char) : Reader Unit
  | d :: s => if d = c then some ((), s) else none
  | [] => none

/-- Takes the first character if it is the given one. -/
def takeIf (c : Char) : Reader Bool
  | d :: s => if d = c then some (true, s) else some (false, d :: s)
  | [] => some (false, [])

/-- The end of a line: blanks, perhaps a comment, and a newline or the end of
the text. -/
def lineEnd : Reader Unit := fun s =>
  let s := s.dropWhile isBlank
  let s :=
    match s with
    | '#' :: s => s.dropWhile isPlain
    | s => s
  match s with
  | [] => some ((), [])
  | '\n' :: s => some ((), s)
  | '\r' :: '\n' :: s => some ((), s)
  | _ => none

/-- Skips blanks, newlines and comments between the elements of an array; a
comment must end with a newline. -/
def skipFiller (inComment : Bool) : List Char → Option (List Char)
  | [] => if inComment then none else some []
  | '\r' :: '\n' :: s => skipFiller false s
  | c :: s =>
    if c = '\n' then skipFiller false s
    else if inComment then if isPlain c then skipFiller true s else none
    else if isBlank c then skipFiller false s
    else if c = '#' then skipFiller true s
    else some (c :: s)

def filler : Reader Unit := fun s => (skipFiller false s).map fun rest => ((), rest)

def isBareKeyChar (c : Char) : Bool := c.isAlphanum || c = '_' || c = '-'

/-- One part of a key: bare or quoted, on one line. -/
def simpleKey : Reader String := fun s =>
  match s with
  | '"' :: s => (basicText? s).map fun r => (String.ofList r.1, r.2)
  | '\'' :: s => (literalText? s).map fun r => (String.ofList r.1, r.2)
  | s =>
    let name := s.takeWhile isBareKeyChar
    if name = [] then none else some (String.ofList name, s.drop name.length)

/-- The parts of a key, with dots between them, as all but the last and the
last. Blanks may stand around each. -/
def keyParts : Nat → Reader (List String × String)
  | 0 => fun _ => none
  | n + 1 => do
    skipBlanks
    let part ← simpleKey
    skipBlanks
    if ← takeIf '.' then
      let (path, key) ← keyParts n
      pure (part :: path, key)
    else pure ([], part)

/-- A key of less than `nestingLimit` parts. -/
def key : Reader (List String × String) := keyParts (nestingLimit - 1)

/-- A value that is one word, or a date and a time with a blank between them. -/
def word : Reader Value := fun s =>
  let first := s.takeWhile isWordChar
  let rest := s.drop first.length
  let whole :=
    match rest with
    | ' ' :: c :: _ =>
      if isDate first && c.isDigit then
        first ++ ' ' :: (rest.drop 1).takeWhile isWordChar
      else first
    | _ => first
  (valueOfWord? whole).map fun v => (v, s.drop whole.length)

/-- A quoted text. -/
def text : Reader Value := fun s =>
  let rest? : Option (List Char) :=
    match s with
    | '"' :: '"' :: '"' :: s => afterBasicLines? s
    | '"' :: s => (basicText? s).map (·.2)
    | '\'' :: '\'' :: '\'' :: s => afterLiteralLines? s
    | '\'' :: s => (literalText? s).map (·.2)
    | _ => none
  rest?.map fun rest => (.text, rest)

/-- The rest of an array, from behind its bracket or a comma on. -/
def arrayRest (item : Reader Value) : Nat → Reader Unit
  | 0 => fun _ => none
  | n + 1 => do
    filler
    if ← takeIf ']' then pure ()
    else
      let _ ← item
      filler
      if ← takeIf ',' then arrayRest item n else expect ']'

/-- The keys and values of an inline table, from behind its brace or a comma
on, put into a table. -/
def inlineRest (item : Reader Value) : Nat → Table → Reader Unit
  | 0, _ => fun _ => none
  | n + 1, t => do
    let (path, name) ← key
    expect '='
    skipBlanks
    let v ← item
    skipBlanks
    match t.assign path name v with
    | none => failure
    | some t =>
      if ← takeIf ',' then inlineRest item n t else expect '\x7d'

/-- A value, given how the values inside of it are read, if there may be any. -/
def valueAround (inside : Option (Reader Value)) : Reader Value := do
  match ← get with
  | '"' :: _ => text
  | '\'' :: _ => text
  | '[' :: s =>
    match inside with
    | none => failure
    | some item => do
      set s
      arrayRest item (s.length + 1)
      pure .array
  | '\x7b' :: s =>
    match inside with
    | none => failure
    | some item => do
      set s
      skipBlanks
      if ← takeIf '\x7d' then pure .inlineTable
      else
        inlineRest item (s.length + 1) .root
        pure .inlineTable
  | _ => word

/-- A value with arrays and inline tables up to a depth. -/
def value : Nat → Reader Value
  | 0 => valueAround none
  | depth + 1 => valueAround (some (value depth))

/-- A line that adds to the tables. -/
inductive Line
  | assign (path : List String) (key : String) (v : Value)
  | table (path : List String) (key : String)
  | element (path : List String) (key : String)

/-- A header or a key with its value, to the end of its line. -/
def line : Reader Line := do
  match ← get with
  | '[' :: '[' :: s => do
    set s
    let (path, name) ← key
    expect ']'
    expect ']'
    lineEnd
    pure (.element path name)
  | '[' :: s => do
    set s
    let (path, name) ← key
    expect ']'
    lineEnd
    pure (.table path name)
  | _ => do
    let (path, name) ← key
    expect '='
    skipBlanks
    let v ← value (nestingLimit - 1)
    lineEnd
    pure (.assign path name v)

/-- All lines of a text; each takes a character at least. -/
def lines : Nat → Reader (List Line)
  | 0 => fun _ => none
  | n + 1 => do
    skipBlanks
    match ← get with
    | [] => pure []
    | '\n' :: _ => do lineEnd; lines n
    | '\r' :: _ => do lineEnd; lines n
    | '#' :: _ => do lineEnd; lines n
    | _ => do
      let first ← line
      let rest ← lines n
      pure (first :: rest)

/-- Adds lines to the tables of a document; `header` is the path of the table
that keys are set in. -/
def addLines (header : List String) : List Line → Table → Option Table
  | [], t => some t
  | .assign path name v :: rest, t =>
    match t.editAt false (Table.assign path name v) header with
    | some t => addLines header rest t
    | none => none
  | .table path name :: rest, t =>
    match t.openTable path name with
    | some t => addLines (path ++ [name]) rest t
    | none => none
  | .element path name :: rest, t =>
    match t.openElement path name with
    | some t => addLines (path ++ [name]) rest t
    | none => none

/-- The root table of a document. -/
def readDocument (document : String) : Option Table :=
  let s :=
    match document.toList with
    | '\uFEFF' :: s => s
    | s => s
  match lines (s.length + 1) s with
  | some (ls, _) => addLines [] ls .root
  | none => none

end ModulePolicy.Toml
