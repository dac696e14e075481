/-
# Formats of JSON values

A codec reads and writes the values of one type. Records are read from an
object, with the fields in any order, or from a list of the fields in their
order, and are written as an object.

| rule for records | reading |
| --- | --- |
| a key that no field has | its value is skipped |
| the key of a field a second time | `mismatched`, at the key |
| a required field that is missing | `mismatched`, at the end of the record |
| a list longer than the fields | `malformed` |

Writing uses no blanks, and a field may be left out where its value is what the
record holds without it.
-/

import ModulePolicy.Json.Skipped

namespace ModulePolicy.Json

structure Codec (α : Type) where
  read : Reader α
  write : α → List Char

/-- The fault of a value of the wrong type. -/
def mismatch {α : Type} : Reader α := do
  match ← get with
  | [] => throw .incomplete
  | 'n' :: s => do set s; readWord ['u', 'l', 'l']; throw .mismatched
  | 't' :: s => do set s; readWord ['r', 'u', 'e']; throw .mismatched
  | 'f' :: s => do set s; readWord ['a', 'l', 's', 'e']; throw .mismatched
  | '"' :: s => do set s; let _ ← readQuoted; throw .mismatched
  | '[' :: _ => throw .mismatched
  | '{' :: _ => throw .mismatched
  | c :: _ =>
    if c = '-' || c.isDigit then do let _ ← readNumeralValue; throw .mismatched
    else throw .malformed

def readText : Reader String := do
  skipBlanks
  match ← get with
  | '"' :: s => do set s; readQuoted
  | _ => mismatch

/-- `null`, or a text. -/
def readOptionalText : Reader (Option String) := do
  skipBlanks
  match ← get with
  | 'n' :: s => do set s; readWord ['u', 'l', 'l']; pure none
  | _ => some <$> readText

def readBool : Reader Bool := do
  skipBlanks
  match ← get with
  | 't' :: s => do set s; readWord ['r', 'u', 'e']; pure true
  | 'f' :: s => do set s; readWord ['a', 'l', 's', 'e']; pure false
  | _ => mismatch

/-- A numeral, whatever its value. -/
def readNumber : Reader NumeralValue := do
  skipBlanks
  match ← get with
  | c :: _ => if c = '-' || c.isDigit then readNumeralValue else mismatch
  | [] => throw .incomplete

/-- A natural number of 64 bits. -/
def readNatural : Reader Nat := do
  match ← readNumber with
  | .natural n => pure n
  | _ => throw .mismatched

/-- A binary64 number; whole numbers are rounded to one. -/
def readBinary64 : Reader Binary64 := do
  match ← readNumber with
  | .natural n => pure (.signed false (.ofNat n))
  | .negative n => pure (.signed true (.ofNat n))
  | .decimal x => pure x

/-- The elements of a list, each of which takes a character at least. -/
def readElements {α : Type} (item : Reader α) : Nat → Bool → Reader (List α)
  | 0, _ => throw .incomplete
  | n + 1, first => do
    if ← nextElement first then
      let a ← item
      let as ← readElements item n false
      pure (a :: as)
    else pure []

def readList {α : Type} (item : Reader α) : Reader (List α) := do
  skipBlanks
  match ← get with
  | '[' :: s => do set s; readElements item (s.length + 1) true
  | _ => mismatch

def joinCommas : List (List Char) → List Char
  | [] => []
  | [x] => x
  | x :: y :: rest => x ++ ',' :: joinCommas (y :: rest)

def writeList {α : Type} (item : α → List Char) (as : List α) : List Char :=
  '[' :: (joinCommas (as.map item) ++ [']'])

namespace Codec

def text : Codec String := ⟨readText, quote⟩

def list {α : Type} (item : Codec α) : Codec (List α) := ⟨readList item.read, writeList item.write⟩

/-- One of some names: written as a text, read from it or from an object with
the name as its only key and the value `null`. -/
def choice {α : Type} (name : α → String) (all : List α) : Codec α where
  write a := quote (name a)
  read := do
    let named (s : String) : Reader α :=
      match all.find? (name · = s) with
      | some a => pure a
      | none => throw .mismatched
    skipBlanks
    match ← get with
    | [] => throw .incomplete
    | '"' :: s => do set s; named (← readQuoted)
    | '{' :: s => do
      set s
      let a ← named (← readText)
      expect ':'
      skipBlanks
      match ← get with
      | 'n' :: s => do set s; readWord ['u', 'l', 'l']
      | _ => mismatch
      expect '}'
      pure a
    | _ => throw .malformed

end Codec

/-- How one field of a record is read: `read r` reads its value into `r`. -/
structure FieldReader (ρ : Type) where
  name : String
  required : Bool
  read : ρ → Reader ρ

/-- A field that is also written, or left out. -/
structure RecordField (ρ : Type) extends FieldReader ρ where
  write? : ρ → Option (List Char)

/-- Reads the entries of an object into a record. Answers it with the names of
the fields that were there. -/
def readEntries {ρ : Type} (fields : List (FieldReader ρ)) :
    Nat → Bool → List String → ρ → Reader (List String × ρ)
  | 0, _, _, _ => throw .incomplete
  | n + 1, first, seen, r => do
    if ← nextKey first then
      let key ← readText
      match fields.find? (·.name = key) with
      | none => do
        expect ':'
        skipValue
        readEntries fields n false seen r
      | some field =>
        if seen.contains key then throw .mismatched
        else do
          expect ':'
          let r ← field.read r
          readEntries fields n false (key :: seen) r
    else pure (seen, r)

/-- Reads the elements of a list into the fields of a record, in their order. -/
def readInOrder {ρ : Type} : List (FieldReader ρ) → Bool → List String → ρ →
    Reader (List String × ρ)
  | [], _, seen, r => do
    expect ']'
    pure (seen, r)
  | field :: fields, first, seen, r => do
    if ← nextElement first then
      let r ← field.read r
      readInOrder fields false (field.name :: seen) r
    else pure (seen, r)

/-- Reads a record, from what it is without any field. -/
def readRecord {ρ : Type} (fields : List (FieldReader ρ)) (blank : ρ) : Reader ρ := do
  skipBlanks
  let (seen, r) ←
    match ← get with
    | '[' :: s => do set s; readInOrder fields true [] blank
    | '{' :: s => do set s; readEntries fields (s.length + 1) true [] blank
    | _ => mismatch
  if fields.all fun f => !f.required || seen.contains f.name then pure r else throw .mismatched

def writeRecord {ρ : Type} (fields : List (RecordField ρ)) (r : ρ) : List Char :=
  let written := fields.filterMap fun f => (f.write? r).map fun v => quote f.name ++ ':' :: v
  '{' :: (joinCommas written ++ ['}'])

namespace RecordField

/-- A field that is always written. -/
def always {ρ α : Type} (name : String) (codec : Codec α) (get : ρ → α) (put : ρ → α → ρ)
    (required : Bool := false) : RecordField ρ where
  name
  required
  read r := put r <$> codec.read
  write? r := some (codec.write (get r))

/-- A text that may be missing; it is left out then. -/
def optional {ρ : Type} (name : String) (get : ρ → Option String)
    (put : ρ → Option String → ρ) : RecordField ρ where
  name
  required := false
  read r := put r <$> readOptionalText
  write? r := (get r).map quote

/-- A list that is left out where it is empty. -/
def unlessEmpty {ρ α : Type} (name : String) (item : Codec α) (get : ρ → List α)
    (put : ρ → List α → ρ) : RecordField ρ where
  name
  required := false
  read r := put r <$> (Codec.list item).read
  write? r := if (get r).isEmpty then none else some (writeList item.write (get r))

end RecordField

/-- Records with the given fields, missing ones as in `blank`. -/
def Codec.record {ρ : Type} (fields : List (RecordField ρ)) (blank : ρ) : Codec ρ :=
  ⟨readRecord (fields.map (·.toFieldReader)) blank, writeRecord fields⟩

end ModulePolicy.Json
