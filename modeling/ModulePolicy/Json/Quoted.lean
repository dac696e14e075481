/-
# Quoted text in JSON

Writing escapes the quote, the backslash and the control characters below
U+0020, and nothing else. Reading takes every escape:

| escape | character |
| --- | --- |
| `\"` `\\` `\/` | itself |
| `\b` `\f` `\n` `\r` `\t` | U+0008, U+000C, U+000A, U+000D, U+0009 |
| `\uXXXX` | the UTF-16 unit; two of them for a surrogate pair |

A control character must be escaped, and a surrogate must be half of a pair. An
escape `\u` with less than four bytes of text behind it counts as cut off.
-/

import ModulePolicy.Json.Reader

namespace ModulePolicy.Json

/-- The two last digits of a control character's escape. -/
def hexDigits (n : Nat) : List Char := [Nat.digitChar (n / 16), Nat.digitChar (n % 16)]

def escapeChar (c : Char) : List Char :=
  if c = '"' then ['\\', '"']
  else if c = '\\' then ['\\', '\\']
  else if c = '\x08' then ['\\', 'b']
  else if c = '\t' then ['\\', 't']
  else if c = '\n' then ['\\', 'n']
  else if c = '\x0c' then ['\\', 'f']
  else if c = '\r' then ['\\', 'r']
  else if c.toNat < 0x20 then ['\\', 'u', '0', '0'] ++ hexDigits c.toNat
  else [c]

/-- A text in quotes. -/
def quote (s : String) : List Char := '"' :: (s.toList.flatMap escapeChar ++ ['"'])

def simpleEscape? : Char → Option Char
  | '"' => some '"'
  | '\\' => some '\\'
  | '/' => some '/'
  | 'b' => some '\x08'
  | 'f' => some '\x0c'
  | 'n' => some '\n'
  | 'r' => some '\r'
  | 't' => some '\t'
  | _ => none

def hexValue? (c : Char) : Option Nat :=
  if '0' ≤ c ∧ c ≤ '9' then some (c.toNat - '0'.toNat)
  else if 'a' ≤ c ∧ c ≤ 'f' then some (c.toNat - 'a'.toNat + 10)
  else if 'A' ≤ c ∧ c ≤ 'F' then some (c.toNat - 'A'.toNat + 10)
  else none

/-- The number that hexadecimal digits write. -/
def hexNumber? (digits : List Char) : Option Nat :=
  digits.foldl (fun n c => return 16 * (← n) + (← hexValue? c)) (some 0)

/-- Four hexadecimal digits. -/
def readHex4 : Reader Nat
  | a :: b :: c :: d :: s =>
    match hexNumber? [a, b, c, d] with
    | some n => .ok (n, s)
    | none => .error .malformed
  | s => if 4 ≤ (String.ofList s).utf8ByteSize then .error .malformed else .error .incomplete

/-- The scalar value of a surrogate pair. -/
def pairValue (high low : Nat) : Nat := 0x10000 + (high - 0xD800) * 0x400 + (low - 0xDC00)

/-- The second half of a surrogate pair, an escape of its own. -/
def readLowSurrogate (high : Nat) : Reader Char := do
  readWord ['\\', 'u']
  let low ← readHex4
  if 0xDC00 ≤ low ∧ low ≤ 0xDFFF then pure (Char.ofNat (pairValue high low)) else throw .malformed

/-- The character of an escape, from behind the backslash on. -/
def readEscape : Reader Char
  | [] => .error .incomplete
  | 'u' :: s => (do
      let n ← readHex4
      if 0xD800 ≤ n ∧ n ≤ 0xDBFF then readLowSurrogate n
      else if 0xDC00 ≤ n ∧ n ≤ 0xDFFF then throw .malformed
      else pure (Char.ofNat n) : Reader Char) s
  | c :: s =>
    match simpleEscape? c with
    | some d => .ok (d, s)
    | none => .error .malformed

theorem readHex4_length {s rest : List Char} {n : Nat} (h : readHex4 s = .ok (n, rest)) :
    rest.length < s.length := by
  unfold readHex4 at h
  split at h
  · split at h
    · cases h; simp only [List.length_cons]; omega
    · cases h
  · split at h <;> cases h

theorem readWord_length {word s rest : List Char} {u : Unit}
    (h : readWord word s = .ok (u, rest)) : rest.length ≤ s.length := by
  induction word generalizing s with
  | nil => simp only [readWord, Except.ok.injEq, Prod.mk.injEq] at h; simp [h.2]
  | cons w word ih =>
    cases s with
    | nil => simp [readWord] at h
    | cons c s =>
      simp only [readWord] at h
      split at h
      · exact Nat.le_succ_of_le (ih h)
      · cases h

theorem readLowSurrogate_length {high : Nat} {s rest : List Char} {c : Char}
    (h : readLowSurrogate high s = .ok (c, rest)) : rest.length < s.length := by
  simp only [readLowSurrogate, bind, StateT.bind, Except.bind] at h
  split at h
  · cases h
  · rename_i w hw
    split at h
    · cases h
    · rename_i v hv
      split at h
      · obtain ⟨-, rfl⟩ := Prod.mk.inj (Except.ok.inj h)
        exact Nat.lt_of_lt_of_le (readHex4_length hv) (readWord_length hw)
      · cases h

theorem readEscape_length {s rest : List Char} {c : Char} (h : readEscape s = .ok (c, rest)) :
    rest.length < s.length := by
  unfold readEscape at h
  split at h
  · cases h
  · rename_i s
    simp only [bind, StateT.bind, Except.bind] at h
    split at h
    · cases h
    · rename_i v hv
      have hlt := readHex4_length hv
      simp only [List.length_cons]
      split at h
      · have := readLowSurrogate_length h
        omega
      · split at h
        · cases h
        · obtain ⟨-, rfl⟩ := Prod.mk.inj (Except.ok.inj h)
          omega
  · split at h
    · cases h; simp
    · cases h

/-- The characters up to the closing quote, which is taken. -/
def readQuotedRest (s : List Char) : Except Fault (List Char × List Char) :=
  match s with
  | [] => .error .incomplete
  | '"' :: s => .ok ([], s)
  | '\\' :: s =>
    match h : readEscape s with
    | .error fault => .error fault
    | .ok (c, s') =>
      have := readEscape_length h
      (readQuotedRest s').map fun r => (c :: r.1, r.2)
  | c :: s =>
    if c.toNat < 0x20 then .error .malformed
    else (readQuotedRest s).map fun r => (c :: r.1, r.2)
termination_by s.length

/-- A text from behind its opening quote on. -/
def readQuoted : Reader String := fun s =>
  (readQuotedRest s).map fun r => (String.ofList r.1, r.2)

end ModulePolicy.Json
