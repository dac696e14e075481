/-
# Lowercase text

Every character goes to its simple lowercase form, with two exceptions:

| character | becomes | when |
| --- | --- | --- |
| `İ` (U+0130) | `i` and U+0307 | always |
| `Σ` (U+03A3) | `ς` (U+03C2) | a cased letter stands before it and none after it |
| `Σ` (U+03A3) | `σ` (U+03C3) | otherwise |

Before and after a `Σ` case-ignorable characters are looked through.
-/

import ModulePolicy.Text.Casing

namespace ModulePolicy

/-- Whether the first character that is not case-ignorable is a cased one. -/
def reachesCased (cs : List Char) : Bool :=
  match cs.dropWhile isCaseIgnorable with
  | c :: _ => isCased c
  | [] => false

/-- The lowercase form of one character between the text before it, nearest
character first, and the text after it. -/
def lowerChar (before : List Char) (c : Char) (after : List Char) : List Char :=
  if c = 'Σ' then
    if reachesCased before && !reachesCased after then ['ς'] else ['σ']
  else if c = 'İ' then ['i', '\u0307']
  else [simpleLower c]

/-- The lowercase form of `cs` where it follows a text, given backwards. -/
def lowerFrom (before : List Char) : List Char → List Char
  | [] => []
  | c :: after => lowerChar before c after ++ lowerFrom (c :: before) after

/-- The lowercase form of a text. -/
def lowercase (s : String) : String := String.ofList (lowerFrom [] s.toList)

theorem length_lowerChar_le (before after : List Char) (c : Char) :
    (lowerChar before c after).length ≤ 2 := by
  unfold lowerChar
  split
  · split <;> exact Nat.le_succ 1
  · split
    · exact Nat.le_refl 2
    · exact Nat.le_succ 1

theorem length_lowerFrom_le (before cs : List Char) :
    (lowerFrom before cs).length ≤ 2 * cs.length := by
  induction cs generalizing before with
  | nil => exact Nat.le_refl 0
  | cons c cs ih =>
    have hc := length_lowerChar_le before cs c
    have hcs := ih (c :: before)
    rw [lowerFrom, List.length_append, List.length_cons]
    omega

theorem length_lowerChar_pos (before after : List Char) (c : Char) :
    0 < (lowerChar before c after).length := by
  unfold lowerChar
  split
  · split <;> exact Nat.one_pos
  · split
    · exact Nat.two_pos
    · exact Nat.one_pos

theorem length_le_length_lowerFrom (before cs : List Char) :
    cs.length ≤ (lowerFrom before cs).length := by
  induction cs generalizing before with
  | nil => exact Nat.le_refl 0
  | cons c cs ih =>
    have hc := length_lowerChar_pos before cs c
    have hcs := ih (c :: before)
    rw [lowerFrom, List.length_append, List.length_cons]
    omega

/-- A text is at most twice as long in lowercase. -/
theorem length_lowercase_le (s : String) : (lowercase s).length ≤ 2 * s.length := by
  rw [lowercase, String.length_ofList, ← String.length_toList]
  exact length_lowerFrom_le [] s.toList

/-- No text is shorter in lowercase. -/
theorem length_le_length_lowercase (s : String) : s.length ≤ (lowercase s).length := by
  rw [lowercase, String.length_ofList, ← String.length_toList]
  exact length_le_length_lowerFrom [] s.toList

end ModulePolicy
