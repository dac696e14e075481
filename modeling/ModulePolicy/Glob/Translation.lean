/-
# Globs as regular expressions

A glob can also be handed to an engine of regular expressions. Its translation
is anchored at both ends and lets a period stand for newlines too:

| token | in a path | in an identifier |
| --- | --- | --- |
| `**` | `.*` | `.*` |
| `*` | `[^/]*` | `.*` |
| any character `c` | `c`, escaped if need be | `c`, escaped if need be |

An engine is asked for a matcher, which it may refuse, of a text put together
from such items. It is standard if a matcher that it gives accepts what the
items stand for in the sense of formal languages (`StandardEngine`).
-/

import Mathlib.Computability.Language
import ModulePolicy.Glob.Language

namespace ModulePolicy

/-- The characters with a meaning of their own in a regular expression. -/
def metaCharacters : List Char :=
  ['\\', '.', '+', '*', '?', '(', ')', '|', '[', ']', '{', '}', '^', '$', '#', '&', '-', '~']

/-- A character as a regular expression that only it matches. -/
def escape (c : Char) : List Char :=
  if metaCharacters.contains c then ['\\', c] else [c]

/-- What a lone star becomes. -/
def starRegex : GlobMode → List Char
  | .path => ['[', '^', '/', ']', '*']
  | .identifier => ['.', '*']

/-- What a pattern becomes, without the anchors. -/
def translateChars (mode : GlobMode) : List Char → List Char
  | '*' :: '*' :: cs => '.' :: '*' :: translateChars mode cs
  | '*' :: cs => starRegex mode ++ translateChars mode cs
  | c :: cs => escape c ++ translateChars mode cs
  | [] => []

/-- A regular expression for the whole of a text, periods matching newlines. -/
def anchored (regex : List Char) : String := "(?s)^" ++ String.ofList regex ++ "$"

/-- The regular expression for a pattern. -/
def translate (mode : GlobMode) (pattern : String) : String :=
  anchored (translateChars mode pattern.toList)

/-- What a translation is put together from: single characters, runs of any
characters and runs of characters other than slashes. -/
inductive RegexItem
  | char (c : Char)
  | anyRun
  | slashlessRun
deriving DecidableEq

/-- The characters of a class, as texts. -/
def charClass (p : Char → Prop) : Language Char := {piece | ∃ c, p c ∧ piece = [c]}

namespace RegexItem

def text : RegexItem → List Char
  | char c => escape c
  | anyRun => ['.', '*']
  | slashlessRun => ['[', '^', '/', ']', '*']

open Computability in
/-- The texts that an item stands for, a run being repetition of a class. -/
def language : RegexItem → Language Char
  | char c => {[c]}
  | anyRun => (charClass fun _ => True)∗
  | slashlessRun => (charClass (· ≠ '/'))∗

end RegexItem

/-- An engine of regular expressions that agrees with formal languages: items
written one after the other stand for the product of their languages. -/
def StandardEngine (engine : String → Option (String → Bool)) : Prop :=
  ∀ (items : List RegexItem) (matcher : String → Bool),
    engine (anchored (items.flatMap RegexItem.text)) = some matcher →
      ∀ s, matcher s = true ↔ s.toList ∈ (items.map RegexItem.language).prod

end ModulePolicy
