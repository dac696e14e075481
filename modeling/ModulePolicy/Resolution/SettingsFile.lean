/-
# Resolver settings in TOML

A file of settings is a TOML document with the keys

| key | value | without it |
| --- | --- | --- |
| `allow_substring` | a boolean | `false` |
| `max_suggestions` | an integer that is not negative | `5` |
| `min_suggestion_score` | a float or an integer | `0.0` |

Other keys and tables are passed over. The values must make valid settings.
-/

import ModulePolicy.Resolution.Settings
import ModulePolicy.Toml.Document

namespace ModulePolicy

inductive SettingsFileFault
  | unreadable
  | unwritable
  | invalid (fault : SettingsFault)
deriving DecidableEq

namespace Settings

open Toml

/-- The greatest integer a document may hold. -/
def maxInteger : Nat := 0x7FFFFFFFFFFFFFFF

def booleanOf? : Option Node → Option Bool
  | none => some strict.allowSubstring
  | some (.value (.boolean b)) => some b
  | some _ => none

def naturalOf? : Option Node → Option Nat
  | none => some strict.maxSuggestions
  | some (.value (.integer i)) => if 0 ≤ i then some i.toNat else none
  | some _ => none

def binary64Of? : Option Node → Option Binary64
  | none => some strict.minScore
  | some (.value (.float x)) => some x
  | some (.value (.integer i)) => some (.signed (i < 0) (.ofNat i.natAbs))
  | some _ => none

/-- The settings of a document, whether valid or not. -/
def ofTable? (t : Table) : Option Settings :=
  match booleanOf? (t.get? "allow_substring"), naturalOf? (t.get? "max_suggestions"),
    binary64Of? (t.get? "min_suggestion_score") with
  | some allowSubstring, some maxSuggestions, some minScore =>
    some ⟨allowSubstring, maxSuggestions, minScore⟩
  | _, _, _ => none

/-- Reads settings from a document. -/
def ofToml (document : String) : Except SettingsFileFault Settings :=
  match (readDocument document).bind ofTable? with
  | none => .error .unreadable
  | some s =>
    match s.validate with
    | .ok () => .ok s
    | .error fault => .error (.invalid fault)

/-- Writes settings as a document. The number of suggestions has to be an
integer of the format. -/
def toToml (s : Settings) : Except SettingsFileFault String :=
  if maxInteger < s.maxSuggestions then .error .unwritable
  else .ok <|
    "allow_substring = " ++ (if s.allowSubstring then "true" else "false") ++ "\n" ++
    "max_suggestions = " ++ s.maxSuggestions.repr ++ "\n" ++
    "min_suggestion_score = " ++ s.minScore.render .pointed ++ "\n"

end Settings

end ModulePolicy
