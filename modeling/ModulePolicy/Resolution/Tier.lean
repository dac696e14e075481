/-
# Tiers of resolution

| tier | the query is | trusted |
| --- | --- | --- |
| `exact` | the identifier of a declared module | yes |
| `aliased` | an alias | yes |
| `substring` | part of an identifier, or the other way round | no |
| `fuzzy` | none of these | no |

Tiers are ordered as in the table, the most trustworthy first.
-/

import ModulePolicy.Text.Lowercase

namespace ModulePolicy

inductive Tier
  | exact
  | aliased
  | substring
  | fuzzy
deriving DecidableEq

namespace Tier

def name : Tier → String
  | exact => "exact"
  | aliased => "alias"
  | substring => "substring"
  | fuzzy => "fuzzy"

/-- The tier with a given name, in any case. -/
def ofName? (s : String) : Option Tier :=
  [exact, aliased, substring, fuzzy].find? fun t => t.name = lowercase s

/-- What is said of a text that names no tier. -/
def unknownMessage (s : String) : String := "Invalid resolution source: " ++ s

def isTrusted : Tier → Bool
  | exact | aliased => true
  | substring | fuzzy => false

/-- Place in the order of tiers. -/
def place : Tier → Nat
  | exact => 0
  | aliased => 1
  | substring => 2
  | fuzzy => 3

end Tier

end ModulePolicy
