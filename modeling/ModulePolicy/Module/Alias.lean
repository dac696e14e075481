/-
# Alias tables

An alias is a curated shorthand for a module. Aliases are told apart by case;
that they should be lowercase is a convention which `AliasTable.lint` watches
over.

| finding | raised for |
| --- | --- |
| `notLowercase` | an alias that differs from its lowercase form |
| `danglingTarget` | an alias whose module the policy does not declare |
-/

import ModulePolicy.Collection.OrderedMap
import ModulePolicy.Module.Policy
import ModulePolicy.Number.Binary64
import ModulePolicy.Text.Lowercase

namespace ModulePolicy

/-- The module that an alias stands for, how far the alias is to be trusted,
and why it exists. -/
structure AliasEntry where
  canonical : ModuleId
  confidence : Binary64 := .one
  reason : String := ""
deriving DecidableEq

/-- Aliases with their entries, in ascending order. -/
abbrev AliasTable := OrderedMap AliasEntry

inductive AliasFinding
  | notLowercase (name : String)
  | danglingTarget (name : String) (canonical : ModuleId)
deriving DecidableEq

namespace AliasFinding

/-- The alias found fault with. -/
def name : AliasFinding → String
  | notLowercase name => name
  | danglingTarget name _ => name

def message : AliasFinding → String
  | notLowercase name => "alias '" ++ name ++ "' should be lowercase"
  | danglingTarget name canonical =>
    "alias '" ++ name ++ "' points at unknown module '" ++ canonical.text ++ "'"

end AliasFinding

namespace AliasTable

/-- What is wrong with one alias. Targets are checked against a policy only if
one is given. -/
def lintEntry (policy : Option Policy) (name : String) (entry : AliasEntry) : List AliasFinding :=
  (if name = lowercase name then [] else [.notLowercase name]) ++
    match policy with
    | none => []
    | some p =>
      if p.contains entry.canonical.text then [] else [.danglingTarget name entry.canonical]

/-- The findings of a table, by alias. -/
def lint (table : AliasTable) (policy : Option Policy) : List AliasFinding :=
  table.entries.flatMap fun e => lintEntry policy e.1 e.2

end AliasTable

end ModulePolicy
