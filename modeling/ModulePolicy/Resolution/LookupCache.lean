/-
# The lookup cache

What a resolution looks things up in is derived from a policy and an alias
table, and kept for the next resolution: one slot for the last policy and one
for the last table. A slot answers for the stamp it was filled under, never for
content, so every change of a policy or table has to come with a new stamp.

| call | lookups counted |
| --- | --- |
| `resolve`, `validate` | one for the policy, one for the table if there is one |
| `clear`, `resetTally` | none |

An empty query is counted like any other.
-/

import ModulePolicy.Resolution.Batch
import ModulePolicy.Resolution.Tally

namespace ModulePolicy

/-- A value with the stamp it got when it was made or last changed. -/
structure Stamped (α : Type) where
  stamp : Nat
  content : α

/-- The derived value for a stamped one: the slot's if the stamps are equal,
else a new one. Also tells whether the slot was hit. -/
def fetch {α β : Type} (build : α → β) (slot : Option (Stamped β)) (x : Stamped α) :
    Bool × Stamped β :=
  match slot with
  | none => (false, ⟨x.stamp, build x.content⟩)
  | some kept =>
    if kept.stamp = x.stamp then (true, kept) else (false, ⟨x.stamp, build x.content⟩)

structure LookupCache where
  policySlot : Option (Stamped Roster) := none
  aliasSlot : Option (Stamped AliasTable) := none
  tally : Tally := {}

namespace LookupCache

def empty : LookupCache := {}

/-- Empties both slots. The counters stay. -/
def clear (c : LookupCache) : LookupCache := { c with policySlot := none, aliasSlot := none }

/-- Sets all counters to zero. The slots stay. -/
def resetTally (c : LookupCache) : LookupCache := { c with tally := {} }

/-- Looks up the roster of a policy. -/
def roster (c : LookupCache) (policy : Stamped Policy) : Roster × LookupCache :=
  let (hit, kept) := fetch Roster.ofPolicy c.policySlot policy
  (kept.content, { c with policySlot := some kept, tally := c.tally.countLookup hit })

/-- Looks up an alias table. -/
def aliasTable (c : LookupCache) (table : Stamped AliasTable) : AliasTable × LookupCache :=
  let (hit, kept) := fetch id c.aliasSlot table
  (kept.content, { c with aliasSlot := some kept, tally := c.tally.countLookup hit })

/-- Looks up all that a resolution needs. -/
def lookup (c : LookupCache) (policy : Stamped Policy) (table : Option (Stamped AliasTable)) :
    (Roster × Option AliasTable) × LookupCache :=
  let (roster, c) := c.roster policy
  match table with
  | none => ((roster, none), c)
  | some t =>
    let (aliases, c) := c.aliasTable t
    ((roster, some aliases), c)

/-- Resolves a query under settings that are taken as valid. -/
def resolve (c : LookupCache) (settings : Settings) (policy : Stamped Policy)
    (table : Option (Stamped AliasTable)) (query : String) :
    Except QueryFault Resolution × LookupCache :=
  let ((roster, aliases), c) := c.lookup policy table
  (Resolution.ofQuery roster aliases settings query, c)

/-- Resolves a query under any settings; bad ones are answered without a
lookup. -/
def resolveChecked (c : LookupCache) (settings : Settings) (policy : Stamped Policy)
    (table : Option (Stamped AliasTable)) (query : String) :
    Except QueryFault Resolution × LookupCache :=
  match settings.validate with
  | .error fault => (.error (.settings fault), c)
  | .ok () => c.resolve settings policy table query

/-- Validates a batch under settings that are taken as valid. A report is counted
by what it says, which triage has decided (`exists_report_of_triage`). -/
def validate (c : LookupCache) (settings : Settings) (policy : Stamped Policy)
    (table : Option (Stamped AliasTable)) (queries : List String) :
    Except QueryFault BatchReport × LookupCache :=
  let ((roster, aliases), c) := c.lookup policy table
  match validateBatch roster aliases settings queries with
  | .error fault => (.error fault, c)
  | .ok report => (.ok report, { c with tally := c.tally.countBatch report.isValid })

end LookupCache

end ModulePolicy
