/-
# Workspaces

A workspace holds named policies, alias tables, resolvers, graphs and checkers,
and one lookup cache that is shared by all who bring their own settings. A
resolver has settings and a cache of its own. Making something under a name
that is taken replaces what was there.

Policies and tables are stamped from a counter each time they are made, changed
or copied, so a stamp never stands for two contents. Graphs and checkers are
made from a policy as it is and do not follow its changes.

| command | answer |
| --- | --- |
| `newPolicy`, `clonePolicy`, `newTable`, `cloneTable`, `newGraph` | `done` |
| `clearResolver`, `clearShared`, `resetShared` | `done` |
| `insertModule`, `insertAlias` | what was there before |
| `newResolver`, `newChecker` | `done`, or what is wrong with the settings or the policy |
| `resolve`, `sharedResolve` | a resolution or a fault |
| `validate`, `sharedValidate` | a report or a fault |
-/

import ModulePolicy.Graph.PolicyGraph
import ModulePolicy.Resolution.LookupCache
import ModulePolicy.Scan.Check

namespace ModulePolicy

/-- Valid settings with a cache of their own. -/
structure Resolver where
  settings : Settings
  valid : settings.validate = .ok ()
  cache : LookupCache := {}

structure Workspace where
  policies : OrderedMap (Stamped Policy) := .empty
  tables : OrderedMap (Stamped AliasTable) := .empty
  resolvers : OrderedMap Resolver := .empty
  graphs : OrderedMap PolicyGraph := .empty
  checkers : OrderedMap Checker := .empty
  sharedCache : LookupCache := {}
  nextPolicyStamp : Nat := 1
  nextTableStamp : Nat := 1

inductive Command
  | newPolicy (name : String) (modules : List (ModuleId × ModuleSpec))
  | insertModule (policy : String) (id : ModuleId) (spec : ModuleSpec)
  | clonePolicy (policy name : String)
  | newTable (name : String) (entries : List (String × AliasEntry))
  | insertAlias (table name : String) (entry : AliasEntry)
  | cloneTable (table name : String)
  | newResolver (name : String) (settings : Settings)
  | newGraph (policy name : String)
  | newChecker (policy name : String)
  | resolve (resolver policy : String) (table : Option String) (query : String)
  | validate (resolver policy : String) (table : Option String) (queries : List String)
  | clearResolver (resolver : String)
  | sharedResolve (settings : Settings) (policy : String) (table : Option String) (query : String)
  | sharedValidate (policy : String) (table : Option String) (queries : List String)
  | clearShared
  | resetShared

inductive CommandAnswer
  | done
  | previousSpec (spec : Option ModuleSpec)
  | previousEntry (entry : Option AliasEntry)
  | resolution (r : Except QueryFault Resolution)
  | report (r : Except QueryFault BatchReport)
  | badSettings (fault : SettingsFault)
  | badPolicy (fault : PolicyFault)
  | unknownName

namespace Workspace

/-- Puts a policy under a name, with a new stamp. -/
def putPolicy (w : Workspace) (name : String) (p : Policy) : Workspace :=
  { w with
    policies := w.policies.insert name ⟨w.nextPolicyStamp, p⟩
    nextPolicyStamp := w.nextPolicyStamp + 1 }

/-- Puts an alias table under a name, with a new stamp. -/
def putTable (w : Workspace) (name : String) (t : AliasTable) : Workspace :=
  { w with
    tables := w.tables.insert name ⟨w.nextTableStamp, t⟩
    nextTableStamp := w.nextTableStamp + 1 }

def putResolver (w : Workspace) (name : String) (r : Resolver) : Workspace :=
  { w with resolvers := w.resolvers.insert name r }

/-- The table with a given name, where one is named at all. The outer option is
empty if there is no table of that name. -/
def namedTable? (w : Workspace) : Option String → Option (Option (Stamped AliasTable))
  | none => some none
  | some name => (w.tables.get? name).map some

/-- A command that finds all it names. -/
def perform? [PatternEngine] (w : Workspace) : Command → Option (CommandAnswer × Workspace)
  | .newPolicy name modules => some (.done, w.putPolicy name (.ofList modules))
  | .insertModule policy id spec => do
    let p ← w.policies.get? policy
    let (previous, p') := p.content.insert id spec
    pure (.previousSpec previous, w.putPolicy policy p')
  | .clonePolicy policy name => do
    let p ← w.policies.get? policy
    pure (.done, w.putPolicy name p.content)
  | .newTable name entries => some (.done, w.putTable name (.ofList entries))
  | .insertAlias table name entry => do
    let t ← w.tables.get? table
    pure (.previousEntry (t.content.get? name), w.putTable table (t.content.insert name entry))
  | .cloneTable table name => do
    let t ← w.tables.get? table
    pure (.done, w.putTable name t.content)
  | .newResolver name settings =>
    match h : settings.validate with
    | .ok () => some (.done, w.putResolver name ⟨settings, h, .empty⟩)
    | .error fault => some (.badSettings fault, w)
  | .newGraph policy name => do
    let p ← w.policies.get? policy
    pure (.done, { w with graphs := w.graphs.insert name (.ofPolicy p.content) })
  | .newChecker policy name => do
    let p ← w.policies.get? policy
    match Checker.ofPolicy p.content with
    | .ok c => pure (.done, { w with checkers := w.checkers.insert name c })
    | .error fault => pure (.badPolicy fault, w)
  | .resolve resolver policy table query => do
    let r ← w.resolvers.get? resolver
    let p ← w.policies.get? policy
    let t ← w.namedTable? table
    let (answer, cache) := r.cache.resolve r.settings p t query
    pure (.resolution answer, w.putResolver resolver { r with cache := cache })
  | .validate resolver policy table queries => do
    let r ← w.resolvers.get? resolver
    let p ← w.policies.get? policy
    let t ← w.namedTable? table
    let (answer, cache) := r.cache.validate r.settings p t queries
    pure (.report answer, w.putResolver resolver { r with cache := cache })
  | .clearResolver resolver => do
    let r ← w.resolvers.get? resolver
    pure (.done, w.putResolver resolver { r with cache := r.cache.clear })
  | .sharedResolve settings policy table query => do
    let p ← w.policies.get? policy
    let t ← w.namedTable? table
    let (answer, cache) := w.sharedCache.resolveChecked settings p t query
    pure (.resolution answer, { w with sharedCache := cache })
  | .sharedValidate policy table queries => do
    let p ← w.policies.get? policy
    let t ← w.namedTable? table
    let (answer, cache) := w.sharedCache.validate .strict p t queries
    pure (.report answer, { w with sharedCache := cache })
  | .clearShared => some (.done, { w with sharedCache := w.sharedCache.clear })
  | .resetShared => some (.done, { w with sharedCache := w.sharedCache.resetTally })

/-- Performs a command; one that names what is not there changes nothing. -/
def perform [PatternEngine] (w : Workspace) (c : Command) : CommandAnswer × Workspace :=
  (w.perform? c).getD (.unknownName, w)

end Workspace

end ModulePolicy
