/-
# Resolutions

The answer to a query, by the tier that gave it:

| tier | module | confidence | suggestions |
| --- | --- | --- | --- |
| exact | the declared module | `1` | none |
| alias | the module the alias stands for | that of the alias, within `0` and `1` | if the confidence is below `1` |
| substring | a declared module | `0.9` | yes |
| fuzzy | none | `0` | yes |

The tiers are tried in this order. An alias counts whether or not its module is
declared, and its module is never looked up again as an alias.
-/

import ModulePolicy.Module.Alias
import ModulePolicy.Resolution.Settings
import ModulePolicy.Resolution.Tier
import ModulePolicy.Similarity.Ranking

namespace ModulePolicy

inductive Resolution
  | exact (id : ModuleId)
  | aliased (id : ModuleId) (confidence : Binary64) (suggestions : List ModuleId)
  | substring (id : ModuleId) (suggestions : List ModuleId)
  | fuzzy (suggestions : List ModuleId)
deriving DecidableEq

namespace Resolution

def tier : Resolution → Tier
  | exact _ => .exact
  | aliased _ _ _ => .aliased
  | substring _ _ => .substring
  | fuzzy _ => .fuzzy

/-- The module the query stands for, if one was found. -/
def canonical? : Resolution → Option ModuleId
  | exact id => some id
  | aliased id _ _ => some id
  | substring id _ => some id
  | fuzzy _ => none

def confidence : Resolution → Binary64
  | exact _ => .one
  | aliased _ c _ => c
  | substring _ _ => .ofDecimal false 9 (-1)
  | fuzzy _ => .zero

def suggestions : Resolution → List ModuleId
  | exact _ => []
  | aliased _ _ ids => ids
  | substring _ ids => ids
  | fuzzy ids => ids

/-- Whether strict validation accepts the answer. -/
def isCertain (r : Resolution) : Bool := Binary64.one.le r.confidence && r.tier.isTrusted

/-- The answer of the alias tier: the confidence is brought between `0` and
`1`, and full confidence needs no suggestions. -/
def ofAlias (id : ModuleId) (confidence : Binary64) (suggestions : List ModuleId) : Resolution :=
  let c := confidence.clampToUnit
  .aliased id c (if c.lt .one then suggestions else [])

end Resolution

/-- Why a query was not looked at. -/
inductive QueryFault
  | emptyQuery
  | settings (fault : SettingsFault)
deriving DecidableEq

def QueryFault.message : QueryFault → String
  | emptyQuery => "Invalid query: module identifier cannot be empty"
  | settings fault => fault.message

/-- The declared identifiers of a policy, in ascending order. -/
structure Roster where
  ids : List ModuleId
deriving DecidableEq

namespace Roster

def ofPolicy (p : Policy) : Roster := ⟨p.ids.mergeSort ModuleId.le⟩

/-- The identifier with a given text. -/
def find? (r : Roster) (text : String) : Option ModuleId := r.ids.find? (·.text = text)

def candidates (r : Roster) : List Candidate := r.ids.map Candidate.ofId

end Roster

/-- The entry of an alias, if there is a table and the alias is in it. -/
def aliasEntry? (aliases : Option AliasTable) (query : String) : Option AliasEntry :=
  aliases.bind (·.get? query)

namespace Resolution

/-- The answer that needs no scores: a declared identifier, or an alias of full
confidence. -/
def trusted? (roster : Roster) (aliases : Option AliasTable) (query : String) :
    Option Resolution :=
  match roster.find? query with
  | some id => some (exact id)
  | none =>
    match aliasEntry? aliases query with
    | some entry =>
      if Binary64.one.le entry.confidence then some (aliased entry.canonical .one []) else none
    | none => none

/-- The answer to a query without a trusted one. -/
def untrusted (roster : Roster) (aliases : Option AliasTable) (settings : Settings)
    (query : String) : Resolution :=
  let candidates := roster.candidates
  let suggested :=
    ModulePolicy.suggestions query candidates settings.maxSuggestions settings.minScore
  match aliasEntry? aliases query with
  | some entry => ofAlias entry.canonical entry.confidence suggested
  | none =>
    match (if settings.allowSubstring then shortestContaining? query candidates else none) with
    | some id => substring id suggested
    | none => fuzzy suggested

/-- The answer to a query under settings that are taken as valid. -/
def ofQuery (roster : Roster) (aliases : Option AliasTable) (settings : Settings)
    (query : String) : Except QueryFault Resolution :=
  if query = "" then .error .emptyQuery
  else
    match trusted? roster aliases query with
    | some r => .ok r
    | none => .ok (untrusted roster aliases settings query)

end Resolution

/-- Resolves a query against a policy and perhaps aliases. The settings are
checked before the query is looked at. -/
def resolve (policy : Policy) (aliases : Option AliasTable) (settings : Settings)
    (query : String) : Except QueryFault Resolution :=
  match settings.validate with
  | .error fault => .error (.settings fault)
  | .ok () => Resolution.ofQuery (.ofPolicy policy) aliases settings query

end ModulePolicy
