/-
# Ownership

Which module owns a path, a namespace or the text of an identifier? Three rules
are tried, each over all modules in declaration order before the next rule, and
the first hit wins:

| rule | hit |
| --- | --- |
| `moduleId` | the value is the identifier of the module |
| `namespaceStart` | the value starts with one of the module's namespaces |
| `path` | one of the module's path globs matches the value |

For the last two backslashes count as slashes, in the value and in namespaces
but not in globs. A value is claimed by every module that one of these two
rules leads to (`claimants`), and overlaps where there are several.
-/

import ModulePolicy.Glob.Matching
import ModulePolicy.Module.Policy

namespace ModulePolicy

inductive OwnershipRule
  | moduleId
  | namespaceStart (start : String)
  | path (glob : String)
deriving DecidableEq

/-- The module that owns a value, and by which of its declarations. -/
structure Owner where
  module : ModuleId
  rule : OwnershipRule
deriving DecidableEq

/-- What one module owns, its namespaces with slashes and its globs compiled. -/
structure Holding where
  module : ModuleId
  namespaces : List String
  globs : List Glob
deriving DecidableEq

namespace Holding

def compile [PatternEngine] (id : ModuleId) (spec : ModuleSpec) : Except PolicyFault Holding := do
  let globs ← spec.ownsPaths.mapM (Glob.compile .path)
  pure ⟨id, spec.ownsNamespaces.map (withSlashes '\\'), globs⟩

/-- The first namespace that a text with slashes starts with. -/
def byNamespace (h : Holding) (candidate : String) : Option Owner :=
  (h.namespaces.find? (startsWith · candidate)).map fun ns => ⟨h.module, .namespaceStart ns⟩

/-- The first glob that matches a text with slashes. -/
def byPath (h : Holding) (candidate : String) : Option Owner :=
  (h.globs.find? (·.isMatch candidate)).map fun g => ⟨h.module, .path g.source⟩

/-- Whether a namespace or a glob claims a text with slashes. -/
def claims (h : Holding) (candidate : String) : Bool :=
  h.namespaces.any (startsWith · candidate) || h.globs.any (·.isMatch candidate)

end Holding

/-- The holdings of all modules of a policy, in declaration order. -/
structure OwnershipIndex where
  holdings : List Holding
deriving DecidableEq

namespace OwnershipIndex

/-- Compiles every path glob of a policy; the first that does not compile is
the fault. -/
def ofPolicy [PatternEngine] (p : Policy) : Except PolicyFault OwnershipIndex := do
  let holdings ← p.declarations.mapM fun d => Holding.compile d.1 d.2
  pure ⟨holdings⟩

/-- The owner of a path, a namespace or the text of an identifier. -/
def ownerOf (index : OwnershipIndex) (value : String) : Option Owner :=
  match index.holdings.find? (·.module.text = value) with
  | some h => some ⟨h.module, .moduleId⟩
  | none =>
    let candidate := withSlashes '\\' value
    match index.holdings.findSome? (·.byNamespace candidate) with
    | some owner => some owner
    | none => index.holdings.findSome? (·.byPath candidate)

/-- Every module with a namespace or a glob for the value. -/
def claimants (index : OwnershipIndex) (value : String) : List ModuleId :=
  (index.holdings.filter (·.claims (withSlashes '\\' value))).map (·.module)

/-- The values with several claimants, with these. -/
def overlaps (index : OwnershipIndex) (values : List String) : List (String × List ModuleId) :=
  values.filterMap fun v =>
    let owners := index.claimants v
    if 1 < owners.length then some (v, owners) else none

end OwnershipIndex

end ModulePolicy
