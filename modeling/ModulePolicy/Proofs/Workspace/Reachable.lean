/-
# What reachable workspaces answer

A workspace is reachable if some run of commands leads to it from the empty one.
Whatever happened on the way, a resolution or validation in it answers for the
policy and the table that stand under the names it is asked about:

| command | answer |
| --- | --- |
| `sharedResolve` | `ModulePolicy.resolve` under the settings of the command |
| `sharedValidate` | `validateBatch` under the strict settings |
| `resolve` | `ModulePolicy.resolve` under the settings of the resolver |
| `validate` | `validateBatch` under the settings of the resolver |
-/

import ModulePolicy.Proofs.Workspace.Transparency

namespace ModulePolicy
namespace Workspace

/-- Some run of commands leads to the workspace. -/
def Reachable [PatternEngine] (w : Workspace) : Prop :=
  ∃ commands, w = ({} : Workspace).after commands

namespace Reachable

variable [PatternEngine] {w : Workspace}

theorem exists_coherent (h : w.Reachable) :
    ∃ (policies : Ledger Policy) (tables : Ledger AliasTable), w.Coherent policies tables := by
  obtain ⟨commands, rfl⟩ := h
  exact (coherent_empty (fun _ => .empty) fun _ => .empty).exists_after commands

/-- The answer to a command is the one without a cache. -/
theorem perform_fst (h : w.Reachable) (c : Command) : (w.perform c).1 = w.uncachedAnswer c := by
  obtain ⟨_, _, hw⟩ := h.exists_coherent
  exact hw.perform_fst c

variable {policy : String} {table : Option String} {p : Stamped Policy}
  {t : Option (Stamped AliasTable)} (h : w.Reachable) (hp : w.policies.get? policy = some p)
  (ht : w.namedTable? table = some t)

include h hp ht

theorem sharedResolve_fst (settings : Settings) (query : String) :
    (w.perform (.sharedResolve settings policy table query)).1 =
      .resolution (ModulePolicy.resolve p.content (t.map (·.content)) settings query) := by
  rw [h.perform_fst, uncachedAnswer, hp, ht]

theorem sharedValidate_fst (queries : List String) :
    (w.perform (.sharedValidate policy table queries)).1 =
      .report (validateBatch (.ofPolicy p.content) (t.map (·.content)) .strict queries) := by
  rw [h.perform_fst, uncachedAnswer, hp, ht]

theorem resolve_fst {resolver : String} {r : Resolver}
    (hr : w.resolvers.get? resolver = some r) (query : String) :
    (w.perform (.resolve resolver policy table query)).1 =
      .resolution (ModulePolicy.resolve p.content (t.map (·.content)) r.settings query) := by
  rw [h.perform_fst, uncachedAnswer, hr, hp, ht]

theorem validate_fst {resolver : String} {r : Resolver}
    (hr : w.resolvers.get? resolver = some r) (queries : List String) :
    (w.perform (.validate resolver policy table queries)).1 =
      .report (validateBatch (.ofPolicy p.content) (t.map (·.content)) r.settings queries) := by
  rw [h.perform_fst, uncachedAnswer, hr, hp, ht]

end Reachable

end Workspace
end ModulePolicy
