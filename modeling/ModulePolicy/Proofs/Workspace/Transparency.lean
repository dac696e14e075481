/-
# Caches never show

Policies and tables change, are copied and take each other's places, and the
caches of a workspace outlive all of this. Still every resolution and every
validation answers for the policy and the table as they are at that moment.

The invariant is `Workspace.Coherent`: some ledger vouches for every policy and
table that is there and for every cache slot. A command puts one policy or table,
and then a stamp is drawn for it, or it makes one call of a cache, and then the
call is about what is vouched for. So it keeps the invariant
(`Coherent.perform_snd`), and every run does (`Coherent.exists_after`).
`uncachedAnswer` is what a command should answer, computed without a cache.
-/

import ModulePolicy.Proofs.Workspace.Stamps

namespace ModulePolicy

variable {policies : Ledger Policy} {tables : Ledger AliasTable}

/-- The ledgers vouch for what a call is about. -/
def CacheCall.Vouched (policies : Ledger Policy) (tables : Ledger AliasTable) : CacheCall → Prop
  | .resolve _ policy table _ =>
    policies.Vouches id policy ∧ ∀ t, table = some t → tables.Vouches id t
  | .validate _ policy table _ =>
    policies.Vouches id policy ∧ ∀ t, table = some t → tables.Vouches id t
  | _ => True

namespace LookupCache.Coherent

variable {c : LookupCache} {e : CacheCall}

/-- **A call that is vouched for keeps a cache coherent.** -/
theorem call (h : c.Coherent policies tables) (he : e.Vouched policies tables) :
    (c.call e).Coherent policies tables := by
  cases e with
  | make => exact coherent_of_slots_none rfl rfl
  | resolve settings policy table query =>
    exact h.resolveChecked_snd he.1 he.2 settings query
  | validate settings policy table queries =>
    exact h.validate_snd he.1 he.2 settings queries
  | clear => exact coherent_of_slots_none rfl rfl
  | resetTally => exact coherent_of_slots_eq h rfl rfl

/-- **Its answer does not show the cache.** -/
theorem answer_eq (h : c.Coherent policies tables) (he : e.Vouched policies tables) :
    c.answer e = e.uncachedAnswer := by
  cases e with
  | resolve settings policy table query =>
    exact congrArg _ (h.resolveChecked_fst he.1 he.2 settings query)
  | validate settings policy table queries =>
    exact congrArg _ (h.validate_fst he.1 he.2 settings queries)
  | _ => rfl

end LookupCache.Coherent

namespace Workspace

/-- The ledgers vouch for all policies and tables and for all caches. -/
structure Coherent (policies : Ledger Policy) (tables : Ledger AliasTable) (w : Workspace) :
    Prop where
  policyShelf : w.policyShelf.KeptBy policies
  tableShelf : w.tableShelf.KeptBy tables
  cacheOf : ∀ owner, (w.cacheOf owner).Coherent policies tables

/-- An empty workspace is coherent, whatever the stamps will stand for. -/
theorem coherent_empty (policyContent : Nat → Policy) (tableContent : Nat → AliasTable) :
    ({} : Workspace).Coherent ⟨1, policyContent⟩ ⟨1, tableContent⟩ where
  policyShelf := Shelf.keptBy_empty policyContent
  tableShelf := Shelf.keptBy_empty tableContent
  cacheOf owner := by cases owner <;> exact LookupCache.coherent_of_slots_none rfl rfl

namespace Coherent

variable {w : Workspace}

theorem namedTable (h : w.Coherent policies tables) {name : Option String}
    {t : Option (Stamped AliasTable)} (hn : w.namedTable? name = some t) :
    ∀ x, t = some x → tables.Vouches id x := by
  rintro x rfl
  cases name with
  | none => simp [namedTable?] at hn
  | some name =>
    have hx : w.tables.get? name = some x := by simpa [namedTable?] using hn
    exact h.tableShelf.vouches name x hx

/-- What stands in a coherent workspace is vouched for. -/
theorem vouched (h : w.Coherent policies tables) {call : CacheCall} (hcall : call.StandsIn w) :
    call.Vouched policies tables := by
  cases call with
  | resolve settings policy table query =>
    obtain ⟨⟨name, hp⟩, _, ht⟩ := hcall
    exact ⟨h.policyShelf.vouches name policy hp, h.namedTable ht⟩
  | validate settings policy table queries =>
    obtain ⟨⟨name, hp⟩, _, ht⟩ := hcall
    exact ⟨h.policyShelf.vouches name policy hp, h.namedTable ht⟩
  | _ => trivial

theorem cacheAfter (h : w.Coherent policies tables) (owner : CacheOwner)
    {call : Option (CacheOwner × CacheCall)} (hcall : ∀ e, call = some e → e.2.StandsIn w) :
    (w.cacheAfter owner call).Coherent policies tables := by
  cases call with
  | none => exact h.cacheOf owner
  | some e =>
    rw [Workspace.cacheAfter]
    split
    · exact (h.cacheOf owner).call (h.vouched (hcall e rfl))
    · exact h.cacheOf owner

variable [PatternEngine]

/-- **Every command keeps a workspace coherent,** under the same ledgers or under
ones with a stamp more. -/
theorem perform_snd (h : w.Coherent policies tables) (c : Command) :
    ∃ (policies' : Ledger Policy) (tables' : Ledger AliasTable),
      (w.perform c).2.Coherent policies' tables' := by
  have heffect := w.effect_perform c
  obtain ⟨policies', hpolicies, hpolicyShelf⟩ := h.policyShelf.exists_putSome (w.policyPut? c)
  obtain ⟨tables', htables, htableShelf⟩ := h.tableShelf.exists_putSome (w.tablePut? c)
  have hstands : ∀ e, w.call? c = some e → e.2.StandsIn w := fun e he =>
    (heffect.answer_of_call e he).1
  exact ⟨policies', tables',
    { policyShelf := heffect.policyShelf ▸ hpolicyShelf
      tableShelf := heffect.tableShelf ▸ htableShelf
      cacheOf := fun owner =>
        heffect.cacheOf owner ▸ (h.cacheAfter owner hstands).within hpolicies htables }⟩

/-- **In a coherent workspace no answer shows a cache.** -/
theorem perform_fst (h : w.Coherent policies tables) (c : Command) :
    (w.perform c).1 = w.uncachedAnswer c := by
  have heffect := w.effect_perform c
  cases hcall : w.call? c with
  | none => exact heffect.answer_of_none hcall
  | some e =>
    obtain ⟨hstands, hanswer, huncached⟩ := heffect.answer_of_call e hcall
    rw [hanswer, huncached]
    exact (h.cacheOf e.1).answer_eq (h.vouched hstands)

/-- **Every run keeps a workspace coherent.** -/
theorem exists_after (h : w.Coherent policies tables) (commands : List Command) :
    ∃ (policies' : Ledger Policy) (tables' : Ledger AliasTable),
      (w.after commands).Coherent policies' tables' := by
  induction commands generalizing w policies tables with
  | nil => exact ⟨_, _, h⟩
  | cons c commands ih =>
    obtain ⟨_, _, hc⟩ := h.perform_snd c
    exact ih hc

end Coherent

/-- **Caches never show.** After any run of commands from an empty workspace,
through the shared cache or that of a resolver, every resolution is the one of
`ModulePolicy.resolve`, and every validation the one of `validateBatch`, for the
policy and the table as the run has left them. -/
theorem perform_after_empty [PatternEngine] (commands : List Command) (c : Command) :
    ((({} : Workspace).after commands).perform c).1 =
      (({} : Workspace).after commands).uncachedAnswer c := by
  obtain ⟨_, _, h⟩ := (coherent_empty (fun _ => .empty) fun _ => .empty).exists_after commands
  exact h.perform_fst c

end Workspace
end ModulePolicy
