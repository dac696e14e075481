/-
# Counters account for every lookup

The caches of a workspace, the shared one and those of the resolvers, change by
calls only (`Effect.cacheOf`): a command makes one call at most, of one cache, with
the policy and the table that stand under their names at that moment. So a cache is
what the calls of it have made (`cacheOf_after`), and its counters are what the log
of these calls says, whatever is done to policies and tables in between
(`counters_account_for_lookups`).
-/

import ModulePolicy.Proofs.Workspace.CacheLog

namespace ModulePolicy

namespace Workspace

/-- The calls of the cache of an owner that some commands make. -/
def callsOn [PatternEngine] (w : Workspace) (owner : CacheOwner) : List Command → List CacheCall
  | [] => []
  | c :: commands =>
    ((w.call? c).toList.filter (·.1 = owner)).map (·.2) ++ (w.perform c).2.callsOn owner commands

theorem cacheAfter_eq_foldl (w : Workspace) (owner : CacheOwner)
    (call : Option (CacheOwner × CacheCall)) :
    w.cacheAfter owner call =
      ((call.toList.filter (·.1 = owner)).map (·.2)).foldl LookupCache.call (w.cacheOf owner) := by
  cases call with
  | none => rfl
  | some e => by_cases h : e.1 = owner <;> simp [cacheAfter, h]

/-- **A cache is what the calls of it have made.** -/
theorem cacheOf_after [PatternEngine] (w : Workspace) (owner : CacheOwner)
    (commands : List Command) :
    (w.after commands).cacheOf owner =
      (w.callsOn owner commands).foldl LookupCache.call (w.cacheOf owner) := by
  induction commands generalizing w with
  | nil => rfl
  | cons c commands ih =>
    rw [callsOn, List.foldl_append, ← cacheAfter_eq_foldl, ← (w.effect_perform c).cacheOf]
    exact ih (w.perform c).2

end Workspace

/-- **Counters account for every lookup.** After any calls of a cache, its
counters are what its log says of the time since they were set to zero: each miss
is a rebuild, hits and misses are the lookups, the hits are those with the stamp
of the last lookup of their kind since the cache was cleared, and batches are
counted by whether the report accepted them. The next lookup is counted as a hit
by the same rule. Each cache of a workspace is what calls have made of it, after
any run of commands. -/
theorem counters_account_for_lookups [PatternEngine] :
    (∀ calls : List CacheCall,
      let c := (LookupCache.run calls).1
      let log := (LookupCache.run calls).2
      c.AccountsFor log ∧
        (∀ p, (c.roster p).2.tally =
          c.tally.countLookup (CacheEvent.lastStamp? .policy log = some p.stamp)) ∧
        ∀ t, (c.aliasTable t).2.tally =
          c.tally.countLookup (CacheEvent.lastStamp? .table log = some t.stamp)) ∧
      ∀ commands owner, (({} : Workspace).after commands).cacheOf owner =
        (LookupCache.run (({} : Workspace).callsOn owner commands)).1 := by
  constructor
  · intro calls c log
    have h : c.AccountsFor log := LookupCache.accountsFor_run calls
    exact ⟨h, h.tally_roster, h.tally_aliasTable⟩
  · intro commands owner
    have hempty : ({} : Workspace).cacheOf owner = .empty := by cases owner <;> rfl
    rw [Workspace.cacheOf_after, hempty, LookupCache.run, LookupCache.foldl_record_fst]

end ModulePolicy
