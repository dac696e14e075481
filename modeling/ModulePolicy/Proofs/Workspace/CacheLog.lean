/-
# What the counters of a cache stand for

A lookup cache is called again and again, with any policies and tables. Its log
says what happened to it, the newest event first:

| call | events |
| --- | --- |
| `make` | the cache is empty and its counters are zero |
| `resolve` | one lookup of a policy and, with a table, one of a table; none under bad settings |
| `validate` | the same lookups, then a batch if there is a report |
| `clear` | the slots are emptied |
| `resetTally` | the counters are set to zero |

The log does not know what the slots hold. By the log, a lookup is a hit if the
last one of its kind had the same stamp and nothing was cleared since
(`lastStamp?`), however many resets lie between the two. What the log counts since
the last reset is what the counters show, after any calls (`accountsFor_run`).
-/

import ModulePolicy.Proofs.Workspace.CacheCoherence
import ModulePolicy.Proofs.Workspace.Step

namespace ModulePolicy

/-- What is looked up: a policy or a table of aliases. -/
inductive LookupKind
  | policy
  | table
deriving DecidableEq

inductive CacheEvent
  | lookedUp (kind : LookupKind) (stamp : Nat)
  | batch (valid : Bool)
  | cleared
  | reset
deriving DecidableEq

namespace CacheEvent

def isLookup : CacheEvent → Bool
  | lookedUp _ _ => true
  | _ => false

/-- The stamp of the last lookup of a kind since the cache was cleared. -/
def lastStamp? (kind : LookupKind) : List CacheEvent → Option Nat
  | [] => none
  | .cleared :: _ => none
  | .lookedUp k stamp :: log => if k = kind then some stamp else lastStamp? kind log
  | _ :: log => lastStamp? kind log

/-- The events since the counters were set to zero. -/
def sinceReset (log : List CacheEvent) : List CacheEvent := log.takeWhile (· ≠ .reset)

/-- How many lookups since the counters were set to zero had the stamp of the
last one of their kind. -/
def hitCount : List CacheEvent → Nat
  | [] => 0
  | .reset :: _ => 0
  | .lookedUp kind stamp :: log =>
    hitCount log + if lastStamp? kind log = some stamp then 1 else 0
  | _ :: log => hitCount log

theorem sinceReset_reset (log : List CacheEvent) : sinceReset (.reset :: log) = [] :=
  List.takeWhile_cons_of_neg (by decide)

theorem sinceReset_cons {e : CacheEvent} (h : e ≠ .reset) (log : List CacheEvent) :
    sinceReset (e :: log) = e :: sinceReset log :=
  List.takeWhile_cons_of_pos (decide_eq_true h)

end CacheEvent

open CacheEvent

/-- The counters say what a log says. -/
structure Tally.AccountsFor (t : Tally) (log : List CacheEvent) : Prop where
  rebuilds_eq : t.rebuilds = t.misses
  totalLookups_eq : t.hits + t.misses = (sinceReset log).countP (·.isLookup)
  hits_eq : t.hits = hitCount log
  fastBatches_eq : t.fastBatches = (sinceReset log).count (.batch true)
  slowBatches_eq : t.slowBatches = (sinceReset log).count (.batch false)

namespace Tally.AccountsFor

variable {t : Tally} {log : List CacheEvent}

theorem empty : Tally.AccountsFor {} [] := ⟨rfl, rfl, rfl, rfl, rfl⟩

/-- **A lookup is counted once,** as what the log says it is. -/
theorem countLookup (h : t.AccountsFor log) (kind : LookupKind) (stamp : Nat) :
    (t.countLookup (lastStamp? kind log = some stamp)).AccountsFor
      (.lookedUp kind stamp :: log) := by
  have hsince : sinceReset (.lookedUp kind stamp :: log) = .lookedUp kind stamp :: sinceReset log :=
    sinceReset_cons (by simp) log
  exact
    { rebuilds_eq := by rw [rebuilds_countLookup, misses_countLookup, h.rebuilds_eq]
      totalLookups_eq := by
        rw [hsince, List.countP_cons_of_pos rfl, ← h.totalLookups_eq, hits_countLookup,
          misses_countLookup]
        split <;> omega
      hits_eq := by
        rw [hits_countLookup, h.hits_eq, hitCount]
        simp only [decide_eq_true_eq]
      fastBatches_eq := by
        rw [hsince, List.count_cons_of_ne (by simp), ← h.fastBatches_eq, fastBatches_countLookup]
      slowBatches_eq := by
        rw [hsince, List.count_cons_of_ne (by simp), ← h.slowBatches_eq, slowBatches_countLookup] }

/-- **A batch is counted once,** by whether it was accepted. -/
theorem countBatch (h : t.AccountsFor log) (valid : Bool) :
    (t.countBatch valid).AccountsFor (.batch valid :: log) := by
  have hsince : sinceReset (.batch valid :: log) = .batch valid :: sinceReset log :=
    sinceReset_cons (by simp) log
  exact
    { rebuilds_eq := by cases valid <;> exact h.rebuilds_eq
      totalLookups_eq := by
        rw [hsince, List.countP_cons_of_neg Bool.false_ne_true]
        cases valid <;> exact h.totalLookups_eq
      hits_eq := by cases valid <;> exact h.hits_eq
      fastBatches_eq := by
        rw [hsince, List.count_cons, ← h.fastBatches_eq]
        cases valid <;> rfl
      slowBatches_eq := by
        rw [hsince, List.count_cons, ← h.slowBatches_eq]
        cases valid <;> rfl }

/-- The counters outlast the slots. -/
theorem cleared (h : t.AccountsFor log) : t.AccountsFor (.cleared :: log) where
  rebuilds_eq := h.rebuilds_eq
  totalLookups_eq := h.totalLookups_eq
  hits_eq := h.hits_eq
  fastBatches_eq := h.fastBatches_eq
  slowBatches_eq := h.slowBatches_eq

theorem reset (log : List CacheEvent) : Tally.AccountsFor {} (.reset :: log) := by
  have hsince := sinceReset_reset log
  exact ⟨rfl, by rw [hsince]; rfl, rfl, by rw [hsince]; rfl, by rw [hsince]; rfl⟩

end Tally.AccountsFor

/-- A slot is hit if it holds the stamp that is asked for. -/
theorem fetch_fst {α β : Type} (build : α → β) (slot : Option (Stamped β)) (x : Stamped α) :
    (fetch build slot x).1 = decide (slot.map (·.stamp) = some x.stamp) := by
  cases slot with
  | none => rfl
  | some kept =>
    unfold fetch
    by_cases h : kept.stamp = x.stamp <;> simp [h]

namespace LookupCache

/-- Counters and slots say what a log says. -/
structure AccountsFor (c : LookupCache) (log : List CacheEvent) : Prop where
  tally : c.tally.AccountsFor log
  policySlot : c.policySlot.map (·.stamp) = lastStamp? .policy log
  aliasSlot : c.aliasSlot.map (·.stamp) = lastStamp? .table log

namespace AccountsFor

variable {c : LookupCache} {log : List CacheEvent}

theorem empty : LookupCache.empty.AccountsFor [] := ⟨.empty, rfl, rfl⟩

/-- **The next lookup of a policy** is counted as the log says. -/
theorem tally_roster (h : c.AccountsFor log) (p : Stamped Policy) :
    (c.roster p).2.tally = c.tally.countLookup (lastStamp? .policy log = some p.stamp) := by
  rw [← h.policySlot, ← fetch_fst Roster.ofPolicy c.policySlot p]
  rfl

/-- **The next lookup of a table** is counted as the log says. -/
theorem tally_aliasTable (h : c.AccountsFor log) (t : Stamped AliasTable) :
    (c.aliasTable t).2.tally = c.tally.countLookup (lastStamp? .table log = some t.stamp) := by
  rw [← h.aliasSlot, ← fetch_fst id c.aliasSlot t]
  rfl

theorem roster (h : c.AccountsFor log) (p : Stamped Policy) :
    (c.roster p).2.AccountsFor (.lookedUp .policy p.stamp :: log) where
  tally := h.tally_roster p ▸ h.tally.countLookup .policy p.stamp
  policySlot := congrArg some (fetch_stamp Roster.ofPolicy c.policySlot p)
  aliasSlot := h.aliasSlot

theorem aliasTable (h : c.AccountsFor log) (t : Stamped AliasTable) :
    (c.aliasTable t).2.AccountsFor (.lookedUp .table t.stamp :: log) where
  tally := h.tally_aliasTable t ▸ h.tally.countLookup .table t.stamp
  policySlot := h.policySlot
  aliasSlot := congrArg some (fetch_stamp id c.aliasSlot t)

end AccountsFor

/-- The lookups for a resolution or a validation. -/
def lookups (policy : Stamped Policy) (table : Option (Stamped AliasTable)) : List CacheEvent :=
  (table.map fun t => .lookedUp .table t.stamp).toList ++ [.lookedUp .policy policy.stamp]

/-- What happens to a cache by a call. -/
def events (c : LookupCache) : CacheCall → List CacheEvent
  | .make => [.cleared, .reset]
  | .resolve settings policy table _ =>
    match settings.validate with
    | .error _ => []
    | .ok () => lookups policy table
  | .validate settings policy table queries =>
    match (c.validate settings policy table queries).1 with
    | .error _ => lookups policy table
    | .ok report => .batch report.isValid :: lookups policy table
  | .clear => [.cleared]
  | .resetTally => [.reset]

/-- A cache with its log after one more call. -/
def record (s : LookupCache × List CacheEvent) (call : CacheCall) :
    LookupCache × List CacheEvent :=
  (s.1.call call, s.1.events call ++ s.2)

/-- A cache that was called again and again since it was empty, with its log. -/
def run (calls : List CacheCall) : LookupCache × List CacheEvent := calls.foldl record (.empty, [])

/-- A validation looks up what it needs, and counts a batch if there is a report:
as fast if triage leaves no query, and this is what the report says as well. -/
theorem validate_cases (c : LookupCache) (settings : Settings) (policy : Stamped Policy)
    (table : Option (Stamped AliasTable)) (queries : List String) :
    (∃ fault, c.validate settings policy table queries =
      (.error fault, (c.lookup policy table).2)) ∨
    ∃ resolved pending report,
      triage (c.lookup policy table).1.1 (c.lookup policy table).1.2 queries =
        .ok (resolved, pending) ∧
      report.isValid = pending.isEmpty ∧
      c.validate settings policy table queries =
        (.ok report, { (c.lookup policy table).2 with
          tally := (c.lookup policy table).2.tally.countBatch pending.isEmpty }) := by
  cases h : triage (c.lookup policy table).1.1 (c.lookup policy table).1.2 queries with
  | error fault =>
    exact .inl ⟨fault, by
      simp only [LookupCache.validate, validateBatch_of_triage_error settings h]⟩
  | ok sorted =>
    obtain ⟨report, hreport, hvalid⟩ := exists_report_of_triage settings h
    exact .inr ⟨sorted.1, sorted.2, report, rfl, hvalid, by
      simp only [LookupCache.validate, hreport, hvalid]⟩

namespace AccountsFor

variable {c : LookupCache} {log : List CacheEvent}

theorem lookup (h : c.AccountsFor log) (p : Stamped Policy) (t : Option (Stamped AliasTable)) :
    (c.lookup p t).2.AccountsFor (lookups p t ++ log) := by
  cases t with
  | none => exact h.roster p
  | some t => exact (h.roster p).aliasTable t

theorem resolveChecked (h : c.AccountsFor log) (settings : Settings) (p : Stamped Policy)
    (t : Option (Stamped AliasTable)) (query : String) :
    (c.resolveChecked settings p t query).2.AccountsFor
      (c.events (.resolve settings p t query) ++ log) := by
  cases hvalid : settings.validate with
  | error fault =>
    simp only [LookupCache.resolveChecked, events, hvalid]
    exact h
  | ok _ =>
    simp only [LookupCache.resolveChecked, events, hvalid]
    exact h.lookup p t

theorem validate (h : c.AccountsFor log) (settings : Settings) (p : Stamped Policy)
    (t : Option (Stamped AliasTable)) (queries : List String) :
    (c.validate settings p t queries).2.AccountsFor
      (c.events (.validate settings p t queries) ++ log) := by
  have hlookup := h.lookup p t
  rcases c.validate_cases settings p t queries with
    ⟨fault, hc⟩ | ⟨_, pending, report, -, hvalid, hc⟩
  · simp only [events, hc]
    exact hlookup
  · simp only [events, hc, hvalid]
    exact ⟨hlookup.tally.countBatch pending.isEmpty, hlookup.policySlot, hlookup.aliasSlot⟩

/-- **Every call keeps the accounts.** -/
theorem call (h : c.AccountsFor log) (call : CacheCall) :
    (c.call call).AccountsFor (c.events call ++ log) := by
  cases call with
  | make => exact ⟨(Tally.AccountsFor.reset log).cleared, rfl, rfl⟩
  | resolve settings p t query => exact h.resolveChecked settings p t query
  | validate settings p t queries => exact h.validate settings p t queries
  | clear => exact ⟨h.tally.cleared, rfl, rfl⟩
  | resetTally => exact ⟨.reset log, h.policySlot, h.aliasSlot⟩

end AccountsFor

/-- **After any calls the accounts are right.** -/
theorem accountsFor_foldl_record {s : LookupCache × List CacheEvent} (h : s.1.AccountsFor s.2)
    (calls : List CacheCall) :
    (calls.foldl record s).1.AccountsFor (calls.foldl record s).2 := by
  induction calls generalizing s with
  | nil => exact h
  | cons call calls ih => exact ih (h.call call)

theorem accountsFor_run (calls : List CacheCall) : (run calls).1.AccountsFor (run calls).2 :=
  accountsFor_foldl_record .empty calls

/-- The log only watches. -/
theorem foldl_record_fst (s : LookupCache × List CacheEvent) (calls : List CacheCall) :
    (calls.foldl record s).1 = calls.foldl LookupCache.call s.1 := by
  induction calls generalizing s with
  | nil => rfl
  | cons call calls ih => exact ih (record s call)

end LookupCache

end ModulePolicy
