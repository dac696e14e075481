/-
# Counters of a lookup cache

A lookup is a hit or a miss, and each miss rebuilds what was looked up. A batch
that ends with a report counts as fast if nothing was rejected, else as slow.
-/

import ModulePolicy.Number.Decimal

namespace ModulePolicy

structure Tally where
  hits : Nat := 0
  misses : Nat := 0
  rebuilds : Nat := 0
  fastBatches : Nat := 0
  slowBatches : Nat := 0
deriving DecidableEq

namespace Tally

def totalLookups (t : Tally) : Nat := t.hits + t.misses

/-- The share of hits among all lookups, zero if there were none. -/
def hitRate (t : Tally) : Magnitude :=
  if t.totalLookups = 0 then .zero else (Magnitude.ofNat t.hits).div (.ofNat t.totalLookups)

/-- The counters as text, the hit rate in percent with one place. -/
def summary (t : Tally) : String :=
  let percent := t.hitRate.mul (.ofNat 100)
  "\n".intercalate
    ["Resolution Cache Metrics",
     "========================",
     "Lookups: " ++ t.totalLookups.repr ++ " (" ++ t.hits.repr ++ " hits, " ++ t.misses.repr ++
       " misses)",
     "Hit rate: " ++ (Binary64.ofMagnitude percent).renderPlaces 1 ++ "%",
     "Rebuilds: " ++ t.rebuilds.repr,
     "Validation batches: " ++ t.fastBatches.repr ++ " fast path, " ++ t.slowBatches.repr ++
       " slow path"]

/-- Counts a lookup. -/
def countLookup (t : Tally) (hit : Bool) : Tally :=
  if hit then { t with hits := t.hits + 1 }
  else { t with misses := t.misses + 1, rebuilds := t.rebuilds + 1 }

/-- Counts a batch with a report. -/
def countBatch (t : Tally) (valid : Bool) : Tally :=
  if valid then { t with fastBatches := t.fastBatches + 1 }
  else { t with slowBatches := t.slowBatches + 1 }

section CountLookup

variable (t : Tally) (hit : Bool)

theorem hits_countLookup : (t.countLookup hit).hits = t.hits + if hit then 1 else 0 := by
  cases hit <;> rfl

theorem misses_countLookup : (t.countLookup hit).misses = t.misses + if hit then 0 else 1 := by
  cases hit <;> rfl

theorem rebuilds_countLookup :
    (t.countLookup hit).rebuilds = t.rebuilds + if hit then 0 else 1 := by
  cases hit <;> rfl

theorem fastBatches_countLookup : (t.countLookup hit).fastBatches = t.fastBatches := by
  cases hit <;> rfl

theorem slowBatches_countLookup : (t.countLookup hit).slowBatches = t.slowBatches := by
  cases hit <;> rfl

end CountLookup

end Tally

end ModulePolicy
