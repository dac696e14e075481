/-
# Suggestions and containment

| function | answer |
| --- | --- |
| `suggestions` | modules with at least a least score, best first, up to a limit |
| `shortestContaining?` | the shortest identifier that contains a query or is contained in it |

Equal scores, and equal lengths, are settled by the order of identifiers.
-/

import ModulePolicy.Number.Binary64
import ModulePolicy.Similarity.Score

namespace ModulePolicy

/-- Best score first, then by identifier. -/
def scoredBefore (a b : Magnitude × ModuleId) : Bool :=
  b.1.code < a.1.code || (a.1.code = b.1.code && a.2.le b.2)

/-- The candidates whose score for a query reaches `least`, best first, at most
`limit` of them. -/
def suggestions (query : String) (candidates : List Candidate) (limit : Nat) (least : Binary64) :
    List ModuleId :=
  let lowered := lowercase query
  let scored := candidates.map fun c => (c.score lowered, c.id)
  let kept := scored.filter fun s => least.le (.ofMagnitude s.1)
  ((kept.mergeSort scoredBefore).take limit).map (·.2)

/-- Shorter in bytes first, then by identifier. -/
def shorterBefore (a b : ModuleId) : Bool :=
  a.text.utf8ByteSize < b.text.utf8ByteSize ||
    (a.text.utf8ByteSize = b.text.utf8ByteSize && a.le b)

/-- The first of a list in the order `shorterBefore`. -/
def firstShortest : List ModuleId → Option ModuleId
  | [] => none
  | a :: rest =>
    match firstShortest rest with
    | none => some a
    | some b => some (if shorterBefore a b then a else b)

/-- Of the identifiers that contain the query or are contained in it, case set
aside, the first in the order `shorterBefore`. -/
def shortestContaining? (query : String) (candidates : List Candidate) : Option ModuleId :=
  let lowered := lowercase query
  firstShortest ((candidates.filter fun c =>
    containsText lowered c.lowered || containsText c.lowered lowered).map (·.id))

end ModulePolicy
