/-
# Similarity scores

The similarity of two texts is one minus their edit distance over the length of
the longer one, computed in binary64. The score of a query for a module is the
greatest similarity of the query to the identifier or to one of its segments,
all lowercase. Scores order suggestions and nothing else.
-/

import ModulePolicy.Module.Id
import ModulePolicy.Number.Magnitude
import ModulePolicy.Similarity.EditDistance
import ModulePolicy.Text.Lowercase

namespace ModulePolicy

/-- One minus the distance over the length of the longer text; one for two
empty texts. -/
def similarity (a b : String) : Magnitude :=
  let longest := max a.length b.length
  if longest = 0 then .one
  else ((Magnitude.ofNat (textDistance a b)).div (.ofNat longest)).complement

/-- A module as the ranking sees it: its identifier and segments in lowercase. -/
structure Candidate where
  id : ModuleId
  lowered : String
  segments : List String

namespace Candidate

def ofId (id : ModuleId) : Candidate := ⟨id, lowercase id.text, id.segments.map lowercase⟩

/-- The greatest similarity of a lowercase query to the identifier or one of
its segments. -/
def score (query : String) (c : Candidate) : Magnitude :=
  c.segments.foldl (fun best s => best.max (similarity query s)) (similarity query c.lowered)

end Candidate

end ModulePolicy
