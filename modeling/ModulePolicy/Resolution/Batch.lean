/-
# Strict validation of batches

A batch of queries is accepted if each is a declared identifier or an alias of
full confidence. Every other query is rejected with a message and suggestions;
the substring tier is never tried. An empty query spoils the whole batch.
-/

import ModulePolicy.Resolution.Basic

namespace ModulePolicy

structure Rejection where
  query : String
  message : String
  suggestions : List ModuleId
deriving DecidableEq

/-- Accepted queries with their modules and rejected ones, both in the order of
the batch. -/
structure BatchReport where
  rejected : List Rejection
  resolved : List (String × ModuleId)
deriving DecidableEq

namespace BatchReport

/-- Whether nothing was rejected. -/
def isValid (r : BatchReport) : Bool := r.rejected.isEmpty

end BatchReport

namespace Rejection

/-- Why an answer is not accepted. -/
def reason (query : String) : Resolution → String
  | .aliased id confidence _ =>
    "Module '" ++ query ++ "' is an alias for '" ++ id.text ++ "' with confidence " ++
      confidence.renderPlaces 2 ++
      "; only exact IDs or full-confidence aliases are accepted"
  | .fuzzy [] => "Unknown module '" ++ query ++ "'"
  | .fuzzy ids =>
    "Unknown module '" ++ query ++ "'. Did you mean: " ++ commaList (ids.map (·.text)) ++ "?"
  | r => "Module '" ++ query ++ "' did not resolve with full confidence (" ++ r.tier.name ++ ")"

def ofResolution (query : String) (r : Resolution) : Rejection :=
  ⟨query, reason query r, r.suggestions⟩

end Rejection

/-- Sorts a batch into queries with a trusted module and the others. -/
def triage (roster : Roster) (aliases : Option AliasTable) :
    List String → Except QueryFault (List (String × ModuleId) × List String)
  | [] => .ok ([], [])
  | q :: qs =>
    if q = "" then .error .emptyQuery
    else
      match triage roster aliases qs with
      | .error fault => .error fault
      | .ok (resolved, pending) =>
        match (Resolution.trusted? roster aliases q).bind (·.canonical?) with
        | some id => .ok ((q, id) :: resolved, pending)
        | none => .ok (resolved, q :: pending)

/-- Validates a batch under settings that are taken as valid. -/
def validateBatch (roster : Roster) (aliases : Option AliasTable) (settings : Settings)
    (queries : List String) : Except QueryFault BatchReport :=
  match triage roster aliases queries with
  | .error fault => .error fault
  | .ok (resolved, pending) =>
    let withoutSubstring := { settings with allowSubstring := false }
    .ok ⟨pending.map fun q =>
      .ofResolution q (Resolution.untrusted roster aliases withoutSubstring q), resolved⟩

section Triage

variable {roster : Roster} {aliases : Option AliasTable} {queries : List String}

theorem validateBatch_of_triage_error (settings : Settings) {fault : QueryFault}
    (h : triage roster aliases queries = .error fault) :
    validateBatch roster aliases settings queries = .error fault := by
  rw [validateBatch, h]

/-- **Triage decides whether a batch is accepted:** it is if no query is left, and
this is known before suggestions are looked for. -/
theorem exists_report_of_triage (settings : Settings) {resolved : List (String × ModuleId)}
    {pending : List String} (h : triage roster aliases queries = .ok (resolved, pending)) :
    ∃ report, validateBatch roster aliases settings queries = .ok report ∧
      report.isValid = pending.isEmpty := by
  rw [validateBatch, h]
  exact ⟨_, rfl, List.isEmpty_map⟩

end Triage

end ModulePolicy
