/-
# JSON forms of policy and resolver values

| value | form |
| --- | --- |
| module identifier | a text that is not empty |
| module specification | a record, all fields optional, `notes` left out if there are none |
| alias entry | a record that needs `canonical` |
| resolver settings | a record, all fields optional |
| tier | its name |
-/

import ModulePolicy.Json.Codec
import ModulePolicy.Module.Alias
import ModulePolicy.Resolution.Settings
import ModulePolicy.Resolution.Tier

namespace ModulePolicy

open Json

namespace ModuleId

def readJson : Reader ModuleId := do
  match ofText (← readText) with
  | .ok id => pure id
  | .error _ => throw .mismatched

def codec : Codec ModuleId := ⟨readJson, fun id => quote id.text⟩

end ModuleId

namespace ModuleSpec

def fields : List (RecordField ModuleSpec) :=
  [.always "owns_paths" (.list .text) ownsPaths fun s v => { s with ownsPaths := v },
   .always "owns_namespaces" (.list .text) ownsNamespaces fun s v => { s with ownsNamespaces := v },
   .always "allowed_callers" (.list .text) allowedCallers fun s v => { s with allowedCallers := v },
   .always "forbidden_callers" (.list .text) forbiddenCallers
     fun s v => { s with forbiddenCallers := v },
   .always "feature_flags" (.list .text) featureFlags fun s v => { s with featureFlags := v },
   .always "requires_permissions" (.list .text) requiresPermissions
     fun s v => { s with requiresPermissions := v },
   .optional "notes" notes fun s v => { s with notes := v }]

def codec : Codec ModuleSpec := .record fields {}

end ModuleSpec

namespace AliasEntry

/-- The fields of an entry as far as they have been read. -/
structure Draft where
  canonical : Option ModuleId := none
  confidence : Binary64 := .one
  reason : String := ""

def fields : List (FieldReader Draft) :=
  [⟨"canonical", true, fun e => do return { e with canonical := some (← ModuleId.readJson) }⟩,
   ⟨"confidence", false, fun e => do return { e with confidence := ← readBinary64 }⟩,
   ⟨"reason", false, fun e => do return { e with reason := ← readText }⟩]

def readJson : Reader AliasEntry := do
  let e ← readRecord fields {}
  match e.canonical with
  | some id => pure ⟨id, e.confidence, e.reason⟩
  | none => throw .mismatched

end AliasEntry

namespace Settings

def fields : List (FieldReader Settings) :=
  [⟨"allow_substring", false, fun s => do return { s with allowSubstring := ← readBool }⟩,
   ⟨"max_suggestions", false, fun s => do return { s with maxSuggestions := ← readNatural }⟩,
   ⟨"min_suggestion_score", false, fun s => do return { s with minScore := ← readBinary64 }⟩]

def readJson : Reader Settings := readRecord fields {}

end Settings

def Tier.codec : Codec Tier := .choice Tier.name [.exact, .aliased, .substring, .fuzzy]

end ModulePolicy
