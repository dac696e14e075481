/-
# Module identifiers

A module is known by a text that is not empty, conventionally with slashes in
it. Identifiers are equal and ordered as their texts are; the slashes only
matter for display and for scoring.
-/

import ModulePolicy.Module.Fault
import ModulePolicy.Text.Slashed

namespace ModulePolicy

structure ModuleId where
  text : String
  text_ne_empty : text ≠ ""
deriving DecidableEq

namespace ModuleId

@[ext] theorem ext {a b : ModuleId} (h : a.text = b.text) : a = b := by
  cases a; cases b; cases h; rfl

/-- The identifier with a given text. -/
def ofText (s : String) : Except PolicyFault ModuleId :=
  if h : s = "" then .error .emptyModuleId else .ok ⟨s, h⟩

/-- Order of the texts, character by character. -/
def le (a b : ModuleId) : Bool := a.text ≤ b.text

/-- The parts between slashes, empty parts left out. -/
def segments (id : ModuleId) : List String := ModulePolicy.segments id.text

end ModuleId

end ModulePolicy
