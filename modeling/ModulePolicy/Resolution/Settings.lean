/-
# Resolver settings

| setting | meaning | valid |
| --- | --- | --- |
| `allowSubstring` | whether the substring tier is tried | always |
| `maxSuggestions` | how many suggestions an answer may carry | above `0` |
| `minScore` | the least score of a suggestion | from `0` to `1` |
-/

import ModulePolicy.Number.Decimal

namespace ModulePolicy

structure Settings where
  allowSubstring : Bool := false
  maxSuggestions : Nat := 5
  minScore : Binary64 := .zero
deriving DecidableEq

inductive SettingsFault
  | noSuggestions
  | scoreOutOfRange (score : Binary64)
deriving DecidableEq

def SettingsFault.message : SettingsFault → String
  | noSuggestions => "Configuration error: max_suggestions must be greater than 0"
  | scoreOutOfRange score =>
    "Configuration error: min_suggestion_score " ++ score.render .plain ++ " is outside [0.0, 1.0]"

namespace Settings

/-- The default: no substring tier, five suggestions, any score. -/
def strict : Settings := {}

/-- The default with the substring tier. -/
def permissive : Settings := { allowSubstring := true }

/-- Whether the settings may be used. -/
def validate (s : Settings) : Except SettingsFault Unit :=
  if s.maxSuggestions = 0 then .error .noSuggestions
  else if Binary64.zero.le s.minScore && s.minScore.le .one then .ok ()
  else .error (.scoreOutOfRange s.minScore)

theorem validate_eq_ok_iff {s : Settings} : s.validate = .ok () ↔
    0 < s.maxSuggestions ∧ Binary64.zero.le s.minScore ∧ s.minScore.le .one := by
  simp only [validate, ← Bool.and_eq_true, Nat.pos_iff_ne_zero]
  split
  · simp [*]
  · split <;> simp [*]

/-- Equality of settings, scores compared as numbers. -/
def agrees (s t : Settings) : Bool :=
  s.allowSubstring = t.allowSubstring && s.maxSuggestions = t.maxSuggestions &&
    s.minScore.numericallyEq t.minScore

end Settings

end ModulePolicy
