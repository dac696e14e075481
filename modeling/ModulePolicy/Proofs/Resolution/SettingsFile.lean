/-
# Settings files read back

Settings are written as a document of three entries (`toToml_eq`), so they are read
back as they were, whatever the score: a whole number keeps its point, and those that
are no finite numbers have words of their own. Only then are they validated. So a
file of settings that may not be used is refused for what is wrong with them, and
never for how it is written.
-/

import ModulePolicy.Proofs.Number.Order
import ModulePolicy.Proofs.Toml.Document
import ModulePolicy.Resolution.SettingsFile

namespace ModulePolicy

namespace Settings

open Toml

variable (s : Settings)

section Entries

variable (h : s.maxSuggestions ≤ maxInteger)

/-- The entries of a settings file. -/
def fileEntries : List Entry :=
  [{ name := "allow_substring"
     word := (if s.allowSubstring then "true" else "false").toList
     value := .boolean s.allowSubstring
     name_ne_empty := by decide
     bare := by decide
     writes := writes_boolean s.allowSubstring },
   { name := "max_suggestions"
     word := Nat.toDigits 10 s.maxSuggestions
     value := .integer s.maxSuggestions
     name_ne_empty := by decide
     bare := by decide
     writes := writes_toDigits h },
   { name := "min_suggestion_score"
     word := (s.minScore.render .pointed).toList
     value := .float s.minScore
     name_ne_empty := by decide
     bare := by decide
     writes := writes_render s.minScore }]

theorem toToml_eq : s.toToml = .ok (String.ofList (documentOf (s.fileEntries h))) := by
  rw [toToml, if_neg (Nat.not_lt.2 h)]
  refine congrArg Except.ok (String.toList_inj.1 ?_)
  simp [fileEntries, documentOf, Entry.text, Entry.afterBlank]

/-- The table that the entries make up. -/
def fileTable : Table := ⟨.header, (s.fileEntries h).map Entry.node⟩

theorem ofTable?_fileTable : ofTable? (s.fileTable h) = some s := by
  have hallow : (s.fileTable h).get? "allow_substring" =
      some (.value (.boolean s.allowSubstring)) := rfl
  have hmax : (s.fileTable h).get? "max_suggestions" =
      some (.value (.integer s.maxSuggestions)) := rfl
  have hscore : (s.fileTable h).get? "min_suggestion_score" =
      some (.value (.float s.minScore)) := rfl
  have hnatural : naturalOf? (some (.value (.integer s.maxSuggestions))) =
      some s.maxSuggestions := by simp [naturalOf?]
  rw [ofTable?, hallow, hmax, hscore, hnatural]
  rfl

/-- **Settings are read back as they were,** whether they may be used or not. -/
theorem ofTable?_documentOf :
    (readDocument (String.ofList (documentOf (s.fileEntries h)))).bind ofTable? = some s := by
  have hnames : ((s.fileEntries h).map (·.name)).Nodup := by
    change ["allow_substring", "max_suggestions", "min_suggestion_score"].Nodup
    decide
  rw [readDocument_documentOf hnames]
  exact s.ofTable?_fileTable h

end Entries

variable {s} {text : String} {fault : SettingsFault}

/-- Settings are written if the format has an integer for the number of suggestions. -/
theorem exists_toToml_iff : (∃ text, s.toToml = .ok text) ↔ s.maxSuggestions ≤ maxInteger := by
  constructor
  · rintro ⟨text, htext⟩
    by_contra h
    rw [toToml, if_pos (Nat.not_le.1 h)] at htext
    cases htext
  · exact fun h => ⟨_, s.toToml_eq h⟩

theorem eq_documentOf_of_toToml (htext : s.toToml = .ok text) :
    ∃ h, text = String.ofList (documentOf (s.fileEntries h)) := by
  have h := exists_toToml_iff.1 ⟨text, htext⟩
  exact ⟨h, Except.ok.inj (htext.symm.trans (s.toToml_eq h))⟩

theorem ofToml_of_validate (htext : s.toToml = .ok text) (h : s.validate = .ok ()) :
    ofToml text = .ok s := by
  obtain ⟨hmax, rfl⟩ := eq_documentOf_of_toToml htext
  simp only [ofToml, s.ofTable?_documentOf hmax, h]

theorem ofToml_of_validate_error (htext : s.toToml = .ok text) (h : s.validate = .error fault) :
    ofToml text = .error (.invalid fault) := by
  obtain ⟨hmax, rfl⟩ := eq_documentOf_of_toToml htext
  simp only [ofToml, s.ofTable?_documentOf hmax, h]

/-- What settings are refused for. -/
theorem exists_validate_error_iff : (∃ fault, s.validate = .error fault) ↔
    s.maxSuggestions = 0 ∨ s.minScore = .nan ∨ s.minScore.lt .zero ∨
      Binary64.one.lt s.minScore := by
  have herror : (∃ fault, s.validate = .error fault) ↔ ¬ s.validate = .ok () := by
    cases s.validate <;> simp
  rw [herror, validate_eq_ok_iff, not_and_or, Nat.not_lt, Nat.le_zero,
    Binary64.not_within_unit_iff]

theorem agrees_self (h : s.validate = .ok ()) : s.agrees s := by
  obtain ⟨-, hzero, -⟩ := validate_eq_ok_iff.1 h
  have hnan : s.minScore ≠ .nan := by
    intro hnan
    rw [hnan] at hzero
    cases hzero
  simp [agrees, Binary64.numericallyEq_self hnan]

/-- **Settings survive their file.** They are written exactly if the number of
suggestions is an integer of the format. What is written is read back as the same
settings if they may be used. If not, it is refused with the fault that they have, and
never for being unreadable. -/
theorem toToml_round_trip (s : Settings) :
    ((∃ text, s.toToml = .ok text) ↔ s.maxSuggestions ≤ 9223372036854775807) ∧
      (∀ text, s.toToml = .ok text →
        (s.validate = .ok () → ofToml text = .ok s ∧ s.agrees s) ∧
          ∀ fault, s.validate = .error fault → ofToml text = .error (.invalid fault)) ∧
      ((∃ fault, s.validate = .error fault) ↔
        s.maxSuggestions = 0 ∨ s.minScore = .nan ∨ s.minScore.lt .zero ∨
          Binary64.one.lt s.minScore) :=
  ⟨exists_toToml_iff,
    fun _ htext => ⟨fun h => ⟨ofToml_of_validate htext h, agrees_self h⟩,
      fun _ h => ofToml_of_validate_error htext h⟩,
    exists_validate_error_iff⟩

/-! A least score of a tenth, which no binary number is, and one that is no number. -/

def tenthScore : Settings := { minScore := .ofDecimal false 1 (-1) }

def nanScore : Settings := { minScore := .nan }

theorem toToml_round_trip_tenth :
    (∃ text, tenthScore.toToml = .ok text ∧ ofToml text = .ok tenthScore) ∧
      ∃ text, nanScore.toToml = .ok text ∧
        ofToml text = .error (.invalid (.scoreOutOfRange .nan)) := by
  obtain ⟨written, read, -⟩ := toToml_round_trip tenthScore
  obtain ⟨written', read', -⟩ := toToml_round_trip nanScore
  obtain ⟨text, htext⟩ := written.2 (by decide)
  obtain ⟨text', htext'⟩ := written'.2 (by decide)
  exact ⟨⟨text, htext, ((read text htext).1 (by decide +kernel)).1⟩, text', htext',
    (read' text' htext').2 _ (by decide)⟩

end Settings

end ModulePolicy
