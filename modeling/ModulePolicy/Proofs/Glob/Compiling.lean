/-
# Patterns that compile

A compiled pattern is its text, its mode and its tokens, whichever engine has
accepted it. Asking the compiled patterns of a list whether they match is asking
the patterns as written.
-/

import ModulePolicy.Proofs.Collection.List
import ModulePolicy.Proofs.Glob.Matching

namespace ModulePolicy

variable [PatternEngine]

/-- The pattern can be compiled. -/
def Compiles (mode : GlobMode) (pattern : String) : Prop :=
  ∃ g, Glob.compile mode pattern = .ok g

namespace Glob

variable {mode : GlobMode}

theorem eq_of_compile {pattern : String} {g : Glob} (h : compile mode pattern = .ok g) :
    g = ⟨pattern, mode, GlobToken.ofChars pattern.toList⟩ := by
  simp only [compile] at h
  split at h
  · exact (Except.ok.inj h).symm
  · cases h

/-- **A pattern compiles if the engine accepts it.** -/
theorem compiles_iff {pattern : String} :
    Compiles mode pattern ↔ PatternEngine.accepts mode pattern := by
  unfold Compiles compile
  by_cases h : PatternEngine.accepts mode pattern
  · simp [h]
  · simp [h]

theorem globMatches_of_compile {pattern : String} {g : Glob} (h : compile mode pattern = .ok g)
    (s : String) : globMatches mode pattern s = g.isMatch s := by
  rw [globMatches, h]

/-- A compiled pattern matches the texts that the tokens of its text cover. -/
theorem isMatch_iff_of_compile {pattern : String} {g : Glob} (h : compile mode pattern = .ok g)
    (s : String) :
    g.isMatch s = true ↔ Covers mode (GlobToken.ofChars pattern.toList) s.toList := by
  rw [isMatch_iff_covers, eq_of_compile h]

/-- **A pattern matches its own text.** -/
theorem globMatches_self {pattern : String} (h : Compiles mode pattern) :
    globMatches mode pattern pattern := by
  obtain ⟨g, hg⟩ := h
  rw [globMatches_of_compile hg, isMatch_iff_covers, eq_of_compile hg]
  exact covers_ofChars_self mode pattern.toList

/-- **What a pattern matches has all of its characters but the stars.** -/
theorem mem_of_globMatches {pattern s : String} (h : globMatches mode pattern s) {c : Char}
    (hc : c ∈ pattern.toList) (hstar : c ≠ '*') : c ∈ s.toList := by
  unfold globMatches at h
  split at h
  · rename_i g hg
    rw [isMatch_iff_of_compile hg] at h
    exact mem_of_covers_literal h (literal_mem_ofChars hstar hc)
  · cases h

variable {patterns : List String} {globs : List Glob}

/-- A list of patterns is compiled pattern by pattern. -/
theorem eq_map_of_mapM (h : patterns.mapM (compile mode) = .ok globs) :
    globs = patterns.map fun q => ⟨q, mode, GlobToken.ofChars q.toList⟩ := by
  have hall := mapM_eq_ok_iff.1 h
  clear h
  induction hall with
  | nil => rfl
  | cons hg _ ih => rw [List.map_cons, ← ih, eq_of_compile hg]

theorem any_isMatch_of_mapM (h : patterns.mapM (compile mode) = .ok globs) (s : String) :
    globs.any (·.isMatch s) = patterns.any (globMatches mode · s) := by
  have hall := mapM_eq_ok_iff.1 h
  clear h
  induction hall with
  | nil => rfl
  | cons hg _ ih => rw [List.any_cons, List.any_cons, globMatches_of_compile hg, ih]

/-- The first compiled pattern that matches is the first pattern that does. -/
theorem find?_isMatch_of_mapM (h : patterns.mapM (compile mode) = .ok globs) (s : String) :
    (globs.find? (·.isMatch s)).map (·.source) = patterns.find? (globMatches mode · s) := by
  have hall := mapM_eq_ok_iff.1 h
  clear h
  induction hall with
  | nil => rfl
  | @cons pattern g patterns globs hg _ ih =>
    rw [List.find?_cons, List.find?_cons, globMatches_of_compile hg]
    cases g.isMatch s with
    | false => exact ih
    | true => exact congrArg (some ·.source) (eq_of_compile hg)

theorem isEmpty_of_mapM (h : patterns.mapM (compile mode) = .ok globs) :
    globs.isEmpty = patterns.isEmpty := by
  cases mapM_eq_ok_iff.1 h <;> rfl

end Glob

end ModulePolicy
