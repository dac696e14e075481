/-
# Policies with bad patterns

A policy is compiled pattern by pattern, and the first pattern that does not
compile ends the work with a fault that names it. The order is that of two
passes over the modules, both in declaration order:

| pass | patterns of a module |
| --- | --- |
| index | `ownsPaths` |
| rules, once there is an index | `allowedCallers`, then `forbiddenCallers` |

Each pass is a loop in a loop. The fault of a loop is the first one of its
rounds (`faultOf?_mapM`), and a loop over parts is a loop over all that is in
them, so a pass ends with the first fault in one list: `Policy.pathPatterns` for
an index, and `Policy.callerPatterns` behind it for a checker.

None of this depends on which patterns compile. That is for the engine to say, and
all is stated for any engine, one of regular expressions among them, which accepts
the translation of a pattern or refuses it (`PatternEngine.ofRegex`).
-/

import ModulePolicy.Glob.Translation
import ModulePolicy.Proofs.Scan.Rules

namespace ModulePolicy

/-- The engine that accepts a pattern where its translation is accepted. -/
@[reducible] def PatternEngine.ofRegex (accepts : String → Bool) : PatternEngine where
  accepts mode pattern := accepts (translate mode pattern)

/-! ### The patterns of a policy, in order -/

namespace Policy

/-- The patterns that all modules have in a list, in declaration order. -/
def patterns (p : Policy) (mode : GlobMode) (listed : ModuleSpec → List String) :
    List (GlobMode × String) :=
  p.declarations.flatMap fun d => (listed d.2).map (mode, ·)

/-- The path globs, module by module. -/
def pathPatterns (p : Policy) : List (GlobMode × String) :=
  p.patterns .path fun spec => spec.ownsPaths

/-- The caller patterns, module by module, the allowed ones before the forbidden
ones. -/
def callerPatterns (p : Policy) : List (GlobMode × String) :=
  p.patterns .identifier fun spec => spec.allowedCallers ++ spec.forbiddenCallers

theorem exists_mem_patterns_iff (bad : GlobMode → String → Prop) {p : Policy} {mode : GlobMode}
    {listed : ModuleSpec → List String} :
    (∃ q ∈ p.patterns mode listed, bad q.1 q.2) ↔
      ∃ d ∈ p.declarations, ∃ s ∈ listed d.2, bad mode s := by
  simp only [patterns, List.mem_flatMap, List.mem_map]
  constructor
  · rintro ⟨-, ⟨d, hd, s, hs, rfl⟩, hbad⟩
    exact ⟨d, hd, s, hs, hbad⟩
  · rintro ⟨d, hd, s, hs, hbad⟩
    exact ⟨(mode, s), ⟨d, hd, s, hs, rfl⟩, hbad⟩

end Policy

/-! ### Where compiling ends -/

section

variable [PatternEngine]

/-- The fault of a pattern that does not compile. -/
def patternFault? (q : GlobMode × String) : Option PolicyFault := faultOf? (Glob.compile q.1 q.2)

theorem faultOf?_mapM_compile (mode : GlobMode) (l : List String) :
    faultOf? (l.mapM (Glob.compile mode)) = (l.map (mode, ·)).findSome? patternFault? := by
  rw [faultOf?_mapM, List.findSome?_map]
  rfl

/-- A loop over the modules with a loop over their patterns fails at the first
pattern at which one of these loops does. -/
theorem faultOf?_mapM_declarations {α : Type} {p : Policy} {mode : GlobMode}
    {listed : ModuleSpec → List String} {f : ModuleId × ModuleSpec → Except PolicyFault α}
    (h : ∀ d, faultOf? (f d) = ((listed d.2).map (mode, ·)).findSome? patternFault?) :
    faultOf? (p.declarations.mapM f) = (p.patterns mode listed).findSome? patternFault? := by
  rw [faultOf?_mapM, Policy.patterns, findSome?_flatMap]
  simp only [h]

/-- **An index fails at the first path glob that does.** -/
theorem OwnershipIndex.faultOf?_ofPolicy (p : Policy) :
    faultOf? (ofPolicy p) = p.pathPatterns.findSome? patternFault? := by
  have hholding : ∀ d : ModuleId × ModuleSpec, faultOf? (Holding.compile d.1 d.2) =
      (d.2.ownsPaths.map (GlobMode.path, ·)).findSome? patternFault? := fun d => by
    rw [Holding.compile, faultOf?_bind_pure, faultOf?_mapM_compile]
  rw [ofPolicy, faultOf?_bind_pure]
  exact faultOf?_mapM_declarations hholding

theorem ModuleRules.faultOf?_compile (spec : ModuleSpec) :
    faultOf? (compile spec) =
      ((spec.allowedCallers ++ spec.forbiddenCallers).map (GlobMode.identifier, ·)).findSome?
        patternFault? := by
  have hforbidden : ∀ allowed : List Glob, faultOf? (do
      let forbidden ← spec.forbiddenCallers.mapM (Glob.compile .identifier)
      pure (⟨allowed, forbidden, spec.featureFlags, spec.requiresPermissions⟩ : ModuleRules)) =
      (spec.forbiddenCallers.map (GlobMode.identifier, ·)).findSome? patternFault? :=
    fun allowed => by rw [faultOf?_bind_pure, faultOf?_mapM_compile]
  rw [compile, faultOf?_bind hforbidden, faultOf?_mapM_compile, List.map_append,
    List.findSome?_append]

/-- **A checker fails at the first path glob that does, or else at the first
caller pattern.** -/
theorem Checker.faultOf?_ofPolicy (p : Policy) :
    faultOf? (ofPolicy p) = (p.pathPatterns ++ p.callerPatterns).findSome? patternFault? := by
  have hmodule : ∀ d : ModuleId × ModuleSpec, faultOf? (compileRules d) =
      ((d.2.allowedCallers ++ d.2.forbiddenCallers).map (GlobMode.identifier, ·)).findSome?
        patternFault? := fun d => by
    rw [compileRules, faultOf?_bind_pure, ModuleRules.faultOf?_compile]
  have hrules : ∀ index : OwnershipIndex, faultOf? (do
      let rules ← p.declarations.mapM compileRules
      pure (⟨index, rules⟩ : Checker)) =
      p.callerPatterns.findSome? patternFault? := fun index => by
    rw [faultOf?_bind_pure]
    exact faultOf?_mapM_declarations hmodule
  have hpasses : ofPolicy p = (do
      let index ← OwnershipIndex.ofPolicy p
      let rules ← p.declarations.mapM compileRules
      pure ⟨index, rules⟩) := rfl
  rw [hpasses, faultOf?_bind hrules, OwnershipIndex.faultOf?_ofPolicy,
    List.findSome?_append]

end

/-! ### What the fault names -/

/-- The fault names the first bad one of some patterns. -/
def NamesFirst (bad : GlobMode → String → Prop) (patterns : List (GlobMode × String))
    (fault : PolicyFault) : Prop :=
  ∃ before mode pattern after, patterns = before ++ (mode, pattern) :: after ∧
    (∀ q ∈ before, ¬ bad q.1 q.2) ∧ bad mode pattern ∧ fault = .patternTooLarge pattern

/-- An index and a checker of a policy cannot be made if one of their patterns
is bad, and the fault names the first one. -/
structure FailsAtFirst (bad : GlobMode → String → Prop) (p : Policy)
    (index : Except PolicyFault OwnershipIndex) (checker : Except PolicyFault Checker) : Prop where
  index_fails_iff : (∃ fault, index = .error fault) ↔
    ∃ d ∈ p.declarations, ∃ s ∈ d.2.ownsPaths, bad .path s
  checker_fails_iff : (∃ fault, checker = .error fault) ↔
    ∃ d ∈ p.declarations, (∃ s ∈ d.2.ownsPaths, bad .path s) ∨
      (∃ s ∈ d.2.allowedCallers, bad .identifier s) ∨ ∃ s ∈ d.2.forbiddenCallers, bad .identifier s
  index_fault_iff : ∀ fault, index = .error fault ↔ NamesFirst bad p.pathPatterns fault
  checker_fault_iff : ∀ fault, checker = .error fault ↔
    NamesFirst bad (p.pathPatterns ++ p.callerPatterns) fault

section

variable [PatternEngine] {α : Type} {x : Except PolicyFault α}
  {patterns : List (GlobMode × String)} {q : GlobMode × String} {fault : PolicyFault}

theorem patternFault?_eq_some_iff :
    patternFault? q = some fault ↔ ¬ Compiles q.1 q.2 ∧ fault = .patternTooLarge q.2 := by
  rw [patternFault?, faultOf?_eq_some_iff, Glob.compiles_iff, Glob.compile]
  split
  · rename_i h
    simp [h]
  · rename_i h
    simp [h, eq_comm]

theorem isSome_patternFault?_iff : (patternFault? q).isSome ↔ ¬ Compiles q.1 q.2 := by
  rw [Option.isSome_iff_exists]
  simp only [patternFault?_eq_some_iff, exists_and_left, exists_eq, and_true]

theorem exists_error_iff (hx : faultOf? x = patterns.findSome? patternFault?) :
    (∃ fault, x = .error fault) ↔ ∃ q ∈ patterns, ¬ Compiles q.1 q.2 := by
  simp only [← faultOf?_eq_some_iff, ← Option.isSome_iff_exists, hx, List.findSome?_isSome_iff,
    isSome_patternFault?_iff]

theorem error_iff_namesFirst (hx : faultOf? x = patterns.findSome? patternFault?)
    (fault : PolicyFault) :
    x = .error fault ↔ NamesFirst (fun mode s => ¬ Compiles mode s) patterns fault := by
  have hnone : ∀ q, patternFault? q = none ↔ ¬ ¬ Compiles q.1 q.2 := fun q => by
    rw [← isSome_patternFault?_iff, Option.not_isSome_iff_eq_none]
  rw [← faultOf?_eq_some_iff, hx, List.findSome?_eq_some_iff]
  simp only [hnone, patternFault?_eq_some_iff]
  constructor
  · rintro ⟨before, ⟨mode, pattern⟩, after, heq, ⟨hbad, hfault⟩, hbefore⟩
    exact ⟨before, mode, pattern, after, heq, hbefore, hbad, hfault⟩
  · rintro ⟨before, mode, pattern, after, heq, hbefore, hbad, hfault⟩
    exact ⟨before, (mode, pattern), after, heq, ⟨hbad, hfault⟩, hbefore⟩

/-- **Both passes fail at the first pattern that does not compile.** -/
theorem failsAtFirst (p : Policy) :
    FailsAtFirst (fun mode s => ¬ Compiles mode s) p (OwnershipIndex.ofPolicy p)
      (Checker.ofPolicy p) where
  index_fails_iff :=
    (exists_error_iff (OwnershipIndex.faultOf?_ofPolicy p)).trans
      (Policy.exists_mem_patterns_iff fun mode s => ¬ Compiles mode s)
  checker_fails_iff := by
    rw [exists_error_iff (Checker.faultOf?_ofPolicy p)]
    simp only [Policy.pathPatterns, Policy.callerPatterns, List.mem_append, or_and_right, exists_or,
      Policy.exists_mem_patterns_iff fun mode s => ¬ Compiles mode s, and_or_left]
  index_fault_iff := error_iff_namesFirst (OwnershipIndex.faultOf?_ofPolicy p)
  checker_fault_iff := error_iff_namesFirst (Checker.faultOf?_ofPolicy p)

end

/-- What does not compile under an engine of regular expressions is what it
refuses. -/
theorem not_compiles_ofRegex_iff {accepts : String → Bool} {mode : GlobMode} {s : String} :
    ¬ @Compiles (.ofRegex accepts) mode s ↔ accepts (translate mode s) = false := by
  have hcompiles : @Compiles (.ofRegex accepts) mode s ↔ accepts (translate mode s) = true :=
    @Glob.compiles_iff (.ofRegex accepts) mode s
  rw [hcompiles, Bool.not_eq_true]

/-- **Compiling a policy fails exactly at bad patterns, and names the first.** An
index cannot be made if a path glob of some module does not compile, a checker if
any pattern does not. The fault names the first such pattern, all path globs
coming before the caller patterns. This holds under every engine, and under one of
regular expressions the bad patterns are those whose translation it refuses. -/
theorem bad_patterns_are_named [PatternEngine] (p : Policy) :
    FailsAtFirst (fun mode s => ¬ Compiles mode s) p (OwnershipIndex.ofPolicy p)
        (Checker.ofPolicy p) ∧
      ∀ accepts : String → Bool,
        FailsAtFirst (fun mode s => accepts (translate mode s) = false) p
          (@OwnershipIndex.ofPolicy (.ofRegex accepts) p)
          (@Checker.ofPolicy (.ofRegex accepts) p) := by
  refine ⟨failsAtFirst p, fun accepts => ?_⟩
  simp only [← not_compiles_ofRegex_iff]
  exact @failsAtFirst (.ofRegex accepts) p

/-! The second module has a bad glob, the first one a bad caller, and an engine
refuses what has an exclamation mark in it: the glob is named. -/

example :
    let policy := Policy.ofList
      [(⟨"quay", by decide⟩, { ownsPaths := ["quay/**"], allowedCallers := ["crane!"] }),
        (⟨"dock", by decide⟩, { ownsPaths := ["dock/*", "dock!/*"] })]
    @Checker.ofPolicy (.ofRegex fun regex => !regex.toList.contains '!') policy =
      .error (.patternTooLarge "dock!/*") := by decide

end ModulePolicy
