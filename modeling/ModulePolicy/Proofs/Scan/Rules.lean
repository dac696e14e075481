/-
# The rules of a checker

A policy has a checker if all its patterns compile (`exists_ofPolicy_iff`). The
checker then has rules for every declared module, made from its specification
(`exists_rules?`), and asks of a caller what the specification asks of it
(`fault?_of_compile`).
-/

import ModulePolicy.Scan.Check
import ModulePolicy.Proofs.Ownership.Index

namespace ModulePolicy

variable [PatternEngine]

namespace ModuleRules

variable {spec : ModuleSpec} {r : ModuleRules}

theorem compile_eq_ok_iff :
    compile spec = .ok r ↔
      spec.allowedCallers.mapM (Glob.compile .identifier) = .ok r.allowedCallers ∧
        spec.forbiddenCallers.mapM (Glob.compile .identifier) = .ok r.forbiddenCallers ∧
          r.featureFlags = spec.featureFlags ∧ r.requiresPermissions = spec.requiresPermissions := by
  unfold compile
  rw [bind_eq_ok_iff]
  constructor
  · rintro ⟨allowed, hallowed, h⟩
    obtain ⟨forbidden, hforbidden, h⟩ := bind_eq_ok_iff.1 h
    cases h
    exact ⟨hallowed, hforbidden, rfl, rfl⟩
  · rintro ⟨hallowed, hforbidden, hflags, hpermissions⟩
    refine ⟨_, hallowed, bind_eq_ok_iff.2 ⟨_, hforbidden, ?_⟩⟩
    rw [← hflags, ← hpermissions]
    rfl

theorem exists_compile_iff :
    (∃ r, compile spec = .ok r) ↔
      ∀ s ∈ spec.allowedCallers ++ spec.forbiddenCallers, Compiles .identifier s := by
  rw [List.forall_mem_append]
  simp only [Compiles, ← exists_mapM_iff]
  constructor
  · rintro ⟨r, h⟩
    obtain ⟨hallowed, hforbidden, -⟩ := compile_eq_ok_iff.1 h
    exact ⟨⟨_, hallowed⟩, _, hforbidden⟩
  · rintro ⟨⟨allowed, hallowed⟩, forbidden, hforbidden⟩
    exact ⟨⟨allowed, forbidden, spec.featureFlags, spec.requiresPermissions⟩,
      compile_eq_ok_iff.2 ⟨hallowed, hforbidden, rfl, rfl⟩⟩

/-- What is wrong with an import, in terms of the patterns as written. -/
theorem fault?_of_compile (h : compile spec = .ok r) (caller target : ModuleId)
    (imported : String) :
    r.fault? caller target imported =
      match spec.forbiddenCallers.find? (globMatches .identifier · caller.text) with
      | some pattern => some (.forbiddenCaller target imported pattern)
      | none =>
        if spec.allowedCallers.isEmpty ||
            spec.allowedCallers.any (globMatches .identifier · caller.text) then none
        else some (.callerNotAllowed target imported) := by
  obtain ⟨hallowed, hforbidden, -⟩ := compile_eq_ok_iff.1 h
  rw [fault?, forbids?, admits, ← Glob.find?_isMatch_of_mapM hforbidden,
    ← Glob.any_isMatch_of_mapM hallowed, ← Glob.isEmpty_of_mapM hallowed]
  cases r.forbiddenCallers.find? (·.isMatch caller.text) <;> rfl

end ModuleRules

/-- All patterns of the policy compile, those for paths and those for
identifiers. -/
def Policy.PatternsCompile (p : Policy) : Prop :=
  ∀ d ∈ p.declarations, (∀ s ∈ d.2.ownsPaths, Compiles .path s) ∧
    ∀ s ∈ d.2.allowedCallers ++ d.2.forbiddenCallers, Compiles .identifier s

namespace Checker

variable {p : Policy} {c : Checker}

/-- Compiles the rules of a declaration. -/
def compileRules (d : ModuleId × ModuleSpec) : Except PolicyFault (ModuleId × ModuleRules) := do
  let r ← ModuleRules.compile d.2
  pure (d.1, r)

theorem compileRules_eq_ok_iff {d : ModuleId × ModuleSpec} {e : ModuleId × ModuleRules} :
    compileRules d = .ok e ↔ e.1 = d.1 ∧ ModuleRules.compile d.2 = .ok e.2 := by
  unfold compileRules
  rw [bind_eq_ok_iff]
  constructor
  · rintro ⟨r, hr, h⟩
    cases h
    exact ⟨rfl, hr⟩
  · rintro ⟨hid, hr⟩
    exact ⟨e.2, hr, by rw [← hid]; rfl⟩

theorem ofPolicy_eq_ok_iff :
    ofPolicy p = .ok c ↔
      OwnershipIndex.ofPolicy p = .ok c.index ∧ p.declarations.mapM compileRules = .ok c.rules := by
  unfold ofPolicy
  rw [bind_eq_ok_iff]
  constructor
  · rintro ⟨index, hindex, h⟩
    obtain ⟨rules, hrules, h⟩ := bind_eq_ok_iff.1 h
    cases h
    exact ⟨hindex, hrules⟩
  · rintro ⟨hindex, hrules⟩
    exact ⟨_, hindex, bind_eq_ok_iff.2 ⟨_, hrules, rfl⟩⟩

/-- **A checker can be made if all patterns compile.** -/
theorem exists_ofPolicy_iff : (∃ c, ofPolicy p = .ok c) ↔ p.PatternsCompile := by
  have hparts : (∃ c, ofPolicy p = .ok c) ↔
      (∃ index, OwnershipIndex.ofPolicy p = .ok index) ∧
        ∃ rules, p.declarations.mapM compileRules = .ok rules := by
    constructor
    · rintro ⟨c, h⟩
      obtain ⟨hindex, hrules⟩ := ofPolicy_eq_ok_iff.1 h
      exact ⟨⟨_, hindex⟩, _, hrules⟩
    · rintro ⟨⟨index, hindex⟩, rules, hrules⟩
      exact ⟨⟨index, rules⟩, ofPolicy_eq_ok_iff.2 ⟨hindex, hrules⟩⟩
  have hrules : ∀ d : ModuleId × ModuleSpec, (∃ e, compileRules d = .ok e) ↔
      ∀ s ∈ d.2.allowedCallers ++ d.2.forbiddenCallers, Compiles .identifier s := fun d => by
    rw [← ModuleRules.exists_compile_iff]
    constructor
    · rintro ⟨e, h⟩
      exact ⟨e.2, (compileRules_eq_ok_iff.1 h).2⟩
    · rintro ⟨r, h⟩
      exact ⟨(d.1, r), compileRules_eq_ok_iff.2 ⟨rfl, h⟩⟩
  rw [hparts, OwnershipIndex.exists_ofPolicy_iff, exists_mapM_iff, Policy.PatternsCompile]
  simp only [hrules, ← forall₂_and]

/-- **Every declared module has rules,** made from its specification. -/
theorem exists_rules? (h : ofPolicy p = .ok c) {id : ModuleId} {spec : ModuleSpec}
    (hd : (id, spec) ∈ p.declarations) :
    ∃ rules, c.rules? id = some rules ∧ ModuleRules.compile spec = .ok rules := by
  have hall := mapM_eq_ok_iff.1 (ofPolicy_eq_ok_iff.1 h).2
  exact lookup_of_forall₂ (R := fun spec r => ModuleRules.compile spec = .ok r)
    (hall.imp fun _ _ => compileRules_eq_ok_iff.1) p.nodup_ids hd

theorem compile_of_rules? (h : ofPolicy p = .ok c) {id : ModuleId} {spec : ModuleSpec}
    (hd : (id, spec) ∈ p.declarations) {rules : ModuleRules} (hr : c.rules? id = some rules) :
    ModuleRules.compile spec = .ok rules := by
  obtain ⟨rules', hr', hcompile⟩ := exists_rules? h hd
  obtain rfl := Option.some.inj (hr'.symm.trans hr)
  exact hcompile

end Checker

end ModulePolicy
