/-
# Checkers that differ in the callers of one module

What a module asks of its callers is read in one place, where a file imports from
it. Two checkers that differ in this alone, for one module `t` (`DifferInCallers`),
have the same of everything else:

| | the same |
| --- | --- |
| owners of paths and of imports | always |
| records of required permissions, missing checks | always |
| flags that a file may mention | always |
| the violation of an import | unless it is an import from `t` |

So their reports go through the same places. What holds of the violations that each
of the imports from `t` has with either checker holds place by place of the reports
(`placeByPlace_violations`), and apart from these imports the reports agree
(`agreeApartFrom`).
-/

import ModulePolicy.Proofs.Collection.PlaceByPlace
import ModulePolicy.Proofs.Scan.Breach
import ModulePolicy.Proofs.Scan.FileOrder

namespace ModulePolicy

/-- What a module asks of its own files: the flags they may mention, and the
permissions one of which they must check. -/
def ModuleRules.demands (r : ModuleRules) : List String × List String :=
  (r.featureFlags, r.requiresPermissions)

/-- Two reports with the same in them but for the violations of imports from the
module `t`. -/
structure CheckReport.AgreeApartFrom (t : ModuleId) (r r' : CheckReport) : Prop where
  unownedFiles : r'.unownedFiles = r.unownedFiles
  filesChecked : r'.filesChecked = r.filesChecked
  violations : (r'.violations.filter fun v => v.target? ≠ some t) =
    r.violations.filter fun v => v.target? ≠ some t

/-- What is wrong with an import is laid to the module imported from. -/
theorem ModuleRules.target?_of_fault? {r : ModuleRules} {caller t : ModuleId}
    {imported : String} {cause : ViolationCause} (h : r.fault? caller t imported = some cause)
    (file : String) : Violation.target? ⟨file, caller, cause⟩ = some t := by
  unfold fault? at h
  split at h
  · cases h
    rfl
  · split at h
    · cases h
    · cases h
      rfl

namespace Checker

/-- Two checkers that differ in nothing but what the module `t` asks of its
callers. -/
structure DifferInCallers (t : ModuleId) (c c' : Checker) : Prop where
  index : c'.index = c.index
  demands : ∀ m, (c'.rules? m).map ModuleRules.demands = (c.rules? m).map ModuleRules.demands
  rules : ∀ m, m ≠ t → c'.rules? m = c.rules? m

namespace DifferInCallers

variable {t : ModuleId} {c c' : Checker} {R : Option Violation → Option Violation → Prop}

theorem moduleOf (h : DifferInCallers t c c') (value : String) :
    c'.moduleOf value = c.moduleOf value := by
  rw [Checker.moduleOf, Checker.moduleOf, h.index]

theorem importOwner (h : DifferInCallers t c c') (imported : String) :
    c'.importOwner imported = c.importOwner imported := by
  simp only [Checker.importOwner, h.moduleOf]

/-- A module has rules from both checkers, with the same demands, or from neither. -/
theorem rules?_cases (h : DifferInCallers t c c') (m : ModuleId) :
    (c.rules? m = none ∧ c'.rules? m = none) ∨
      ∃ r r', c.rules? m = some r ∧ c'.rules? m = some r' ∧
        r'.featureFlags = r.featureFlags ∧ r'.requiresPermissions = r.requiresPermissions := by
  have hdemands := h.demands m
  cases hr : c.rules? m with
  | none =>
    rw [hr] at hdemands
    exact .inl ⟨rfl, Option.map_eq_none_iff.1 hdemands⟩
  | some r =>
    rw [hr] at hdemands
    obtain ⟨r', hr', hsame⟩ := Option.map_eq_some_iff.1 hdemands
    exact .inr ⟨r, r', rfl, hr', Prod.mk.inj hsame⟩

theorem recordOf? (h : DifferInCallers t c c') (f : ScannedFile) :
    c'.recordOf? f = c.recordOf? f := by
  have hrequires : ∀ m,
      ((c'.rules? m).bind fun r =>
        if r.requiresPermissions.isEmpty then none else some (m, r.requiresPermissions)) =
      (c.rules? m).bind fun r =>
        if r.requiresPermissions.isEmpty then none else some (m, r.requiresPermissions) := by
    intro m
    rcases h.rules?_cases m with ⟨hr, hr'⟩ | ⟨r, r', hr, hr', -, hpermissions⟩
    · rw [hr, hr']
    · rw [hr, hr', Option.bind_some, Option.bind_some, hpermissions]
  simp only [Checker.recordOf?, requirementsAt?, h.moduleOf, hrequires]

theorem permissionViolation? (h : DifferInCallers t c c') (r : PermissionRecord) :
    c'.permissionViolation? r = c.permissionViolation? r := by
  unfold Checker.permissionViolation?
  rcases h.rules?_cases r.module with ⟨hr, hr'⟩ | ⟨rules, rules', hr, hr', -, hpermissions⟩
  · rw [hr, hr']
  · simp only [hr, hr', hpermissions]

theorem missingChecks (h : DifferInCallers t c c') (files : List ScannedFile) :
    c'.missingChecks files = c.missingChecks files := by
  have hpermissions : (files.foldl c'.visit .start).permissions =
      (files.foldl c.visit .start).permissions := by
    refine OrderedMap.ext_get? fun k => ?_
    rw [get?_foldl_visit, get?_foldl_visit, funext h.recordOf?]
  rw [Checker.missingChecks, Checker.missingChecks, hpermissions, funext h.permissionViolation?]

/-- **Imports from `t` are the only ones to compare.** -/
theorem violationAt? (h : DifferInCallers t c c') (hR : ∀ o, R o o)
    (hfault : ∀ r r', c.rules? t = some r → c'.rules? t = some r' → ∀ file caller imported,
      R ((r.fault? caller t imported).map (⟨file, caller, ·⟩))
        ((r'.fault? caller t imported).map (⟨file, caller, ·⟩)))
    (e : ScannedFile × ScannedImport) : R (c.violationAt? e) (c'.violationAt? e) := by
  unfold Checker.violationAt?
  rw [h.moduleOf]
  cases c.moduleOf e.1.path with
  | none => exact hR none
  | some m =>
    rw [Option.bind_some, Option.bind_some]
    unfold importViolation?
    rw [h.importOwner]
    cases c.importOwner e.2.target with
    | none => exact hR none
    | some target =>
      by_cases hm : target = m
      · simp only [if_pos hm]
        exact hR none
      by_cases ht : target = t
      · subst ht
        rcases h.rules?_cases target with ⟨hr, hr'⟩ | ⟨r, r', hr, hr', -⟩
        · simp only [if_neg hm, hr, hr']
          exact hR none
        · simp only [if_neg hm, hr, hr']
          exact hfault r r' hr hr' e.1.path m e.2.target
      · simp only [h.rules target ht]
        exact hR _

/-- What one file has, import by import. -/
theorem violationsOf (h : DifferInCallers t c c') (hR : ∀ o, R o o)
    (hat : ∀ e, R (c.violationAt? e) (c'.violationAt? e)) (f : ScannedFile) :
    PlaceByPlace R (c.violationsOf f) (c'.violationsOf f) := by
  have himport : ∀ m, c.moduleOf f.path = some m → ∀ i,
      R (c.importViolation? f.path m i) (c'.importViolation? f.path m i) := by
    intro m hm i
    have hi := hat (f, i)
    unfold Checker.violationAt? at hi
    rwa [h.moduleOf, hm, Option.bind_some, Option.bind_some] at hi
  unfold Checker.violationsOf
  rw [h.moduleOf]
  cases hm : c.moduleOf f.path with
  | none => exact .nil
  | some m =>
    rcases h.rules?_cases m with ⟨hr, hr'⟩ | ⟨r, r', hr, hr', hflags, -⟩
    · simp only [hr, hr']
      exact .nil
    · simp only [hr, hr', fileViolations, hflags]
      exact (PlaceByPlace.filterMap (himport m hm) f.imports).append (.refl hR _)

/-- **Reports are compared import by import.** -/
theorem placeByPlace_violations (h : DifferInCallers t c c') (hR : ∀ o, R o o)
    (hat : ∀ e, R (c.violationAt? e) (c'.violationAt? e)) (scan : Scan) :
    PlaceByPlace R (c.check scan).violations (c'.check scan).violations := by
  -- sorting leaves alone what is laid to one path
  refine .of_filter_key Violation.file (c.pairwise_file_violations_check scan)
    (c'.pairwise_file_violations_check scan) fun path => ?_
  rw [filter_file_violations_check, filter_file_violations_check, h.missingChecks]
  exact (PlaceByPlace.flatMap (h.violationsOf hR hat) _).append (.refl hR _)

/-- **Apart from the imports from `t` the reports agree.** -/
theorem agreeApartFrom (h : DifferInCallers t c c') (scan : Scan) :
    (c.check scan).AgreeApartFrom t (c'.check scan) where
  unownedFiles := by
    simp only [unownedFiles_check_eq, h.moduleOf]
  filesChecked := by
    rw [filesChecked_check, filesChecked_check]
  violations := by
    let apart := Option.filter fun v : Violation => v.target? ≠ some t
    have hnone : ∀ (r : ModuleRules) file caller imported,
        apart ((r.fault? caller t imported).map (⟨file, caller, ·⟩)) = none := by
      intro r file caller imported
      cases hcause : r.fault? caller t imported with
      | none => rfl
      | some cause => simp [apart, Option.filter, ModuleRules.target?_of_fault? hcause]
    have hat := h.violationAt? (R := fun o o' => apart o = apart o') (fun _ => rfl)
      fun r r' _ _ file caller imported =>
        (hnone r file caller imported).trans (hnone r' file caller imported).symm
    have hplaces := h.placeByPlace_violations (R := fun o o' => apart o = apart o')
      (fun _ => rfl) hat scan
    exact (hplaces.filter_eq fun _ _ => id).symm

end DifferInCallers

end Checker

end ModulePolicy
