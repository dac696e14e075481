/-
# Checking file after file

A visit adds to the violations what the file itself has, and to the unowned
files the path of a file without owner. So a pass ends with what the files have,
one after the other (`foldl_visit_violations`, `foldl_visit_unownedFiles`).

Import violations come out of the report as they went in: the files are sorted
by path already when they are visited, so the last sort leaves them where they
are (`importViolations_check`).
-/

import ModulePolicy.Scan.Check
import ModulePolicy.Proofs.Collection.List

namespace ModulePolicy

namespace Scan

theorem sortedFiles_perm (scan : Scan) : scan.sortedFiles.Perm scan.files :=
  List.mergeSort_perm _ _

theorem length_sortedFiles (scan : Scan) : scan.sortedFiles.length = scan.files.length :=
  scan.sortedFiles_perm.length_eq

theorem pairwise_sortedFiles (scan : Scan) :
    scan.sortedFiles.Pairwise fun f g => f.path ≤ g.path :=
  pairwise_mergeSort_key ScannedFile.path scan.files

/-- Files with the same path stay in the order of the scan. -/
theorem filter_path_sortedFiles (scan : Scan) (path : String) :
    (scan.sortedFiles.filter fun f => f.path = path) =
      scan.files.filter fun f => f.path = path := by
  refine filter_mergeSort_key ScannedFile.path (List.pairwise_of_forall_mem_list ?_)
  intro f hf g hg
  have hf := of_decide_eq_true (List.mem_filter.1 hf).2
  have hg := of_decide_eq_true (List.mem_filter.1 hg).2
  exact hf.trans hg.symm ▸ String.le_refl _

end Scan

/-- Whether a violation is about an import. -/
def Violation.isAboutImport (v : Violation) : Bool :=
  v.kind = .forbiddenCaller || v.kind = .callerNotAllowed

namespace Checker

variable {c : Checker}

/-- What one file has, if it has an owner. -/
def violationsOf (c : Checker) (f : ScannedFile) : List Violation :=
  match c.moduleOf f.path with
  | none => []
  | some module =>
    match c.rules? module with
    | none => []
    | some rules => c.fileViolations f module rules

/-- **What a visit does.** A file without owner is noted; one of a module without
rules is passed over; of any other the violations are added and, if its module
requires permissions, its record is kept. -/
theorem visit_cases (c : Checker) (pass : CheckPass) (f : ScannedFile) :
    (c.moduleOf f.path = none ∧
      c.visit pass f = { pass with unownedFiles := pass.unownedFiles ++ [f.path] }) ∨
    (∃ module, c.moduleOf f.path = some module ∧ c.rules? module = none ∧
      c.visit pass f = pass) ∨
    ∃ module rules, c.moduleOf f.path = some module ∧ c.rules? module = some rules ∧
      c.visit pass f =
        { pass with
          violations := pass.violations ++ c.fileViolations f module rules
          permissions :=
            if rules.requiresPermissions.isEmpty then pass.permissions
            else notePermission module f.path
              (f.permissions.any rules.requiresPermissions.contains) pass.permissions } := by
  unfold visit
  cases hm : c.moduleOf f.path with
  | none => exact .inl ⟨rfl, rfl⟩
  | some module =>
    cases hr : c.rules? module with
    | none => exact .inr (.inl ⟨module, rfl, hr, by simp only [hr]⟩)
    | some rules => exact .inr (.inr ⟨module, rules, rfl, hr, by simp only [hr]⟩)

theorem visit_violations (pass : CheckPass) (f : ScannedFile) :
    (c.visit pass f).violations = pass.violations ++ c.violationsOf f := by
  unfold violationsOf
  rcases c.visit_cases pass f with ⟨hm, h⟩ | ⟨module, hm, hr, h⟩ | ⟨module, rules, hm, hr, h⟩
  · simp only [h, hm, List.append_nil]
  · simp only [h, hm, hr, List.append_nil]
  · simp only [h, hm, hr]

theorem foldl_visit_violations (files : List ScannedFile) (pass : CheckPass) :
    (files.foldl c.visit pass).violations = pass.violations ++ files.flatMap c.violationsOf := by
  induction files generalizing pass with
  | nil => exact (List.append_nil _).symm
  | cons f files ih =>
    rw [List.foldl_cons, ih, visit_violations, List.append_assoc, List.flatMap_cons]

theorem visit_unownedFiles (pass : CheckPass) (f : ScannedFile) :
    (c.visit pass f).unownedFiles =
      pass.unownedFiles ++ if c.moduleOf f.path = none then [f.path] else [] := by
  rcases c.visit_cases pass f with ⟨hm, h⟩ | ⟨module, hm, -, h⟩ | ⟨module, rules, hm, -, h⟩
  · rw [h, if_pos hm]
  · rw [h, hm, if_neg (Option.some_ne_none module), List.append_nil]
  · rw [h, hm, if_neg (Option.some_ne_none module), List.append_nil]

theorem foldl_visit_unownedFiles (files : List ScannedFile) (pass : CheckPass) :
    (files.foldl c.visit pass).unownedFiles =
      pass.unownedFiles ++ (files.filter fun f => c.moduleOf f.path = none).map (·.path) := by
  induction files generalizing pass with
  | nil => exact (List.append_nil _).symm
  | cons f files ih =>
    rw [List.foldl_cons, ih, visit_unownedFiles, List.append_assoc, List.filter_cons]
    by_cases h : c.moduleOf f.path = none <;> simp [h]

/-- What is wrong with an import is about the import. -/
theorem isAboutImport_of_importViolation? {file : String} {module : ModuleId}
    {i : ScannedImport} {v : Violation} (h : c.importViolation? file module i = some v) :
    v.isAboutImport ∧ v.file = file := by
  unfold importViolation? at h
  split at h
  · cases h
  split at h
  · cases h
  split at h
  · cases h
  obtain ⟨cause, hcause, rfl⟩ := Option.map_eq_some_iff.1 h
  refine ⟨?_, rfl⟩
  unfold ModuleRules.fault? at hcause
  split at hcause
  · cases hcause
    rfl
  · split at hcause
    · cases hcause
    · cases hcause
      rfl

/-- The violations of the imports of one file, if it has an owner. -/
def importViolationsOf (c : Checker) (f : ScannedFile) : List Violation :=
  match c.moduleOf f.path with
  | none => []
  | some module =>
    match c.rules? module with
    | none => []
    | some _ => f.imports.filterMap (c.importViolation? f.path module)

theorem filter_fileViolations (f : ScannedFile) (module : ModuleId) (rules : ModuleRules) :
    (c.fileViolations f module rules).filter Violation.isAboutImport =
      f.imports.filterMap (c.importViolation? f.path module) := by
  rw [fileViolations, List.filter_append, List.filter_eq_self.2, List.filter_eq_nil_iff.2,
    List.append_nil]
  · intro v hv
    obtain ⟨flag, -, rfl⟩ := List.mem_map.1 hv
    exact Bool.false_ne_true
  · intro v hv
    obtain ⟨i, -, hi⟩ := List.mem_filterMap.1 hv
    exact (isAboutImport_of_importViolation? hi).1

theorem filter_violationsOf (f : ScannedFile) :
    (c.violationsOf f).filter Violation.isAboutImport = c.importViolationsOf f := by
  unfold violationsOf importViolationsOf
  cases c.moduleOf f.path with
  | none => rfl
  | some module =>
    cases hrules : c.rules? module with
    | none => simp only [hrules, List.filter_nil]
    | some rules => simp only [hrules, filter_fileViolations]

theorem file_of_mem_importViolationsOf {f : ScannedFile} {v : Violation}
    (h : v ∈ c.importViolationsOf f) : v.file = f.path := by
  unfold importViolationsOf at h
  split at h
  · cases h
  split at h
  · cases h
  obtain ⟨i, -, hi⟩ := List.mem_filterMap.1 h
  exact (isAboutImport_of_importViolation? hi).2

theorem not_isAboutImport_of_permissionViolation? {r : PermissionRecord} {v : Violation}
    (h : c.permissionViolation? r = some v) : ¬ v.isAboutImport := by
  unfold permissionViolation? at h
  split at h
  · cases h
  · cases h
    exact Bool.false_ne_true

theorem pairwise_flatMap_importViolationsOf (scan : Scan) :
    (scan.sortedFiles.flatMap c.importViolationsOf).Pairwise fun v w => v.file ≤ w.file := by
  refine List.pairwise_flatMap.2 ⟨fun f _ => List.pairwise_of_forall_mem_list ?_, ?_⟩
  · intro v hv w hw
    have hfile : v.file = w.file :=
      (file_of_mem_importViolationsOf hv).trans (file_of_mem_importViolationsOf hw).symm
    exact hfile ▸ String.le_refl _
  · refine scan.pairwise_sortedFiles.imp fun {f g} hfg v hv w hw => ?_
    rw [file_of_mem_importViolationsOf hv, file_of_mem_importViolationsOf hw]
    exact hfg

/-- **The report keeps the import violations in the order of the imports,** file
after file. -/
theorem importViolations_check (c : Checker) (scan : Scan) :
    (c.check scan).violations.filter Violation.isAboutImport =
      scan.sortedFiles.flatMap c.importViolationsOf := by
  unfold check
  extract_lets files pass missing
  have hmissing : ∀ v ∈ missing, ¬ v.isAboutImport := by
    intro v hv
    obtain ⟨r, -, hr⟩ := List.mem_filterMap.1 hv
    exact not_isAboutImport_of_permissionViolation? hr
  have found : (pass.violations ++ missing).filter Violation.isAboutImport =
      files.flatMap c.importViolationsOf := by
    rw [List.filter_append, List.filter_eq_nil_iff.2 hmissing, List.append_nil,
      foldl_visit_violations, CheckPass.start, List.nil_append, List.filter_flatMap]
    exact congrArg (files.flatMap ·) (funext filter_violationsOf)
  -- the missing permission checks do not count, so what is left ascends by file
  rw [filter_mergeSort_key Violation.file, found]
  exact found ▸ pairwise_flatMap_importViolationsOf scan

theorem unownedFiles_check (c : Checker) (scan : Scan) :
    (c.check scan).unownedFiles =
      (scan.sortedFiles.filter fun f => c.moduleOf f.path = none).map (·.path) :=
  foldl_visit_unownedFiles scan.sortedFiles .start

theorem filesChecked_check (c : Checker) (scan : Scan) :
    (c.check scan).filesChecked = scan.files.length :=
  scan.length_sortedFiles

end Checker

end ModulePolicy
