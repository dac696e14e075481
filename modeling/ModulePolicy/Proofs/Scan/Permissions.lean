/-
# Records of required permissions

A file of a module that requires permissions makes a record: the module, the
path, and whether the file checks one of them (`recordOf?`). Module and path
depend on the path of the file alone.

After a pass the records of one module are merged into one: the first file, and
whether any of them is checked (`get?_foldl_visit`). The modules without a
checked record have their violations in the report behind those of the files
(`violations_check`), also within the part about one path
(`filter_file_violations_check`).
-/

import Mathlib.Data.List.Induction
import ModulePolicy.Proofs.Scan.Pass

namespace ModulePolicy

namespace PermissionRecord

/-- Where a record comes from: the module and the file. -/
def origin (r : PermissionRecord) : ModuleId × String := (r.module, r.file)

/-- The record of several files of a module: the first of them, checked if one of
them is. -/
def merge : List PermissionRecord → Option PermissionRecord
  | [] => none
  | r :: rs => some { r with isChecked := (r :: rs).any (·.isChecked) }

theorem merge_concat (rs : List PermissionRecord) (r : PermissionRecord) :
    merge (rs ++ [r]) =
      let first := (merge rs).getD { r with isChecked := false }
      some { first with isChecked := first.isChecked || r.isChecked } := by
  cases rs with
  | nil => simp [merge]
  | cons r' rs => simp [merge, Bool.or_assoc]

/-- Records from the same places merge to the same record, whatever the order of
those from one place. -/
theorem merge_eq_of_perm {l m : List PermissionRecord} (hperm : l.Perm m)
    (horigin : l.map origin = m.map origin) : merge l = merge m := by
  cases l with
  | nil => rw [← hperm.nil_eq]
  | cons r rs =>
    cases m with
    | nil => cases horigin
    | cons r' rs' =>
      have hhead := (List.cons.inj horigin).1
      obtain ⟨hmodule, hfile⟩ := Prod.mk.inj hhead
      simp only [merge, hperm.any_eq, show r.module = r'.module from hmodule,
        show r.file = r'.file from hfile]

end PermissionRecord

open PermissionRecord

theorem get?_notePermission (module : ModuleId) (file : String) (isChecked : Bool)
    (records : OrderedMap PermissionRecord) (k : String) :
    (notePermission module file isChecked records).get? k =
      if k = module.text then
        let first := (records.get? k).getD ⟨module, file, false⟩
        some { first with isChecked := first.isChecked || isChecked }
      else records.get? k := by
  rw [notePermission, OrderedMap.get?_insert]
  split
  · rename_i h
    rw [h]
  · rfl

namespace Checker

variable {c : Checker}

/-- The module that a path belongs to and the permissions it requires, if it
requires any. -/
def requirementsAt? (c : Checker) (path : String) : Option (ModuleId × List String) :=
  (c.moduleOf path).bind fun module =>
    (c.rules? module).bind fun rules =>
      if rules.requiresPermissions.isEmpty then none
      else some (module, rules.requiresPermissions)

/-- What a file records for its module. -/
def recordOf? (c : Checker) (f : ScannedFile) : Option PermissionRecord :=
  (c.requirementsAt? f.path).map fun e => ⟨e.1, f.path, f.permissions.any e.2.contains⟩

theorem visit_permissions (pass : CheckPass) (f : ScannedFile) :
    (c.visit pass f).permissions =
      match c.recordOf? f with
      | none => pass.permissions
      | some r => notePermission r.module r.file r.isChecked pass.permissions := by
  unfold recordOf? requirementsAt?
  rcases c.visit_cases pass f with ⟨hm, h⟩ | ⟨module, hm, hr, h⟩ | ⟨module, rules, hm, hr, h⟩
  · simp only [h, hm, Option.bind_none, Option.map_none]
  · simp only [h, hm, hr, Option.bind_some, Option.bind_none, Option.map_none]
  · simp only [h, hm, hr, Option.bind_some]
    split <;> rfl

/-- **A pass keeps one record for each module,** merged from those of its files
in their order. -/
theorem get?_foldl_visit (files : List ScannedFile) (k : String) :
    (files.foldl c.visit .start).permissions.get? k =
      merge ((files.filterMap c.recordOf?).filter fun r => r.module.text = k) := by
  induction files using List.reverseRecOn with
  | nil => rfl
  | append_singleton files f ih =>
    rw [List.foldl_append, List.foldl_cons, List.foldl_nil, visit_permissions,
      List.filterMap_append, List.filter_append]
    cases hr : c.recordOf? f with
    | none => simp only [List.filterMap_cons_none hr, List.filterMap_nil, List.filter_nil,
        List.append_nil, ih]
    | some r =>
      rw [List.filterMap_cons_some hr, List.filterMap_nil, get?_notePermission, ih]
      by_cases hk : k = r.module.text
      · rw [if_pos hk, List.filter_cons_of_pos (by simp [hk]), List.filter_nil, merge_concat]
      · rw [if_neg hk, List.filter_cons_of_neg (by simpa using Ne.symm hk), List.filter_nil,
          List.append_nil]

/-- The violations of modules none of whose files checks what they require. -/
def missingChecks (c : Checker) (files : List ScannedFile) : List Violation :=
  ((files.foldl c.visit .start).permissions.entries.map (·.2)).filterMap c.permissionViolation?

/-- **The violations of a report** are those of the sorted files, then those of
missing checks, sorted by file. -/
theorem violations_check (c : Checker) (scan : Scan) :
    (c.check scan).violations =
      (scan.sortedFiles.flatMap c.violationsOf ++ c.missingChecks scan.sortedFiles).mergeSort
        fun v w => v.file ≤ w.file := by
  have hfound := foldl_visit_violations (c := c) scan.sortedFiles .start
  rw [CheckPass.start, List.nil_append] at hfound
  rw [← hfound]
  rfl

/-- A report ascends by file. -/
theorem pairwise_file_violations_check (c : Checker) (scan : Scan) :
    (c.check scan).violations.Pairwise fun v w => v.file ≤ w.file := by
  rw [violations_check]
  exact pairwise_mergeSort_key Violation.file _

/-- What a file has is laid to its path and about its imports or its flags. -/
theorem of_mem_violationsOf {f : ScannedFile} {v : Violation} (h : v ∈ c.violationsOf f) :
    v.file = f.path ∧ (v.isAboutImport ∨ v.kind = .undeclaredFeatureFlag) := by
  unfold violationsOf at h
  split at h
  · cases h
  split at h
  · cases h
  rcases List.mem_append.1 h with h | h
  · obtain ⟨i, -, hi⟩ := List.mem_filterMap.1 h
    obtain ⟨habout, hfile⟩ := isAboutImport_of_importViolation? hi
    exact ⟨hfile, .inl habout⟩
  · obtain ⟨flag, -, rfl⟩ := List.mem_map.1 h
    exact ⟨rfl, .inr rfl⟩

/-- What the files with one path have, among what all files have. -/
theorem filter_file_flatMap_violationsOf (files : List ScannedFile) (path : String) :
    ((files.flatMap c.violationsOf).filter fun v => v.file = path) =
      (files.filter fun f => f.path = path).flatMap c.violationsOf := by
  induction files with
  | nil => rfl
  | cons f files ih =>
    rw [List.flatMap_cons, List.filter_append, ih]
    by_cases hf : f.path = path
    · have hall : ∀ v ∈ c.violationsOf f, decide (v.file = path) := fun v hv =>
        decide_eq_true ((of_mem_violationsOf hv).1.trans hf)
      rw [List.filter_cons_of_pos (by simpa using hf), List.flatMap_cons,
        List.filter_eq_self.2 hall]
    · have hnone : ∀ v ∈ c.violationsOf f, ¬ decide (v.file = path) := fun v hv => by
        simpa [(of_mem_violationsOf hv).1] using hf
      rw [List.filter_cons_of_neg (by simpa using hf), List.filter_eq_nil_iff.2 hnone,
        List.nil_append]

/-- **The part of a report about one path**: what the files with this path have,
in the order of the scan, and behind it the missing checks laid to it. -/
theorem filter_file_violations_check (c : Checker) (scan : Scan) (path : String) :
    ((c.check scan).violations.filter fun v => v.file = path) =
      (scan.files.filter fun f => f.path = path).flatMap c.violationsOf ++
        (c.missingChecks scan.sortedFiles).filter fun v => v.file = path := by
  rw [violations_check, filter_mergeSort_key Violation.file, List.filter_append,
    filter_file_flatMap_violationsOf, scan.filter_path_sortedFiles]
  -- among violations of one file the sort has nothing to do
  refine List.pairwise_of_forall_mem_list fun v hv w hw => ?_
  have hv := of_decide_eq_true (List.mem_filter.1 hv).2
  have hw := of_decide_eq_true (List.mem_filter.1 hw).2
  exact hv.trans hw.symm ▸ String.le_refl _

end Checker

end ModulePolicy
