/-
# Reports and the order of files

A checker sorts the files of a scan by path before it looks at them, so their
order in the scan can only matter between files with the same path. Two scans
with the same files, in whatever order, have reports with

| part | the same |
| --- | --- |
| unowned files, number of files | always |
| violations | up to order, and file by file |
| all of it | if no two files have the same path |

(`check_of_perm`). The records of required permissions do not depend on the order
either: whose the first file is depends on the paths alone, and these are sorted
(`permissions_of_perm`).
-/

import Mathlib.Data.List.Nodup
import ModulePolicy.Proofs.Scan.Permissions

namespace ModulePolicy

namespace Scan

variable {s t : Scan}

theorem sortedFiles_perm_of_perm (h : s.files.Perm t.files) :
    s.sortedFiles.Perm t.sortedFiles :=
  s.sortedFiles_perm.trans (h.trans t.sortedFiles_perm.symm)

theorem map_path_sortedFiles_of_perm (h : s.files.Perm t.files) :
    s.sortedFiles.map (·.path) = t.sortedFiles.map (·.path) :=
  map_key_mergeSort_of_perm ScannedFile.path h

/-- Files with different paths have one order. -/
theorem sortedFiles_eq_of_perm (h : s.files.Perm t.files)
    (hnodup : (s.files.map (·.path)).Nodup) : s.sortedFiles = t.sortedFiles := by
  refine List.Perm.eq_of_pairwise (fun f g hf hg hfg hgf => ?_) s.pairwise_sortedFiles
    t.pairwise_sortedFiles (sortedFiles_perm_of_perm h)
  have hf : f ∈ s.files := s.sortedFiles_perm.mem_iff.1 hf
  have hg : g ∈ s.files := h.mem_iff.2 (t.sortedFiles_perm.mem_iff.1 hg)
  exact List.inj_on_of_nodup_map hnodup hf hg (String.le_antisymm hfg hgf)

end Scan

namespace Checker

variable {c : Checker}

/-- Where the records of files come from, in terms of their paths. -/
theorem map_origin_filterMap_recordOf? (files : List ScannedFile) :
    (files.filterMap c.recordOf?).map PermissionRecord.origin =
      (files.map (·.path)).filterMap fun path =>
        (c.requirementsAt? path).map fun e => (e.1, path) := by
  rw [List.map_filterMap, List.filterMap_map]
  refine congrArg (List.filterMap · files) (funext fun f => ?_)
  rw [recordOf?, Option.map_map]
  rfl

/-- **The records do not depend on the order of files with the same path.** -/
theorem permissions_of_perm {files files' : List ScannedFile} (h : files.Perm files')
    (hpath : files.map (·.path) = files'.map (·.path)) :
    (files.foldl c.visit .start).permissions = (files'.foldl c.visit .start).permissions := by
  refine OrderedMap.ext_get? fun k => ?_
  rw [get?_foldl_visit, get?_foldl_visit]
  refine PermissionRecord.merge_eq_of_perm ((h.filterMap _).filter _) ?_
  have horigin : (files.filterMap c.recordOf?).map PermissionRecord.origin =
      (files'.filterMap c.recordOf?).map PermissionRecord.origin := by
    rw [map_origin_filterMap_recordOf?, map_origin_filterMap_recordOf?, hpath]
  -- the module of a record is part of its origin
  have hfilter := congrArg (List.filter fun e : ModuleId × String => e.1.text = k) horigin
  rw [List.filter_map, List.filter_map] at hfilter
  exact hfilter

theorem unownedFiles_check_eq (c : Checker) (scan : Scan) :
    (c.check scan).unownedFiles =
      (scan.sortedFiles.map (·.path)).filter fun path => c.moduleOf path = none := by
  rw [unownedFiles_check, List.filter_map]
  rfl

/-- **A report does not depend on the order of the files.** Scans with the same
files, in whatever order, have the same unowned files and the same number of
files. They have the same violations up to order, and the files these are found
in come in the same order. If no two files have the same path the reports are the
same. -/
theorem check_of_perm (c : Checker) {s t : Scan} (h : s.files.Perm t.files) :
    (c.check s).unownedFiles = (c.check t).unownedFiles ∧
      (c.check s).filesChecked = (c.check t).filesChecked ∧
      (c.check s).violations.Perm (c.check t).violations ∧
      (c.check s).violations.map (·.file) = (c.check t).violations.map (·.file) ∧
      ((s.files.map (·.path)).Nodup → c.check s = c.check t) := by
  have hpath := Scan.map_path_sortedFiles_of_perm h
  have hsorted := Scan.sortedFiles_perm_of_perm h
  have hmissing : c.missingChecks s.sortedFiles = c.missingChecks t.sortedFiles := by
    rw [missingChecks, missingChecks, permissions_of_perm hsorted hpath]
  have hfound : (s.sortedFiles.flatMap c.violationsOf ++ c.missingChecks s.sortedFiles).Perm
      (t.sortedFiles.flatMap c.violationsOf ++ c.missingChecks t.sortedFiles) :=
    (hsorted.flatMap_right _).append (hmissing ▸ List.Perm.refl _)
  refine ⟨?_, ?_, ?_, ?_, fun hnodup => ?_⟩
  · rw [unownedFiles_check_eq, unownedFiles_check_eq, hpath]
  · rw [filesChecked_check, filesChecked_check, h.length_eq]
  · rw [violations_check, violations_check]
    exact (List.mergeSort_perm _ _).trans (hfound.trans (List.mergeSort_perm _ _).symm)
  · rw [violations_check, violations_check]
    exact map_key_mergeSort_of_perm Violation.file hfound
  · rw [check, check, Scan.sortedFiles_eq_of_perm h hnodup]

/-! Two notes that a module owns, neither of which checks the permission it
requires, scanned in either order. -/

def notesId : ModuleId := ⟨"notes", by decide⟩

def notesChecker : Checker where
  index := ⟨[⟨notesId, ["notes/"], []⟩]⟩
  rules := [(notesId, ⟨[], [], [], ["notes.read"]⟩)]

def firstNote : ScannedFile := { path := "notes/a", featureFlags := ["beta"] }

def secondNote : ScannedFile := { path := "notes/b" }

theorem check_of_perm_notes :
    [firstNote, secondNote].Perm [secondNote, firstNote] ∧
      ([firstNote, secondNote].map (·.path)).Nodup ∧
      notesChecker.check { files := [firstNote, secondNote] } =
        notesChecker.check { language := "python", files := [secondNote, firstNote] } := by
  have hperm : [firstNote, secondNote].Perm [secondNote, firstNote] :=
    List.Perm.swap secondNote firstNote []
  have hnodup : ([firstNote, secondNote].map (·.path)).Nodup := by decide
  obtain ⟨-, -, -, -, heq⟩ := check_of_perm notesChecker
    (s := { files := [firstNote, secondNote] })
    (t := { language := "python", files := [secondNote, firstNote] }) hperm
  exact ⟨hperm, hnodup, heq hnodup⟩

end Checker

end ModulePolicy
