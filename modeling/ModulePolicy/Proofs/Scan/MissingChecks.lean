/-
# Missing permission checks

A module lacks a check if it requires permissions and owns files, none of which
checks one of them (`LacksCheck`). This is in terms of the policy as written and
of all files of the scan. A checker goes through the files one after the other,
with a record for each module. At the end there is one violation for each module
that lacks a check:

| part | content |
| --- | --- |
| file | the least path among the files of the module |
| cause | the permissions that the module requires |
| place | behind all other violations of this path |

(`missing_checks_exact`). That no other module's missing check can be laid to the
same path is because a path has one owner.
-/

import Mathlib.Data.List.Nodup
import Mathlib.Order.Bounds.Defs
import ModulePolicy.Proofs.Scan.Breach
import ModulePolicy.Proofs.Scan.Permissions

namespace ModulePolicy

/-- A module that requires permissions owns files, and none of them checks one of
these. -/
structure LacksCheck (p : Policy) (index : OwnershipIndex) (scan : Scan) (m : ModuleId)
    (spec : ModuleSpec) : Prop where
  declared : (m, spec) ∈ p.declarations
  requires : spec.requiresPermissions ≠ []
  owns : ∃ f ∈ scan.files, index.Owns f.path m
  unchecked : ∀ f ∈ scan.files, index.Owns f.path m →
    ∀ permission ∈ f.permissions, permission ∉ spec.requiresPermissions

/-- The paths of the files that a module owns. -/
def ownedPaths (index : OwnershipIndex) (scan : Scan) (m : ModuleId) : Set String :=
  {path | index.Owns path m ∧ ∃ f ∈ scan.files, f.path = path}

/-- Whether a violation is for a missing check of a module. -/
def Violation.isMissingCheckOf (m : ModuleId) (v : Violation) : Bool :=
  v.module = m && v.kind = .missingPermissionCheck

namespace Checker

variable {p : Policy} {c : Checker} {m : ModuleId} {spec : ModuleSpec} {scan : Scan}

/-- The sorted files of a module. -/
def ownedFiles (c : Checker) (scan : Scan) (m : ModuleId) : List ScannedFile :=
  scan.sortedFiles.filter fun f => c.moduleOf f.path = some m

theorem mem_ownedFiles_iff {f : ScannedFile} :
    f ∈ c.ownedFiles scan m ↔ f ∈ scan.files ∧ c.index.Owns f.path m := by
  rw [ownedFiles, List.mem_filter, scan.sortedFiles_perm.mem_iff, decide_eq_true_iff,
    moduleOf_eq_some_iff]

/-- The first of the sorted files has the least path. -/
theorem isLeast_ownedPaths {f : ScannedFile} (hf : (c.ownedFiles scan m).head? = some f) :
    IsLeast (ownedPaths c.index scan m) f.path := by
  obtain ⟨fs, hfs⟩ := List.head?_eq_some_iff.1 hf
  have hsorted : (f :: fs).Pairwise fun f g => f.path ≤ g.path :=
    hfs ▸ scan.pairwise_sortedFiles.filter _
  obtain ⟨hmem, howns⟩ := mem_ownedFiles_iff.1 (hfs ▸ List.mem_cons_self : f ∈ c.ownedFiles scan m)
  refine ⟨⟨howns, f, hmem, rfl⟩, ?_⟩
  rintro _ ⟨howns, g, hg, rfl⟩
  have hg : g ∈ f :: fs := hfs ▸ mem_ownedFiles_iff.2 ⟨hg, howns⟩
  rcases List.mem_cons.1 hg with rfl | hg
  · exact String.le_refl _
  · exact (List.pairwise_cons.1 hsorted).1 g hg

/-- A module that requires permissions lacks a check if its files are some and all
unchecked. -/
theorem lacksCheck_iff (hd : (m, spec) ∈ p.declarations)
    (hrequires : spec.requiresPermissions ≠ []) :
    LacksCheck p c.index scan m spec ↔ (∃ f, (c.ownedFiles scan m).head? = some f) ∧
      ¬ (c.ownedFiles scan m).any fun f =>
        f.permissions.any spec.requiresPermissions.contains := by
  have hchecked : (¬ (c.ownedFiles scan m).any fun f =>
        f.permissions.any spec.requiresPermissions.contains) ↔
      ∀ f ∈ scan.files, c.index.Owns f.path m →
        ∀ permission ∈ f.permissions, permission ∉ spec.requiresPermissions := by
    simp only [List.any_eq_true, mem_ownedFiles_iff, List.contains_iff_mem, not_exists, not_and,
      and_imp]
  rw [hchecked]
  constructor
  · rintro ⟨-, -, ⟨f, hf, howns⟩, hunchecked⟩
    have hne := List.ne_nil_of_mem (mem_ownedFiles_iff.2 ⟨hf, howns⟩)
    exact ⟨⟨_, List.head?_eq_some_head hne⟩, hunchecked⟩
  · rintro ⟨⟨f, hf⟩, hunchecked⟩
    exact ⟨hd, hrequires, ⟨f, mem_ownedFiles_iff.1 (List.mem_of_head? hf)⟩, hunchecked⟩

theorem module_of_permissionViolation? {r : PermissionRecord} {v : Violation}
    (h : c.permissionViolation? r = some v) : v.module = r.module := by
  unfold permissionViolation? at h
  split at h
  · cases h
  · cases h
    rfl

section AnyEngine

variable [PatternEngine]

/-- What a file of a declared module records. -/
theorem recordOf?_of_owns (h : ofPolicy p = .ok c) (hd : (m, spec) ∈ p.declarations)
    {f : ScannedFile} (hm : c.moduleOf f.path = some m) :
    c.recordOf? f =
      if spec.requiresPermissions = [] then none
      else some ⟨m, f.path, f.permissions.any spec.requiresPermissions.contains⟩ := by
  obtain ⟨rules, hrules, hcompile⟩ := exists_rules? h hd
  have hspec := (ModuleRules.compile_eq_ok_iff.1 hcompile).2.2.2
  simp only [recordOf?, requirementsAt?, hm, hrules, hspec, Option.bind_some, List.isEmpty_iff]
  split <;> rfl

/-- A file that records something belongs to a declared module that requires
permissions. -/
theorem owner_of_recordOf? (h : ofPolicy p = .ok c) {f : ScannedFile} {r : PermissionRecord}
    (hr : c.recordOf? f = some r) :
    c.moduleOf f.path = some r.module ∧
      ∃ spec, (r.module, spec) ∈ p.declarations ∧ spec.requiresPermissions ≠ [] := by
  cases hm : c.moduleOf f.path with
  | none =>
    rw [recordOf?, requirementsAt?, hm] at hr
    cases hr
  | some m =>
    have howns := moduleOf_eq_some_iff.1 hm
    obtain ⟨spec, hd⟩ := howns.exists_mem_declarations (ofPolicy_eq_ok_iff.1 h).1
    rw [recordOf?_of_owns h hd hm] at hr
    split at hr
    · cases hr
    · rename_i hrequires
      cases hr
      exact ⟨rfl, spec, hd, hrequires⟩

/-- The records of a module that requires permissions are those of its files. -/
theorem filter_module_recordOf? (h : ofPolicy p = .ok c) (hd : (m, spec) ∈ p.declarations)
    (hrequires : spec.requiresPermissions ≠ []) (files : List ScannedFile) :
    ((files.filterMap c.recordOf?).filter fun r => r.module.text = m.text) =
      (files.filter fun f => c.moduleOf f.path = some m).map fun f =>
        ⟨m, f.path, f.permissions.any spec.requiresPermissions.contains⟩ := by
  induction files with
  | nil => rfl
  | cons f files ih =>
    by_cases hm : c.moduleOf f.path = some m
    · have hr := recordOf?_of_owns h hd hm
      rw [if_neg hrequires] at hr
      rw [List.filterMap_cons_some hr, List.filter_cons_of_pos (by simp), ih,
        List.filter_cons_of_pos (by simpa using hm), List.map_cons]
    · rw [List.filter_cons_of_neg (by simpa using hm), ← ih]
      cases hr : c.recordOf? f with
      | none => rw [List.filterMap_cons_none hr]
      | some r =>
        have hne : r.module.text ≠ m.text := fun htext =>
          hm (ModuleId.ext htext ▸ (owner_of_recordOf? h hr).1)
        rw [List.filterMap_cons_some hr, List.filter_cons_of_neg (by simpa using hne)]

/-- **The record that a pass keeps of a module** is laid to its first file, and
checked if one of its files checks a required permission. -/
theorem get?_permissions (h : ofPolicy p = .ok c) (hd : (m, spec) ∈ p.declarations)
    (hrequires : spec.requiresPermissions ≠ []) (files : List ScannedFile) :
    (files.foldl c.visit .start).permissions.get? m.text =
      let owned := files.filter fun f => c.moduleOf f.path = some m
      owned.head?.map fun f => ⟨m, f.path, owned.any fun f =>
        f.permissions.any spec.requiresPermissions.contains⟩ := by
  rw [get?_foldl_visit, filter_module_recordOf? h hd hrequires]
  extract_lets owned
  change PermissionRecord.merge (owned.map _) = _
  cases owned with
  | nil => rfl
  | cons f fs => simp only [List.map_cons, PermissionRecord.merge, List.head?_cons, Option.map_some,
      List.any_cons, List.any_map, Function.comp_def]

/-- A record is kept for a declared module that requires permissions, under its
text. -/
theorem exists_declared_of_get? (h : ofPolicy p = .ok c) {files : List ScannedFile} {k : String}
    {r : PermissionRecord} (hr : (files.foldl c.visit .start).permissions.get? k = some r) :
    ∃ spec, (r.module, spec) ∈ p.declarations ∧ spec.requiresPermissions ≠ [] ∧
      r.module.text = k := by
  rw [get?_foldl_visit] at hr
  cases hrecords : (files.filterMap c.recordOf?).filter fun r => r.module.text = k with
  | nil =>
    rw [hrecords] at hr
    cases hr
  | cons first rest =>
    rw [hrecords] at hr
    obtain rfl := Option.some.inj hr
    have hfirst : first ∈ (files.filterMap c.recordOf?).filter fun r => r.module.text = k :=
      hrecords ▸ List.mem_cons_self
    obtain ⟨hmem, hk⟩ := List.mem_filter.1 hfirst
    obtain ⟨f, -, hf⟩ := List.mem_filterMap.1 hmem
    obtain ⟨-, spec, hd, hrequires⟩ := owner_of_recordOf? h hf
    exact ⟨spec, hd, hrequires, of_decide_eq_true hk⟩

theorem permissionViolation?_of_declared (h : ofPolicy p = .ok c) (hd : (m, spec) ∈ p.declarations)
    (file : String) (isChecked : Bool) :
    c.permissionViolation? ⟨m, file, isChecked⟩ =
      if isChecked then none
      else some ⟨file, m, .missingPermissionCheck spec.requiresPermissions⟩ := by
  obtain ⟨rules, hrules, hcompile⟩ := exists_rules? h hd
  have hspec := (ModuleRules.compile_eq_ok_iff.1 hcompile).2.2.2
  simp only [permissionViolation?, hrules, hspec]

/-- **What a record comes to.** The record of a module that requires permissions
makes a violation if the module lacks a check. -/
theorem permissionViolation?_of_get?_eq_some_iff (h : ofPolicy p = .ok c)
    (hd : (m, spec) ∈ p.declarations) (hrequires : spec.requiresPermissions ≠ [])
    {v : Violation} :
    ((scan.sortedFiles.foldl c.visit .start).permissions.get? m.text).bind
        c.permissionViolation? = some v ↔
      LacksCheck p c.index scan m spec ∧ IsLeast (ownedPaths c.index scan m) v.file ∧
        v.module = m ∧ v.cause = .missingPermissionCheck spec.requiresPermissions := by
  rw [get?_permissions h hd hrequires, lacksCheck_iff hd hrequires, ← ownedFiles]
  extract_lets owned
  cases hhead : owned.head? with
  | none => simp
  | some f =>
    have hleast := isLeast_ownedPaths hhead
    rw [Option.map_some, Option.bind_some, permissionViolation?_of_declared h hd]
    constructor
    · intro hv
      split at hv
      · cases hv
      · rename_i hunchecked
        cases hv
        exact ⟨⟨⟨f, rfl⟩, hunchecked⟩, hleast, rfl, rfl⟩
    · rintro ⟨⟨-, hunchecked⟩, hfile, rfl, hcause⟩
      have hpath : f.path = v.file :=
        String.le_antisymm (hleast.2 hfile.1) (hfile.2 hleast.1)
      rw [if_neg hunchecked, hpath, ← hcause]

/-- **The missing checks of a scan.** Each is for a module that lacks a check, and
laid to the least path that the module owns. -/
theorem mem_missingChecks_iff (h : ofPolicy p = .ok c) {v : Violation} :
    v ∈ c.missingChecks scan.sortedFiles ↔
      ∃ spec, LacksCheck p c.index scan v.module spec ∧
        IsLeast (ownedPaths c.index scan v.module) v.file ∧
          v.cause = .missingPermissionCheck spec.requiresPermissions := by
  simp only [missingChecks, List.mem_filterMap, List.mem_map, Prod.exists]
  constructor
  · rintro ⟨r, ⟨k, r, hr, rfl⟩, hv⟩
    have hget := OrderedMap.get?_eq_some_iff.2 hr
    obtain ⟨spec, hd, hrequires, rfl⟩ := exists_declared_of_get? h hget
    obtain ⟨hlacks, hfile, hmodule, hcause⟩ :=
      (permissionViolation?_of_get?_eq_some_iff h hd hrequires).1 (by rw [hget]; exact hv)
    exact ⟨spec, hmodule ▸ hlacks, hmodule ▸ hfile, hcause⟩
  · rintro ⟨spec, hlacks, hfile, hcause⟩
    obtain ⟨r, hr, hv⟩ := Option.bind_eq_some_iff.1 <|
      (permissionViolation?_of_get?_eq_some_iff h hlacks.declared hlacks.requires).2
        ⟨hlacks, hfile, rfl, hcause⟩
    exact ⟨r, ⟨_, r, OrderedMap.get?_eq_some_iff.1 hr, rfl⟩, hv⟩

/-- A module has one missing check at most. -/
theorem eq_of_mem_missingChecks (h : ofPolicy p = .ok c) {v w : Violation}
    (hv : v ∈ c.missingChecks scan.sortedFiles) (hw : w ∈ c.missingChecks scan.sortedFiles)
    (hmodule : v.module = w.module) : v = w := by
  obtain ⟨spec, hlacks, hfile, hcause⟩ := (mem_missingChecks_iff h).1 hv
  obtain ⟨spec', hlacks', hfile', hcause'⟩ := (mem_missingChecks_iff h).1 hw
  rw [← hmodule] at hlacks' hfile'
  have hspec : (v.module, spec) = (v.module, spec') :=
    List.inj_on_of_nodup_map p.nodup_ids hlacks.declared hlacks'.declared rfl
  have hpath : v.file = w.file := String.le_antisymm (hfile.2 hfile'.1) (hfile'.2 hfile.1)
  have hsame : v.cause = w.cause := by rw [hcause, hcause', (Prod.mk.inj hspec).2]
  cases v; cases w; cases hmodule; cases hpath; cases hsame; rfl

/-- Two missing checks are never laid to one path, which has one owner. -/
theorem module_eq_of_file_eq (h : ofPolicy p = .ok c) {v w : Violation}
    (hv : v ∈ c.missingChecks scan.sortedFiles) (hw : w ∈ c.missingChecks scan.sortedFiles)
    (hfile : v.file = w.file) : v.module = w.module := by
  obtain ⟨-, -, ⟨⟨howns, -⟩, -⟩, -⟩ := (mem_missingChecks_iff h).1 hv
  obtain ⟨-, -, ⟨⟨howns', -⟩, -⟩, -⟩ := (mem_missingChecks_iff h).1 hw
  rw [hfile] at howns
  exact Option.some.inj ((moduleOf_eq_some_iff.2 howns).symm.trans (moduleOf_eq_some_iff.2 howns'))

/-- The missing checks come from records of different modules. -/
theorem nodup_missingChecks (h : ofPolicy p = .ok c) (files : List ScannedFile) :
    (c.missingChecks files).Nodup := by
  refine List.Pairwise.filterMap (R := fun r r' => r.module ≠ r'.module) _ ?_ ?_
  · rintro r r' hne v hv _ hv' rfl
    exact hne ((module_of_permissionViolation? hv).symm.trans (module_of_permissionViolation? hv'))
  · have hascending := (files.foldl c.visit .start).permissions.ascending
    refine List.pairwise_map.2 (hascending.imp_of_mem fun {e e'} he he' hlt hmodule => ?_)
    obtain ⟨-, -, -, htext⟩ := exists_declared_of_get? h (OrderedMap.get?_eq_some_iff.2 he)
    obtain ⟨-, -, -, htext'⟩ := exists_declared_of_get? h (OrderedMap.get?_eq_some_iff.2 he')
    rw [← htext, ← htext', hmodule] at hlt
    exact String.lt_irrefl _ hlt

/-- **The violations for missing checks** in a report are the missing checks. -/
theorem filter_missingChecks_perm (h : ofPolicy p = .ok c) (scan : Scan) :
    ((c.check scan).violations.filter fun v => v.kind = .missingPermissionCheck).Perm
      (c.missingChecks scan.sortedFiles) := by
  have hfound : ∀ v ∈ scan.sortedFiles.flatMap c.violationsOf,
      ¬ decide (v.kind = .missingPermissionCheck) := fun v hv => by
    obtain ⟨f, -, hv⟩ := List.mem_flatMap.1 hv
    rcases (of_mem_violationsOf hv).2 with habout | hflag
    · intro hkind
      rw [Violation.isAboutImport, of_decide_eq_true hkind] at habout
      cases habout
    · simp [hflag]
  have hmissing : ∀ v ∈ c.missingChecks scan.sortedFiles,
      decide (v.kind = .missingPermissionCheck) := fun v hv => by
    obtain ⟨spec, -, -, hcause⟩ := (mem_missingChecks_iff h).1 hv
    simp only [Violation.kind, hcause, decide_true]
  rw [violations_check]
  refine ((List.mergeSort_perm _ _).filter _).trans (List.Perm.of_eq ?_)
  rw [List.filter_append, List.filter_eq_nil_iff.2 hfound, List.nil_append,
    List.filter_eq_self.2 hmissing]

/-- A missing check is the only one that the report has for its module. -/
theorem filter_isMissingCheckOf (h : ofPolicy p = .ok c) {v : Violation}
    (hv : v ∈ c.missingChecks scan.sortedFiles) :
    (c.check scan).violations.filter (·.isMissingCheckOf v.module) = [v] := by
  have hone : (c.missingChecks scan.sortedFiles).filter (fun w => w.module = v.module) = [v] := by
    refine filter_eq_singleton (nodup_missingChecks h _) hv fun w hw => ?_
    rw [decide_eq_true_iff]
    exact ⟨eq_of_mem_missingChecks h hw hv, fun hwv => hwv ▸ rfl⟩
  have hperm := (filter_missingChecks_perm h scan).filter fun w => decide (w.module = v.module)
  rw [hone, List.filter_filter] at hperm
  exact List.perm_singleton.1 hperm

/-- A missing check is the last violation that the report has for its path. -/
theorem getLast?_filter_file (h : ofPolicy p = .ok c) {v : Violation}
    (hv : v ∈ c.missingChecks scan.sortedFiles) :
    ((c.check scan).violations.filter fun w => w.file = v.file).getLast? = some v := by
  have hone : (c.missingChecks scan.sortedFiles).filter (fun w => w.file = v.file) = [v] := by
    refine filter_eq_singleton (nodup_missingChecks h _) hv fun w hw => ?_
    rw [decide_eq_true_iff]
    exact ⟨fun hfile => eq_of_mem_missingChecks h hw hv (module_eq_of_file_eq h hw hv hfile),
      fun hwv => hwv ▸ rfl⟩
  rw [filter_file_violations_check, hone, List.getLast?_concat]

/-- **Missing checks are reported once and only when due.** If all patterns of a
policy compile there is a checker. Its report on a scan has a violation for a
missing check of a module if and only if the module lacks a check. There is one
then. It is laid to the least path that the module owns, without a target, and
comes last among the violations of this path. -/
theorem missing_checks_exact (p : Policy) (hp : p.PatternsCompile) :
    ∃ c, ofPolicy p = .ok c ∧ OwnershipIndex.ofPolicy p = .ok c.index ∧
      ∀ (scan : Scan) (m : ModuleId),
        ((∃ v ∈ (c.check scan).violations, v.isMissingCheckOf m) ↔
          ∃ spec, LacksCheck p c.index scan m spec) ∧
        ∀ spec, LacksCheck p c.index scan m spec → ∃ v : Violation,
          (c.check scan).violations.filter (·.isMissingCheckOf m) = [v] ∧
            IsLeast (ownedPaths c.index scan m) v.file ∧
              v.cause = .missingPermissionCheck spec.requiresPermissions ∧ v.target? = none ∧
                ((c.check scan).violations.filter fun w => w.file = v.file).getLast? = some v := by
  obtain ⟨c, hc⟩ := exists_ofPolicy_iff.2 hp
  refine ⟨c, hc, (ofPolicy_eq_ok_iff.1 hc).1, fun scan m => ?_⟩
  have due : ∀ spec, LacksCheck p c.index scan m spec →
      ∃ v ∈ c.missingChecks scan.sortedFiles, v.module = m ∧
        IsLeast (ownedPaths c.index scan m) v.file ∧
          v.cause = .missingPermissionCheck spec.requiresPermissions := by
    intro spec hlacks
    obtain ⟨⟨f, hf⟩, -⟩ := (lacksCheck_iff hlacks.declared hlacks.requires).1 hlacks
    have hleast := isLeast_ownedPaths hf
    exact ⟨⟨f.path, m, _⟩, (mem_missingChecks_iff hc).2 ⟨spec, hlacks, hleast, rfl⟩, rfl, hleast,
      rfl⟩
  refine ⟨⟨?_, ?_⟩, fun spec hlacks => ?_⟩
  · rintro ⟨v, hv, hmissing⟩
    obtain ⟨hmodule, hkind⟩ := Bool.and_eq_true_iff.1 hmissing
    obtain rfl := of_decide_eq_true hmodule
    have hmem := (filter_missingChecks_perm hc scan).mem_iff.1 (List.mem_filter.2 ⟨hv, hkind⟩)
    obtain ⟨spec, hlacks, -⟩ := (mem_missingChecks_iff hc).1 hmem
    exact ⟨spec, hlacks⟩
  · rintro ⟨spec, hlacks⟩
    obtain ⟨v, hv, rfl, -⟩ := due spec hlacks
    have hmem : v ∈ (c.check scan).violations.filter (·.isMissingCheckOf v.module) :=
      filter_isMissingCheckOf hc hv ▸ List.mem_singleton_self v
    exact ⟨v, List.mem_filter.1 hmem⟩
  · obtain ⟨v, hv, rfl, hleast, hcause⟩ := due spec hlacks
    have htarget : v.target? = none := by rw [Violation.target?, hcause]
    exact ⟨v, filter_isMissingCheckOf hc hv, hleast, hcause, htarget, getLast?_filter_file hc hv⟩

end AnyEngine

/-! Two files of the vault, scanned out of order, and the first of them twice. It
mentions a flag; neither checks the permission to open the vault, though the second
checks another. -/

def vaultId : ModuleId := ⟨"vault", by decide⟩

def vaultSpec : ModuleSpec := {
  ownsNamespaces := ["vault/"]
  requiresPermissions := ["vault.open", "vault.list"] }

def vaultPolicy : Policy := .ofList [(vaultId, vaultSpec)]

def vaultChecker : Checker where
  index := ⟨[⟨vaultId, ["vault/"], []⟩]⟩
  rules := [(vaultId, ⟨[], [], [], ["vault.open", "vault.list"]⟩)]

def vaultScan : Scan := { files := [
  { path := "vault/lock", permissions := ["audit"] },
  { path := "vault/door", featureFlags := ["beta"] },
  { path := "vault/door" }] }

theorem lacksCheck_vault :
    LacksCheck vaultPolicy vaultChecker.index vaultScan vaultId vaultSpec where
  declared := by decide
  requires := by decide
  owns := ⟨_, List.mem_cons_self, .namespaceStart "vault/", by decide⟩
  unchecked := by
    have hnone : ∀ f ∈ vaultScan.files, ∀ permission ∈ f.permissions,
        permission ∉ vaultSpec.requiresPermissions := by decide
    exact fun f hf _ => hnone f hf

theorem missing_checks_exact_vault :
    ∃ c, ofPolicy vaultPolicy = .ok c ∧ ∃ v : Violation,
      (c.check vaultScan).violations.filter (·.isMissingCheckOf vaultId) = [v] ∧
        v.file = "vault/door" ∧
          ((c.check vaultScan).violations.filter fun w => w.file = v.file).getLast? = some v := by
  have compiled : ofPolicy vaultPolicy = .ok vaultChecker := by rfl
  obtain ⟨c, hc, -, h⟩ := missing_checks_exact vaultPolicy (exists_ofPolicy_iff.1 ⟨_, compiled⟩)
  obtain rfl := Except.ok.inj (compiled.symm.trans hc)
  obtain ⟨v, hone, hleast, -, -, hlast⟩ := (h vaultScan vaultId).2 vaultSpec lacksCheck_vault
  have howned : "vault/door" ∈ ownedPaths vaultChecker.index vaultScan vaultId :=
    ⟨⟨.namespaceStart "vault/", by decide⟩, _, List.mem_cons_of_mem _ List.mem_cons_self, rfl⟩
  have hfile : v.file = "vault/door" := by
    obtain ⟨-, f, hf, hpath⟩ := hleast.1
    have hpaths : ∀ f ∈ vaultScan.files, f.path ≤ "vault/door" → f.path = "vault/door" := by decide
    rw [← hpath] at hleast ⊢
    exact hpaths f hf (hleast.2 howned)
  exact ⟨_, hc, v, hone, hfile, hlast⟩

end Checker

end ModulePolicy
