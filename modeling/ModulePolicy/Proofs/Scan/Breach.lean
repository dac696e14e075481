/-
# Breaches of the call policy

A file of a module `m` that imports from another module `t` breaches the call
policy if the specification of `t` refuses `m` as a caller:

| refusal | the specification of `t` |
| --- | --- |
| `forbidden` | has a forbidden pattern that matches `m`; the first one is reported |
| `notAllowed` | has no such pattern, but allowed patterns, none of which matches `m` |

This is in terms of the policy as written. What a checker reports about imports
are the breaches of the scan in the order of the sorted files, and within a file
in the order of its imports (`check_exact`).
-/

import ModulePolicy.Proofs.Scan.Pass
import ModulePolicy.Proofs.Scan.Rules

namespace ModulePolicy

/-- The module owns the imported name as written, or else with its dots read as
slashes. -/
def OwnershipIndex.OwnsImport (index : OwnershipIndex) (imported : String) (t : ModuleId) : Prop :=
  index.Owns imported t ∨
    index.ownerOf imported = none ∧ '.' ∈ imported.toList ∧ index.Owns (withSlashes '.' imported) t

/-- A specification refuses a caller, for a reason that names the module `t`
with this specification and the imported name. -/
inductive ModuleSpec.Refuses [PatternEngine] (spec : ModuleSpec) (caller t : ModuleId)
    (imported : String) : ViolationCause → Prop
  | forbidden {pattern : String} :
      spec.forbiddenCallers.find? (globMatches .identifier · caller.text) = some pattern →
      Refuses spec caller t imported (.forbiddenCaller t imported pattern)
  | notAllowed :
      (∀ pattern ∈ spec.forbiddenCallers, ¬ globMatches .identifier pattern caller.text) →
      spec.allowedCallers ≠ [] →
      (∀ pattern ∈ spec.allowedCallers, ¬ globMatches .identifier pattern caller.text) →
      Refuses spec caller t imported (.callerNotAllowed t imported)

/-- A file of the module `m` imports from another module `t`. -/
structure CrossImport (index : OwnershipIndex) (f : ScannedFile) (i : ScannedImport)
    (m t : ModuleId) : Prop where
  owner : index.Owns f.path m
  target : index.OwnsImport i.target t
  ne : t ≠ m

/-- An import across modules from one that refuses the caller, with the
violation to report. -/
inductive Breach [PatternEngine] (p : Policy) (index : OwnershipIndex) (f : ScannedFile)
    (i : ScannedImport) : Violation → Prop
  | intro {m t : ModuleId} {spec : ModuleSpec} {cause : ViolationCause} :
      CrossImport index f i m t → (t, spec) ∈ p.declarations →
      spec.Refuses m t i.target cause → Breach p index f i ⟨f.path, m, cause⟩

/-- Every file with each of its imports. -/
def fileImports (files : List ScannedFile) : List (ScannedFile × ScannedImport) :=
  files.flatMap fun f => f.imports.map fun i => (f, i)

theorem mem_fileImports_sortedFiles_iff {scan : Scan} {e : ScannedFile × ScannedImport} :
    e ∈ fileImports scan.sortedFiles ↔ e.1 ∈ scan.files ∧ e.2 ∈ e.1.imports := by
  simp only [fileImports, List.mem_flatMap, List.mem_map, scan.sortedFiles_perm.mem_iff]
  constructor
  · rintro ⟨f, hf, i, hi, rfl⟩
    exact ⟨hf, hi⟩
  · rintro ⟨hf, hi⟩
    exact ⟨e.1, hf, e.2, hi, rfl⟩

/-- Compiled rules find fault with the callers that the specification refuses. -/
theorem ModuleRules.fault?_eq_some_iff [PatternEngine] {spec : ModuleSpec} {r : ModuleRules}
    (h : compile spec = .ok r) {caller t : ModuleId} {imported : String}
    {cause : ViolationCause} :
    r.fault? caller t imported = some cause ↔ spec.Refuses caller t imported cause := by
  rw [fault?_of_compile h]
  constructor
  · intro hcause
    split at hcause
    · rename_i pattern hpattern
      obtain rfl := Option.some.inj hcause
      exact .forbidden hpattern
    · rename_i hnone
      split at hcause
      · cases hcause
      · rename_i hrefused
        obtain rfl := Option.some.inj hcause
        rw [Bool.or_eq_true, not_or, List.isEmpty_iff, List.any_eq_true] at hrefused
        obtain ⟨hne, hany⟩ := hrefused
        exact .notAllowed (List.find?_eq_none.1 hnone) hne fun pattern hp hm =>
          hany ⟨pattern, hp, hm⟩
  · rintro (hpattern | ⟨hnone, hne, hall⟩)
    · rw [hpattern]
    · rw [List.find?_eq_none.2 hnone]
      refine if_neg ?_
      rw [Bool.or_eq_true, not_or, List.isEmpty_iff, List.any_eq_true]
      exact ⟨hne, fun ⟨pattern, hp, hm⟩ => hall pattern hp hm⟩

namespace Checker

variable {p : Policy} {c : Checker}

theorem moduleOf_eq_some_iff {value : String} {m : ModuleId} :
    c.moduleOf value = some m ↔ c.index.Owns value m :=
  OwnershipIndex.map_ownerOf_eq_some_iff

theorem moduleOf_eq_none_iff {value : String} :
    c.moduleOf value = none ↔ c.index.ownerOf value = none :=
  Option.map_eq_none_iff

theorem importOwner_eq_some_iff {imported : String} {t : ModuleId} :
    c.importOwner imported = some t ↔ c.index.OwnsImport imported t := by
  unfold importOwner OwnershipIndex.OwnsImport
  rw [← moduleOf_eq_some_iff, ← moduleOf_eq_some_iff, ← moduleOf_eq_none_iff]
  cases c.moduleOf imported with
  | some id => simp
  | none => simp

section AnyEngine

variable [PatternEngine]

/-- The owner of an import is declared. -/
theorem exists_mem_declarations_of_ownsImport (h : ofPolicy p = .ok c) {imported : String}
    {t : ModuleId} (ht : c.index.OwnsImport imported t) : ∃ spec, (t, spec) ∈ p.declarations := by
  have hindex := (ofPolicy_eq_ok_iff.1 h).1
  rcases ht with ht | ⟨-, -, ht⟩
  · exact ht.exists_mem_declarations hindex
  · exact ht.exists_mem_declarations hindex

/-- **An import has a violation if it is a breach.** -/
theorem importViolation?_eq_some_iff (h : ofPolicy p = .ok c) {f : ScannedFile} {m : ModuleId}
    (hm : c.index.Owns f.path m) {i : ScannedImport} {v : Violation} :
    c.importViolation? f.path m i = some v ↔ Breach p c.index f i v := by
  unfold importViolation?
  constructor
  · intro hv
    split at hv
    · cases hv
    rename_i t ht
    split at hv
    · cases hv
    rename_i hne
    have ht := importOwner_eq_some_iff.1 ht
    obtain ⟨spec, hspec⟩ := exists_mem_declarations_of_ownsImport h ht
    -- the owner is declared, so the branch without rules is never taken
    obtain ⟨rules, hrules, hcompile⟩ := exists_rules? h hspec
    rw [hrules] at hv
    obtain ⟨cause, hcause, rfl⟩ := Option.map_eq_some_iff.1 hv
    exact .intro ⟨hm, ht, hne⟩ hspec ((ModuleRules.fault?_eq_some_iff hcompile).1 hcause)
  · rintro ⟨⟨hm', ht, hne⟩, hspec, hrefuses⟩
    obtain rfl := Option.some.inj
      ((moduleOf_eq_some_iff.2 hm').symm.trans (moduleOf_eq_some_iff.2 hm))
    obtain ⟨rules, hrules, hcompile⟩ := exists_rules? h hspec
    have hcause := (ModuleRules.fault?_eq_some_iff hcompile).2 hrefuses
    simp only [importOwner_eq_some_iff.2 ht, if_neg hne, hrules, hcause, Option.map_some]

/-- The violation of an import in a file, if the file has an owner. -/
def violationAt? (c : Checker) (e : ScannedFile × ScannedImport) : Option Violation :=
  (c.moduleOf e.1.path).bind fun m => c.importViolation? e.1.path m e.2

theorem violationAt?_eq_some_iff (h : ofPolicy p = .ok c) (e : ScannedFile × ScannedImport)
    (v : Violation) : c.violationAt? e = some v ↔ Breach p c.index e.1 e.2 v := by
  rw [violationAt?, Option.bind_eq_some_iff]
  constructor
  · rintro ⟨m, hm, hv⟩
    exact (importViolation?_eq_some_iff h (moduleOf_eq_some_iff.1 hm)).1 hv
  · intro hb
    have hb' := hb
    obtain ⟨⟨hm, -, -⟩, -, -⟩ := hb'
    exact ⟨_, moduleOf_eq_some_iff.2 hm, (importViolation?_eq_some_iff h hm).2 hb⟩

/-- No file with an owner is left out for want of rules. -/
theorem importViolationsOf_eq (h : ofPolicy p = .ok c) (f : ScannedFile) :
    c.importViolationsOf f = f.imports.filterMap fun i => c.violationAt? (f, i) := by
  simp only [importViolationsOf, violationAt?]
  cases hm : c.moduleOf f.path with
  | none => exact (List.filterMap_none f.imports).symm
  | some m =>
    have hindex := (ofPolicy_eq_ok_iff.1 h).1
    obtain ⟨spec, hspec⟩ := (moduleOf_eq_some_iff.1 hm).exists_mem_declarations hindex
    obtain ⟨rules, hrules, -⟩ := exists_rules? h hspec
    simp only [hrules, Option.bind_some]

theorem flatMap_importViolationsOf (h : ofPolicy p = .ok c) (files : List ScannedFile) :
    files.flatMap c.importViolationsOf = (fileImports files).filterMap c.violationAt? := by
  rw [fileImports, List.filterMap_flatMap]
  simp only [List.filterMap_map, funext (importViolationsOf_eq h)]
  rfl

open Classical in
/-- **The report has exactly the breaches.** If all patterns of a policy compile
there is a checker. In its report on a scan the import violations correspond one
by one, and in this order, to the breaches among the imports of the files sorted
by path. All files are counted, and the unowned ones are those whose path has no
owner. Owners are declared, so nothing is passed over for want of a
specification. -/
theorem check_exact (p : Policy) (hp : p.PatternsCompile) (scan : Scan) :
    ∃ c, ofPolicy p = .ok c ∧ OwnershipIndex.ofPolicy p = .ok c.index ∧
      (∀ value m, c.index.Owns value m → ∃ spec, (m, spec) ∈ p.declarations) ∧
      List.Forall₂ (fun v e => Breach p c.index e.1 e.2 v)
        ((c.check scan).violations.filter Violation.isAboutImport)
        ((fileImports scan.sortedFiles).filter fun e => ∃ v, Breach p c.index e.1 e.2 v) ∧
      (c.check scan).filesChecked = scan.files.length ∧
      (c.check scan).unownedFiles =
        (scan.sortedFiles.filter fun f => c.index.ownerOf f.path = none).map (·.path) := by
  obtain ⟨c, hc⟩ := exists_ofPolicy_iff.2 hp
  have hindex := (ofPolicy_eq_ok_iff.1 hc).1
  refine ⟨c, hc, hindex, fun value m hm => hm.exists_mem_declarations hindex, ?_,
    filesChecked_check c scan, ?_⟩
  · rw [importViolations_check, flatMap_importViolationsOf hc]
    exact forall₂_filterMap (violationAt?_eq_some_iff hc) _
  · simp only [unownedFiles_check, moduleOf_eq_none_iff]

end AnyEngine

/-! A file of the user interface imports from billing, which forbids this. -/

def uiId : ModuleId := ⟨"ui", by decide⟩

def billingId : ModuleId := ⟨"billing", by decide⟩

def loginPolicy : Policy := .ofList
  [(uiId, { ownsPaths := ["ui/**"] }),
    (billingId, { ownsNamespaces := ["billing/"], forbiddenCallers := ["u*"] })]

def loginChecker : Checker where
  index := ⟨[⟨uiId, [], [⟨"ui/**", .path, GlobToken.ofChars "ui/**".toList⟩]⟩,
    ⟨billingId, ["billing/"], []⟩]⟩
  rules := [(uiId, ⟨[], [], [], []⟩),
    (billingId, ⟨[], [⟨"u*", .identifier, GlobToken.ofChars "u*".toList⟩], [], []⟩)]

def loginImport : ScannedImport := { target := "billing.invoice" }

def loginFile : ScannedFile := { path := "ui/login", imports := [loginImport] }

def loginScan : Scan := { files := [loginFile, { path := "lib/fetch" }] }

theorem breach_loginImport : Breach loginPolicy loginChecker.index loginFile loginImport
    ⟨"ui/login", uiId, .forbiddenCaller billingId "billing.invoice" "u*"⟩ := by
  have owner : loginChecker.index.Owns "ui/login" uiId := ⟨.path "ui/**", by decide⟩
  have target : loginChecker.index.OwnsImport "billing.invoice" billingId :=
    .inr ⟨by decide, by decide, .namespaceStart "billing/", by decide⟩
  exact .intro ⟨owner, target, by decide⟩ (List.mem_cons_of_mem _ List.mem_cons_self)
    (.forbidden (by decide))

theorem check_exact_login :
    ∃ c, ofPolicy loginPolicy = .ok c ∧ (c.check loginScan).filesChecked = 2 ∧
      ∃ v ∈ (c.check loginScan).violations, Breach loginPolicy c.index loginFile loginImport v := by
  have compiled : ofPolicy loginPolicy = .ok loginChecker := by rfl
  obtain ⟨c, hc, -, -, hall, hcount, -⟩ :=
    check_exact loginPolicy (exists_ofPolicy_iff.1 ⟨_, compiled⟩) loginScan
  obtain rfl := Except.ok.inj (compiled.symm.trans hc)
  obtain ⟨v, hv, hbreach⟩ := exists_mem_of_forall₂ (b := (loginFile, loginImport)) hall (by
    simp only [List.mem_filter, mem_fileImports_sortedFiles_iff, decide_eq_true_eq]
    exact ⟨by decide, _, breach_loginImport⟩)
  exact ⟨_, hc, hcount, v, (List.mem_filter.1 hv).1, hbreach⟩

end Checker

end ModulePolicy
