/-
# Callers listed by name

The graph of a policy keeps callers as they are written; a checker reads them as
patterns. A pattern matches its own text, so a caller that is listed by its
identifier is found on the list, whatever stars there are in it:

| edge from caller to target | an import along it |
| --- | --- |
| `forbidden` | is reported for a forbidden caller |
| `allowed` | is never reported for a caller that is not allowed |

Graph and checker agree on these callers (`check_agrees_with_graph`). A pattern
may match more than its own text, so an import may be reported without an edge.
-/

import ModulePolicy.Proofs.Graph.Content
import ModulePolicy.Proofs.Scan.Breach

namespace ModulePolicy

namespace ModuleSpec

variable {spec : ModuleSpec} {caller : ModuleId}

/-- A caller on the forbidden list is refused, if not for its own entry then for
an earlier one. -/
theorem exists_refuses_of_mem [PatternEngine] (hmem : caller.text ∈ spec.forbiddenCallers)
    (hcompiles : Compiles .identifier caller.text) (t : ModuleId) (imported : String) :
    ∃ pattern, spec.Refuses caller t imported (.forbiddenCaller t imported pattern) := by
  have found : (spec.forbiddenCallers.find? (globMatches .identifier · caller.text)).isSome :=
    List.find?_isSome.2 ⟨caller.text, hmem, Glob.globMatches_self hcompiles⟩
  obtain ⟨pattern, hpattern⟩ := Option.isSome_iff_exists.1 found
  exact ⟨pattern, .forbidden hpattern⟩

/-- A caller on the allowed list is not refused for want of an entry there. -/
theorem Refuses.kind_ne_callerNotAllowed [PatternEngine] {t : ModuleId} {imported : String}
    {cause : ViolationCause} (h : spec.Refuses caller t imported cause)
    (hmem : caller.text ∈ spec.allowedCallers) (hcompiles : Compiles .identifier caller.text)
    (file : String) : Violation.kind ⟨file, caller, cause⟩ ≠ .callerNotAllowed := by
  cases h with
  | forbidden _ =>
    intro hkind
    cases hkind
  | notAllowed _ _ hall => exact absurd (Glob.globMatches_self hcompiles) (hall _ hmem)

/-- Refusals name the target. -/
theorem Refuses.target?_eq [PatternEngine] {t : ModuleId} {imported file : String}
    {cause : ViolationCause} (h : spec.Refuses caller t imported cause) :
    Violation.target? ⟨file, caller, cause⟩ = some t := by
  cases h <;> rfl

end ModuleSpec

/-- The callers of a declared module compile. -/
theorem Policy.PatternsCompile.compiles_of_mem_callers [PatternEngine] {p : Policy}
    (hp : p.PatternsCompile) {t : ModuleId} {spec : ModuleSpec}
    (hspec : (t, spec) ∈ p.declarations) (kind : EdgeKind) {pattern : String}
    (hmem : pattern ∈ spec.callers kind) : Compiles .identifier pattern := by
  refine (hp _ hspec).2 pattern (List.mem_append.2 ?_)
  cases kind with
  | allowed => exact .inl hmem
  | forbidden => exact .inr hmem

section Edges

variable [PatternEngine] {p : Policy} {index : OwnershipIndex} {f : ScannedFile}
  {i : ScannedImport} {m t : ModuleId}

/-- **An import along a forbidden edge is a breach.** -/
theorem CrossImport.exists_breach (hp : p.PatternsCompile) (h : CrossImport index f i m t)
    {spec : ModuleSpec} (hspec : (t, spec) ∈ p.declarations)
    (hedge : ⟨m.text, t.text, .forbidden⟩ ∈ (PolicyGraph.ofPolicy p).edges) :
    ∃ pattern, Breach p index f i ⟨f.path, m, .forbiddenCaller t i.target pattern⟩ := by
  have hmem : m.text ∈ spec.forbiddenCallers :=
    (PolicyGraph.mem_edges_iff_mem_callers hspec).1 hedge
  have hcompiles := hp.compiles_of_mem_callers hspec .forbidden hmem
  obtain ⟨pattern, hrefuses⟩ := ModuleSpec.exists_refuses_of_mem hmem hcompiles t i.target
  exact ⟨pattern, .intro h hspec hrefuses⟩

/-- **No breach along an allowed edge is for a caller that is not allowed.** -/
theorem Breach.kind_ne_callerNotAllowed (hp : p.PatternsCompile) {v : Violation}
    (h : Breach p index f i v) (ht : v.target? = some t)
    (hedge : ⟨v.module.text, t.text, .allowed⟩ ∈ (PolicyGraph.ofPolicy p).edges) :
    v.kind ≠ .callerNotAllowed := by
  cases h with
  | @intro m t' spec cause _ hspec hrefuses =>
    obtain rfl := Option.some.inj (hrefuses.target?_eq.symm.trans ht)
    have hmem : m.text ∈ spec.allowedCallers :=
      (PolicyGraph.mem_edges_iff_mem_callers hspec).1 hedge
    have hcompiles := hp.compiles_of_mem_callers hspec .allowed hmem
    exact hrefuses.kind_ne_callerNotAllowed hmem hcompiles f.path

end Edges

namespace Checker

section AnyEngine

variable [PatternEngine] {p : Policy} {c : Checker} {scan : Scan}

/-- The violation of an import across modules is one of the two modules. -/
theorem of_violationAt? (hc : ofPolicy p = .ok c) {f : ScannedFile} {i : ScannedImport}
    {m t : ModuleId} (hcross : CrossImport c.index f i m t) {v : Violation}
    (hv : c.violationAt? (f, i) = some v) : v.module = m ∧ v.target? = some t := by
  obtain ⟨⟨howner, htarget, -⟩, -, hrefuses⟩ := (violationAt?_eq_some_iff hc (f, i) v).1 hv
  have hm := moduleOf_eq_some_iff.2 hcross.owner
  have ht := importOwner_eq_some_iff.2 hcross.target
  have hm' := moduleOf_eq_some_iff.2 howner
  have ht' := importOwner_eq_some_iff.2 htarget
  refine ⟨Option.some.inj (hm'.symm.trans hm), ?_⟩
  rw [hrefuses.target?_eq]
  exact ht'.symm.trans ht

/-- **The report on imports** has what the imports have, one after the other. -/
theorem filter_violations_check (hc : ofPolicy p = .ok c) (scan : Scan) :
    (c.check scan).violations.filter Violation.isAboutImport =
      (fileImports scan.sortedFiles).filterMap c.violationAt? := by
  rw [importViolations_check, flatMap_importViolationsOf hc]

/-- The import violations in the report are those of the imports of the scan. -/
theorem mem_violations_check_iff (hc : ofPolicy p = .ok c) {v : Violation}
    (hv : v.isAboutImport) :
    v ∈ (c.check scan).violations ↔
      ∃ f ∈ scan.files, ∃ i ∈ f.imports, c.violationAt? (f, i) = some v := by
  have hfilter : v ∈ (c.check scan).violations ↔
      v ∈ (c.check scan).violations.filter Violation.isAboutImport := by
    rw [List.mem_filter, and_iff_left hv]
  rw [hfilter, filter_violations_check hc, List.mem_filterMap]
  simp only [mem_fileImports_sortedFiles_iff]
  constructor
  · rintro ⟨e, ⟨hf, hi⟩, h⟩
    exact ⟨e.1, hf, e.2, hi, h⟩
  · rintro ⟨f, hf, i, hi, h⟩
    exact ⟨(f, i), ⟨hf, hi⟩, h⟩

/-- **Graph and checker agree on listed callers.** If all patterns of a policy
compile there is a checker. It reports on the imports one after the other, in the
order of the sorted files. Where the module `m` imports from another module `t`,
a forbidden edge from `m` to `t` brings about a report of that import for a
forbidden caller, and with an allowed edge no report for a caller that is not
allowed is about this import, nor about any other by `m` from `t`. The
identifier of `m` may have stars in it. -/
theorem check_agrees_with_graph (p : Policy) (hp : p.PatternsCompile) :
    ∃ c, ofPolicy p = .ok c ∧ ∀ scan : Scan,
      (c.check scan).violations.filter Violation.isAboutImport =
        (fileImports scan.sortedFiles).filterMap c.violationAt? ∧
      ∀ f ∈ scan.files, ∀ i ∈ f.imports, ∀ m t, CrossImport c.index f i m t →
        (⟨m.text, t.text, .forbidden⟩ ∈ (PolicyGraph.ofPolicy p).edges →
          ∃ v ∈ (c.check scan).violations, c.violationAt? (f, i) = some v ∧
            ∃ pattern, v = ⟨f.path, m, .forbiddenCaller t i.target pattern⟩) ∧
        (⟨m.text, t.text, .allowed⟩ ∈ (PolicyGraph.ofPolicy p).edges →
          (∀ v, c.violationAt? (f, i) = some v → v.kind ≠ .callerNotAllowed) ∧
            ∀ v ∈ (c.check scan).violations, v.module = m → v.target? = some t →
              v.kind ≠ .callerNotAllowed) := by
  obtain ⟨c, hc⟩ := exists_ofPolicy_iff.2 hp
  refine ⟨c, hc, fun scan => ⟨filter_violations_check hc scan, ?_⟩⟩
  intro f hf i hi m t hcross
  obtain ⟨spec, hspec⟩ := exists_mem_declarations_of_ownsImport hc hcross.target
  constructor
  · intro hedge
    obtain ⟨pattern, hbreach⟩ := hcross.exists_breach hp hspec hedge
    have hv := (violationAt?_eq_some_iff hc (f, i) _).2 hbreach
    exact ⟨_, (mem_violations_check_iff hc rfl).2 ⟨f, hf, i, hi, hv⟩, hv, pattern, rfl⟩
  · intro hedge
    have never : ∀ f i v, c.violationAt? (f, i) = some v → v.module = m → v.target? = some t →
        v.kind ≠ .callerNotAllowed := by
      rintro f i v hv rfl ht
      exact ((violationAt?_eq_some_iff hc (f, i) v).1 hv).kind_ne_callerNotAllowed hp ht hedge
    refine ⟨fun v hv => ?_, fun v hmem hm ht hkind => ?_⟩
    · obtain ⟨hm, ht⟩ := of_violationAt? hc hcross hv
      exact never f i v hv hm ht
    · have habout : v.isAboutImport := by
        rw [Violation.isAboutImport, hkind]
        rfl
      obtain ⟨f', -, i', -, hv⟩ := (mem_violations_check_iff hc habout).1 hmem
      exact never f' i' v hv hm ht hkind

end AnyEngine

/-! Drafts, a module with stars and brackets in its identifier, which the ledger
forbids and the archive allows. -/

def draftsId : ModuleId := ⟨"**drafts*[old](x)", by decide⟩

def ledgerId : ModuleId := ⟨"ledger", by decide⟩

def archiveId : ModuleId := ⟨"archive", by decide⟩

def draftsPolicy : Policy := .ofList
  [(draftsId, { ownsNamespaces := ["drafts/"] }),
    (ledgerId, { forbiddenCallers := [draftsId.text] }),
    (archiveId, { allowedCallers := [draftsId.text] })]

def draftsPattern : Glob := ⟨draftsId.text, .identifier, GlobToken.ofChars draftsId.text.toList⟩

def draftsChecker : Checker where
  index := ⟨[⟨draftsId, ["drafts/"], []⟩, ⟨ledgerId, [], []⟩, ⟨archiveId, [], []⟩]⟩
  rules := [(draftsId, ⟨[], [], [], []⟩), (ledgerId, ⟨[], [draftsPattern], [], []⟩),
    (archiveId, ⟨[draftsPattern], [], [], []⟩)]

def draftFile : ScannedFile := {
  path := "drafts/letter"
  imports := [{ target := "ledger" }, { target := "archive" }] }

def draftScan : Scan := { files := [draftFile] }

theorem crossImport_draftFile {i : ScannedImport} {t : ModuleId} (hi : i.target = t.text)
    (ht : t = ledgerId ∨ t = archiveId) :
    CrossImport draftsChecker.index draftFile i draftsId t := by
  have owner : draftsChecker.index.Owns draftFile.path draftsId :=
    ⟨.namespaceStart "drafts/", by decide⟩
  have target : draftsChecker.index.OwnsImport i.target t := by
    rw [hi]
    rcases ht with rfl | rfl
    · exact .inl ⟨.moduleId, by decide⟩
    · exact .inl ⟨.moduleId, by decide⟩
  exact ⟨owner, target, by rcases ht with rfl | rfl <;> decide⟩

theorem check_agrees_with_graph_drafts :
    ∃ c, ofPolicy draftsPolicy = .ok c ∧
      (∃ v ∈ (c.check draftScan).violations, v.kind = .forbiddenCaller ∧ v.target? = some ledgerId) ∧
        ∀ v ∈ (c.check draftScan).violations, v.module = draftsId → v.target? = some archiveId →
          v.kind ≠ .callerNotAllowed := by
  have compiled : ofPolicy draftsPolicy = .ok draftsChecker := by rfl
  obtain ⟨c, hc, h⟩ := check_agrees_with_graph draftsPolicy (exists_ofPolicy_iff.1 ⟨_, compiled⟩)
  obtain rfl := Except.ok.inj (compiled.symm.trans hc)
  obtain ⟨-, h⟩ := h draftScan
  have hledger := h draftFile (by decide) { target := "ledger" } (by decide) draftsId ledgerId
    (crossImport_draftFile rfl (.inl rfl))
  have harchive := h draftFile (by decide) { target := "archive" } (by decide) draftsId archiveId
    (crossImport_draftFile rfl (.inr rfl))
  obtain ⟨v, hv, -, pattern, rfl⟩ := hledger.1 (by decide)
  exact ⟨_, hc, ⟨_, hv, rfl, rfl⟩, (harchive.2 (by decide)).2⟩

end Checker

end ModulePolicy
