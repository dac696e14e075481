/-
# Editing the callers of a module

A policy declares the module `t` anew, with more patterns at the end of one of its
lists of callers. Import by import this changes a report in one direction:

| list | an import from `t` |
| --- | --- |
| allowed, not empty before | keeps its violation or loses it |
| forbidden | keeps what it has, or is now one of a forbidden caller (`Tightens`) |

An earlier pattern that forbids is still the first to match, so no violation for a
forbidden caller changes. Nothing else in the report changes, since the checkers
differ in the callers of `t` alone (`differInCallers`).
-/

import ModulePolicy.Proofs.Module.History
import ModulePolicy.Proofs.Scan.CallerFrame
import ModulePolicy.Proofs.Scan.Callers

namespace ModulePolicy

namespace ModuleSpec

/-- The specification with other callers. -/
def withCallers (spec : ModuleSpec) (allowed forbidden : List String) : ModuleSpec :=
  { spec with allowedCallers := allowed, forbiddenCallers := forbidden }

/-- The specification with more callers allowed. -/
def allowing (spec : ModuleSpec) (extra : List String) : ModuleSpec :=
  spec.withCallers (spec.allowedCallers ++ extra) spec.forbiddenCallers

/-- The specification with more callers forbidden. -/
def forbidding (spec : ModuleSpec) (extra : List String) : ModuleSpec :=
  spec.withCallers spec.allowedCallers (spec.forbiddenCallers ++ extra)

end ModuleSpec

/-- What an import may have before and after the module `t` forbids more callers. -/
inductive Tightens (t : ModuleId) : Option Violation → Option Violation → Prop
  | kept (o : Option Violation) : Tightens t o o
  | added (file : String) (m : ModuleId) (imported pattern : String) :
      Tightens t none (some ⟨file, m, .forbiddenCaller t imported pattern⟩)
  | changed (file : String) (m : ModuleId) (imported pattern : String) :
      Tightens t (some ⟨file, m, .callerNotAllowed t imported⟩)
        (some ⟨file, m, .forbiddenCaller t imported pattern⟩)

namespace ModuleRules

variable [PatternEngine] {spec : ModuleSpec} {r r' : ModuleRules}

/-- Where callers are listed already, allowing more of them brings no fault. -/
theorem fault?_allowing {extra : List String} (h : compile spec = .ok r)
    (h' : compile (spec.allowing extra) = .ok r') (hne : spec.allowedCallers ≠ [])
    (caller t : ModuleId) (imported : String) :
    r'.fault? caller t imported = r.fault? caller t imported ∨
      r'.fault? caller t imported = none := by
  have hne' : spec.allowedCallers ++ extra ≠ [] := List.append_ne_nil_of_left_ne_nil hne extra
  rw [fault?_of_compile h, fault?_of_compile h']
  simp only [ModuleSpec.allowing, ModuleSpec.withCallers, List.any_append,
    List.isEmpty_eq_false_iff.2 hne, List.isEmpty_eq_false_iff.2 hne', Bool.false_or]
  cases spec.forbiddenCallers.find? (globMatches .identifier · caller.text) with
  | some pattern => exact .inl rfl
  | none =>
    cases spec.allowedCallers.any (globMatches .identifier · caller.text) with
    | true => exact .inl rfl
    | false =>
      cases extra.any (globMatches .identifier · caller.text) with
      | true => exact .inr rfl
      | false => exact .inl rfl

/-- **Forbidding more callers** adds faults or changes them to those of a forbidden
caller. -/
theorem tightens_fault?_forbidding {extra : List String} (h : compile spec = .ok r)
    (h' : compile (spec.forbidding extra) = .ok r') (file : String) (caller t : ModuleId)
    (imported : String) :
    Tightens t ((r.fault? caller t imported).map (⟨file, caller, ·⟩))
      ((r'.fault? caller t imported).map (⟨file, caller, ·⟩)) := by
  rw [fault?_of_compile h, fault?_of_compile h']
  simp only [ModuleSpec.forbidding, ModuleSpec.withCallers, List.find?_append]
  cases spec.forbiddenCallers.find? (globMatches .identifier · caller.text) with
  | some pattern => exact .kept _
  | none =>
    rw [Option.none_or]
    cases extra.find? (globMatches .identifier · caller.text) with
    | none => exact .kept _
    | some pattern =>
      by_cases hadmits : spec.allowedCallers.isEmpty ||
          spec.allowedCallers.any (globMatches .identifier · caller.text)
      · simp only [if_pos hadmits]
        exact .added file caller imported pattern
      · simp only [if_neg hadmits]
        exact .changed file caller imported pattern

end ModuleRules

/-- Declaring a module anew compiles to the same if its specifications do. -/
theorem mapM_declare {β : Type} {f : ModuleId × ModuleSpec → Except PolicyFault β} {t : ModuleId}
    {spec spec' : ModuleSpec} (hf : f (t, spec') = f (t, spec)) :
    ∀ {l : List (ModuleId × ModuleSpec)}, (l.map (·.1)).Nodup → (t, spec) ∈ l →
      (declare t spec' l).2.mapM f = l.mapM f
  | d :: rest, hnodup, hmem => by
    obtain ⟨hnot, hnodup⟩ := List.nodup_cons.1 hnodup
    unfold declare
    rcases List.mem_cons.1 hmem with rfl | hmem
    · simp only [if_pos, List.mapM_cons, hf]
    · have hne : d.1 ≠ t := fun h => hnot (List.mem_map.2 ⟨_, hmem, h.symm⟩)
      simp only [if_neg hne, List.mapM_cons, mapM_declare hf hnodup hmem]

section Edits

variable {p : Policy} {t : ModuleId} {spec : ModuleSpec}

theorem Policy.mem_declarations_insert_self (p : Policy) (t : ModuleId) (spec : ModuleSpec) :
    (t, spec) ∈ (p.insert t spec).2.declarations :=
  (find?_eq_some_iff.1 ((p.find?_insert t spec t.text).trans (if_pos rfl))).1

theorem Policy.mem_declarations_insert {spec' : ModuleSpec} {d : ModuleId × ModuleSpec}
    (hd : d ∈ (p.insert t spec').2.declarations) : d = (t, spec') ∨ d ∈ p.declarations := by
  have hfind : (p.insert t spec').2.find? d.1.text = some d := find?_eq_some_iff.2 ⟨hd, rfl⟩
  rw [find?_insert] at hfind
  split at hfind
  · exact .inl (Option.some.inj hfind).symm
  · exact .inr (find?_eq_some_iff.1 hfind).1

/-- A policy compiles with other callers if these compile. -/
theorem Policy.PatternsCompile.withCallers [PatternEngine] (hp : p.PatternsCompile)
    (ht : (t, spec) ∈ p.declarations) {allowed forbidden : List String}
    (hcallers : ∀ s ∈ allowed ++ forbidden, Compiles .identifier s) :
    (p.insert t (spec.withCallers allowed forbidden)).2.PatternsCompile := by
  intro d hd
  rcases mem_declarations_insert hd with rfl | hd
  · exact ⟨(hp _ ht).1, hcallers⟩
  · exact hp d hd

end Edits

namespace Checker

section AnyEngine

variable [PatternEngine] {p : Policy} {t : ModuleId} {spec : ModuleSpec} {c c' : Checker}

/-- The rules of a module are those that its specification compiles to. -/
theorem rules?_eq (h : ofPolicy p = .ok c) (m : ModuleId) :
    c.rules? m = (p.spec? m.text).bind fun spec => (ModuleRules.compile spec).toOption := by
  have hall := mapM_eq_ok_iff.1 (ofPolicy_eq_ok_iff.1 h).2
  unfold Policy.spec?
  cases hfind : p.find? m.text with
  | none =>
    refine List.lookup_eq_none_iff.2 fun e he => ?_
    obtain ⟨d, hd, hde⟩ := exists_mem_of_forall₂ hall he
    have hne := List.find?_eq_none.1 hfind d hd
    rw [(compileRules_eq_ok_iff.1 hde).1]
    simpa using fun hm : m = d.1 => hne (by simp [hm])
  | some d =>
    obtain ⟨id, spec⟩ := d
    obtain ⟨hd, htext⟩ := Policy.find?_eq_some_iff.1 hfind
    obtain rfl : id = m := ModuleId.ext htext
    obtain ⟨rules, hrules, hcompile⟩ := exists_rules? h hd
    rw [hrules, Option.map_some, Option.bind_some, hcompile]
    rfl

/-- **A policy with other callers of `t`** has a checker that differs in these. -/
theorem differInCallers (hc : ofPolicy p = .ok c) (ht : (t, spec) ∈ p.declarations)
    {allowed forbidden : List String}
    (hc' : ofPolicy (p.insert t (spec.withCallers allowed forbidden)).2 = .ok c') :
    DifferInCallers t c c' := by
  have hrules : ∀ m, m ≠ t → c'.rules? m = c.rules? m := fun m hm => by
    rw [rules?_eq hc, rules?_eq hc', Policy.spec?, Policy.spec?, Policy.find?_insert,
      if_neg fun h => hm (ModuleId.ext h.symm)]
  -- the holding of `t` does not depend on its callers
  have hholding : Holding.compile t (spec.withCallers allowed forbidden) =
      Holding.compile t spec := rfl
  refine ⟨?_, fun m => ?_, hrules⟩
  · have hi := OwnershipIndex.ofPolicy_eq_ok_iff.1 (ofPolicy_eq_ok_iff.1 hc).1
    have hi' := OwnershipIndex.ofPolicy_eq_ok_iff.1 (ofPolicy_eq_ok_iff.1 hc').1
    have hsame := mapM_declare (f := fun d => Holding.compile d.1 d.2) hholding p.nodup_ids ht
    have hholdings := Except.ok.inj (hi'.symm.trans (hsame.trans hi))
    exact congrArg OwnershipIndex.mk hholdings
  · by_cases hm : m = t
    · subst hm
      obtain ⟨r, hr, hcompile⟩ := exists_rules? hc ht
      obtain ⟨r', hr', hcompile'⟩ := exists_rules? hc' (p.mem_declarations_insert_self m _)
      obtain ⟨-, -, hflags, hpermissions⟩ := ModuleRules.compile_eq_ok_iff.1 hcompile
      obtain ⟨-, -, hflags', hpermissions'⟩ := ModuleRules.compile_eq_ok_iff.1 hcompile'
      rw [hr, hr', Option.map_some, Option.map_some, ModuleRules.demands, ModuleRules.demands,
        hflags, hpermissions, hflags', hpermissions']
      rfl
    · rw [hrules m hm]

/-- **Allowing more callers,** where some are listed, takes violations away. -/
theorem sublist_violations_allowing {extra : List String} (hc : ofPolicy p = .ok c)
    (ht : (t, spec) ∈ p.declarations)
    (hc' : ofPolicy (p.insert t (spec.allowing extra)).2 = .ok c')
    (hne : spec.allowedCallers ≠ []) (scan : Scan) :
    (c'.check scan).violations.Sublist (c.check scan).violations := by
  have h := differInCallers hc ht hc'
  have hat := h.violationAt? (R := fun o o' => o' = o ∨ o' = none) (fun _ => .inl rfl)
    fun r r' hr hr' file caller imported => by
      have hcompile := compile_of_rules? hc ht hr
      have hcompile' := compile_of_rules? hc' (p.mem_declarations_insert_self t _) hr'
      rcases ModuleRules.fault?_allowing hcompile hcompile' hne caller t imported with hf | hf
      · exact .inl (by rw [hf])
      · exact .inr (by rw [hf, Option.map_none])
  exact (h.placeByPlace_violations (fun _ => .inl rfl) hat scan).sublist fun _ _ => id

/-- **Forbidding more callers** tightens what each import has. -/
theorem tightens_violationAt?_forbidding {extra : List String} (hc : ofPolicy p = .ok c)
    (ht : (t, spec) ∈ p.declarations)
    (hc' : ofPolicy (p.insert t (spec.forbidding extra)).2 = .ok c')
    (e : ScannedFile × ScannedImport) : Tightens t (c.violationAt? e) (c'.violationAt? e) := by
  have h := differInCallers hc ht hc'
  refine h.violationAt? .kept (fun r r' hr hr' file caller imported => ?_) e
  have hcompile := compile_of_rules? hc ht hr
  have hcompile' := compile_of_rules? hc' (p.mem_declarations_insert_self t _) hr'
  exact ModuleRules.tightens_fault?_forbidding hcompile hcompile' file caller t imported

/-- **Edits of caller lists work in one direction.** If all patterns of a policy
compile, and so do more patterns of callers, there are checkers for the policy as it
is, with these callers of a declared module `t` allowed, and with them forbidden.
Allowing them, where `t` has listed some already, makes the report on a scan a sublist
of what it was. Forbidding them keeps the violations at their places, except that one
of a caller not allowed by `t` may become one of a forbidden caller at the same import.
All that is added are violations of forbidden callers of `t`. In both cases the rest of
the report is what it was. -/
theorem caller_edits_monotone (p : Policy) (hp : p.PatternsCompile) {t : ModuleId}
    {spec : ModuleSpec} (ht : (t, spec) ∈ p.declarations) {extra : List String}
    (hextra : ∀ s ∈ extra, Compiles .identifier s) :
    ∃ c allowing forbidding, ofPolicy p = .ok c ∧
      ofPolicy (p.insert t (spec.allowing extra)).2 = .ok allowing ∧
      ofPolicy (p.insert t (spec.forbidding extra)).2 = .ok forbidding ∧ ∀ scan : Scan,
        (spec.allowedCallers ≠ [] →
          (allowing.check scan).violations.Sublist (c.check scan).violations) ∧
        PlaceByPlace (Tightens t) (c.check scan).violations (forbidding.check scan).violations ∧
        (∀ e, Tightens t (c.violationAt? e) (forbidding.violationAt? e)) ∧
        (∀ d ∈ [c, forbidding], (d.check scan).violations.filter Violation.isAboutImport =
          (fileImports scan.sortedFiles).filterMap d.violationAt?) ∧
        (c.check scan).AgreeApartFrom t (allowing.check scan) ∧
        (c.check scan).AgreeApartFrom t (forbidding.check scan) := by
  obtain ⟨hallowed, hforbidden⟩ := List.forall_mem_append.1 (hp _ ht).2
  have hpa : (p.insert t (spec.allowing extra)).2.PatternsCompile :=
    hp.withCallers ht (List.forall_mem_append.2
      ⟨List.forall_mem_append.2 ⟨hallowed, hextra⟩, hforbidden⟩)
  have hpf : (p.insert t (spec.forbidding extra)).2.PatternsCompile :=
    hp.withCallers ht (List.forall_mem_append.2
      ⟨hallowed, List.forall_mem_append.2 ⟨hforbidden, hextra⟩⟩)
  obtain ⟨c, hc⟩ := exists_ofPolicy_iff.2 hp
  obtain ⟨allowing, ha⟩ := exists_ofPolicy_iff.2 hpa
  obtain ⟨forbidding, hf⟩ := exists_ofPolicy_iff.2 hpf
  have hdiffer := differInCallers hc ht ha
  have hdiffer' := differInCallers hc ht hf
  have htightens := tightens_violationAt?_forbidding hc ht hf
  refine ⟨c, allowing, forbidding, hc, ha, hf, fun scan => ⟨fun hne => ?_, ?_, htightens, ?_,
    hdiffer.agreeApartFrom scan, hdiffer'.agreeApartFrom scan⟩⟩
  · exact sublist_violations_allowing hc ht ha hne scan
  · exact hdiffer'.placeByPlace_violations .kept htightens scan
  · exact List.forall_mem_cons.2 ⟨filter_violations_check hc scan,
      List.forall_mem_singleton.2 (filter_violations_check hf scan)⟩

end AnyEngine

/-! The safe allows the audit as its caller, and is imported by the kiosk. -/

def safeId : ModuleId := ⟨"safe", by decide⟩

def kioskId : ModuleId := ⟨"kiosk", by decide⟩

def safeSpec : ModuleSpec := { ownsNamespaces := ["safe/"], allowedCallers := ["audit"] }

def safePolicy : Policy := .ofList [(safeId, safeSpec), (kioskId, { ownsNamespaces := ["kiosk/"] })]

def callerPattern (s : String) : Glob := ⟨s, .identifier, GlobToken.ofChars s.toList⟩

def safeChecker (allowed forbidden : List Glob) : Checker where
  index := ⟨[⟨safeId, ["safe/"], []⟩, ⟨kioskId, ["kiosk/"], []⟩]⟩
  rules := [(safeId, ⟨allowed, forbidden, [], []⟩), (kioskId, ⟨[], [], [], []⟩)]

def cashImport : ScannedImport := { target := "safe/cash" }

def standFile : ScannedFile := { path := "kiosk/stand", imports := [cashImport] }

def standScan : Scan := { files := [standFile] }

theorem caller_edits_monotone_safe :
    ∃ c allowing forbidding, ofPolicy safePolicy = .ok c ∧
      ofPolicy (safePolicy.insert safeId (safeSpec.allowing ["ki*"])).2 = .ok allowing ∧
      ofPolicy (safePolicy.insert safeId (safeSpec.forbidding ["ki*"])).2 = .ok forbidding ∧
        (allowing.check standScan).violations.Sublist (c.check standScan).violations ∧
        PlaceByPlace (Tightens safeId) (c.check standScan).violations
          (forbidding.check standScan).violations ∧
        c.violationAt? (standFile, cashImport) =
          some ⟨"kiosk/stand", kioskId, .callerNotAllowed safeId "safe/cash"⟩ ∧
        allowing.violationAt? (standFile, cashImport) = none ∧
        forbidding.violationAt? (standFile, cashImport) =
          some ⟨"kiosk/stand", kioskId, .forbiddenCaller safeId "safe/cash" "ki*"⟩ := by
  have compiled : ofPolicy safePolicy = .ok (safeChecker [callerPattern "audit"] []) := by rfl
  have compiled_allowing : ofPolicy (safePolicy.insert safeId (safeSpec.allowing ["ki*"])).2 =
      .ok (safeChecker [callerPattern "audit", callerPattern "ki*"] []) := by rfl
  have compiled_forbidding : ofPolicy (safePolicy.insert safeId (safeSpec.forbidding ["ki*"])).2 =
      .ok (safeChecker [callerPattern "audit"] [callerPattern "ki*"]) := by rfl
  have extra : ∀ s ∈ ["ki*"], Compiles .identifier s :=
    List.forall_mem_singleton.2 ⟨callerPattern "ki*", by rfl⟩
  have declared : (safeId, safeSpec) ∈ safePolicy.declarations := List.mem_cons_self
  obtain ⟨c, allowing, forbidding, hc, ha, hf, h⟩ := caller_edits_monotone safePolicy
    (exists_ofPolicy_iff.1 ⟨_, compiled⟩) declared extra
  obtain rfl := Except.ok.inj (compiled.symm.trans hc)
  obtain rfl := Except.ok.inj (compiled_allowing.symm.trans ha)
  obtain rfl := Except.ok.inj (compiled_forbidding.symm.trans hf)
  obtain ⟨hallowing, hforbidding, -⟩ := h standScan
  exact ⟨_, _, _, hc, ha, hf, hallowing (by decide), hforbidding, by decide, by decide, by decide⟩

end Checker

end ModulePolicy
