/-
# Owners and claimants

A specification claims a value if one of its namespaces is a start of it or one
of its globs matches it (`ModuleSpec.claims`). In these terms:

| question | answer |
| --- | --- |
| who claims the value? | the declared modules whose specification does (`claimants_eq`) |
| who owns it? | the module it identifies, or else one that claims it (`Owns.text_eq_or_mem`) |
| does a module own it in a policy of its own? | if it is its identifier, or claimed (`ownsAlone_iff`) |
-/

import ModulePolicy.Proofs.Ownership.Index

namespace ModulePolicy

/-- Whether a namespace or a path glob claims the value, slashes and backslashes
being the same but for the glob. -/
def ModuleSpec.claims [PatternEngine] (spec : ModuleSpec) (value : String) : Bool :=
  spec.ownsNamespaces.any (fun ns => startsWith (withSlashes '\\' ns) (withSlashes '\\' value)) ||
    spec.ownsPaths.any (globMatches .path · (withSlashes '\\' value))

/-- All path globs of the policy compile. -/
def Policy.PathsCompile [PatternEngine] (p : Policy) : Prop :=
  ∀ d ∈ p.declarations, ∀ s ∈ d.2.ownsPaths, Compiles .path s

namespace Holding

variable {h : Holding}

theorem module_of_byNamespace {candidate : String} {owner : Owner}
    (ho : h.byNamespace candidate = some owner) : owner.module = h.module := by
  obtain ⟨ns, -, rfl⟩ := Option.map_eq_some_iff.1 ho
  rfl

theorem module_of_byPath {candidate : String} {owner : Owner}
    (ho : h.byPath candidate = some owner) : owner.module = h.module := by
  obtain ⟨g, -, rfl⟩ := Option.map_eq_some_iff.1 ho
  rfl

theorem claims_iff {candidate : String} :
    h.claims candidate ↔ (h.byNamespace candidate).isSome ∨ (h.byPath candidate).isSome := by
  simp only [claims, byNamespace, byPath, Bool.or_eq_true, Option.isSome_map, List.find?_isSome,
    List.any_eq_true]

theorem claims_of_compile [PatternEngine] {id : ModuleId} {spec : ModuleSpec}
    (hc : compile id spec = .ok h) (value : String) :
    h.claims (withSlashes '\\' value) = spec.claims value := by
  obtain ⟨-, hnamespaces, hglobs⟩ := compile_eq_ok_iff.1 hc
  rw [claims, ModuleSpec.claims, hnamespaces, List.any_map, Glob.any_isMatch_of_mapM hglobs]
  rfl

end Holding

namespace OwnershipIndex

variable {p : Policy} {index : OwnershipIndex} {value : String}

/-- A value overlaps where it has several claimants. -/
theorem mem_overlaps_iff {values : List String} {e : String × List ModuleId} :
    e ∈ index.overlaps values ↔
      e.1 ∈ values ∧ e.2 = index.claimants e.1 ∧ 1 < (index.claimants e.1).length := by
  simp only [overlaps, List.mem_filterMap, Option.ite_none_right_eq_some, Option.some.injEq]
  constructor
  · rintro ⟨v, hv, hlength, rfl⟩
    exact ⟨hv, rfl, hlength⟩
  · rintro ⟨hv, howners, hlength⟩
    exact ⟨e.1, hv, hlength, Prod.ext rfl howners.symm⟩

section AnyEngine

variable [PatternEngine]

theorem mem_modules_iff (h : ofPolicy p = .ok index) {m : ModuleId} :
    m ∈ index.holdings.map (·.module) ↔ ∃ d ∈ p.declarations, d.1 = m := by
  rw [map_module_holdings h, Policy.ids, List.mem_map]

/-- **A module owns its identifier.** -/
theorem ownerOf_of_text_eq (h : ofPolicy p = .ok index) {d : ModuleId × ModuleSpec}
    (hd : d ∈ p.declarations) (htext : d.1.text = value) :
    index.ownerOf value = some ⟨d.1, .moduleId⟩ := by
  obtain ⟨holding, hmem, hmodule⟩ := List.mem_map.1 ((mem_modules_iff h).2 ⟨d, hd, rfl⟩)
  obtain ⟨found, hfind⟩ := Option.isSome_iff_exists.1 <|
    List.find?_isSome (p := fun x : Holding => x.module.text = value).2
      ⟨holding, hmem, decide_eq_true (hmodule ▸ htext)⟩
  have hfound : found.module.text = value := by simpa using List.find?_some hfind
  simp only [ownerOf, hfind, ModuleId.ext (hfound.trans htext.symm)]

/-- A value that identifies no module is owned by a namespace, or else by a glob. -/
theorem ownerOf_of_text_ne (h : ofPolicy p = .ok index)
    (hne : ∀ d ∈ p.declarations, d.1.text ≠ value) :
    index.ownerOf value =
      (index.holdings.findSome? (·.byNamespace (withSlashes '\\' value))).or
        (index.holdings.findSome? (·.byPath (withSlashes '\\' value))) := by
  have hfind : index.holdings.find? (·.module.text = value) = none := by
    refine List.find?_eq_none.2 fun holding hmem => ?_
    obtain ⟨d, hd, hmodule⟩ := (mem_modules_iff h).1 (List.mem_map_of_mem hmem)
    simpa [← hmodule] using hne d hd
  simp only [ownerOf, hfind]
  cases index.holdings.findSome? (·.byNamespace (withSlashes '\\' value)) <;> rfl

theorem claimants_eq_of_forall₂ {declarations : List (ModuleId × ModuleSpec)}
    {holdings : List Holding}
    (h : List.Forall₂ (fun d h => Holding.compile d.1 d.2 = .ok h) declarations holdings)
    (value : String) :
    claimants ⟨holdings⟩ value = (declarations.filter (·.2.claims value)).map (·.1) := by
  unfold claimants
  induction h with
  | nil => rfl
  | @cons d holding _ _ hd _ ih =>
    have hmodule := (Holding.compile_eq_ok_iff.1 hd).1
    rw [List.filter_cons, List.filter_cons, Holding.claims_of_compile hd]
    cases d.2.claims value with
    | false => exact ih
    | true => exact congrArg₂ List.cons hmodule ih

/-- **The claimants are the declared modules that claim the value,** in the order
of declaration. -/
theorem claimants_eq (h : ofPolicy p = .ok index) (value : String) :
    index.claimants value = (p.declarations.filter (·.2.claims value)).map (·.1) :=
  claimants_eq_of_forall₂ (mapM_eq_ok_iff.1 (ofPolicy_eq_ok_iff.1 h)) value

theorem mem_claimants_iff (h : ofPolicy p = .ok index) {m : ModuleId} :
    m ∈ index.claimants value ↔ ∃ d ∈ p.declarations, d.2.claims value ∧ d.1 = m := by
  simp only [claimants_eq h, List.mem_map, List.mem_filter, and_assoc]

/-- **An owner is identified by the value or claims it.** -/
theorem Owns.text_eq_or_mem (h : ofPolicy p = .ok index) {m : ModuleId}
    (hm : index.Owns value m) : m.text = value ∨ m ∈ index.claimants value := by
  obtain ⟨rule, ho⟩ := hm
  by_cases hid : ∃ d ∈ p.declarations, d.1.text = value
  · obtain ⟨d, hd, htext⟩ := hid
    rw [ownerOf_of_text_eq h hd htext] at ho
    exact .inl ((Owner.mk.inj (Option.some.inj ho)).1 ▸ htext)
  · rw [ownerOf_of_text_ne h fun d hd htext => hid ⟨d, hd, htext⟩] at ho
    have hclaims : ∃ holding ∈ index.holdings,
        holding.claims (withSlashes '\\' value) ∧ holding.module = m := by
      rcases Option.or_eq_some_iff.1 ho with ho | ⟨-, ho⟩
      · obtain ⟨holding, hmem, ho⟩ := List.exists_of_findSome?_eq_some ho
        exact ⟨holding, hmem, Holding.claims_iff.2 (.inl (Option.isSome_of_eq_some ho)),
          (Holding.module_of_byNamespace ho).symm⟩
      · obtain ⟨holding, hmem, ho⟩ := List.exists_of_findSome?_eq_some ho
        exact ⟨holding, hmem, Holding.claims_iff.2 (.inr (Option.isSome_of_eq_some ho)),
          (Holding.module_of_byPath ho).symm⟩
    obtain ⟨holding, hmem, hclaims, rfl⟩ := hclaims
    exact .inr (List.mem_map_of_mem (List.mem_filter.2 ⟨hmem, hclaims⟩))

/-- **Nobody owns what identifies no module and nobody claims.** -/
theorem ownerOf_eq_none_iff (h : ofPolicy p = .ok index) :
    index.ownerOf value = none ↔
      (∀ d ∈ p.declarations, d.1.text ≠ value) ∧ index.claimants value = [] := by
  constructor
  · intro hnone
    have hid : ∀ d ∈ p.declarations, d.1.text ≠ value := fun d hd htext => by
      rw [ownerOf_of_text_eq h hd htext] at hnone
      cases hnone
    rw [ownerOf_of_text_ne h hid, Option.or_eq_none_iff, List.findSome?_eq_none_iff,
      List.findSome?_eq_none_iff] at hnone
    have hclaims : ∀ holding ∈ index.holdings, ¬ holding.claims (withSlashes '\\' value) := by
      intro holding hmem hclaims
      have hsome := Holding.claims_iff.1 hclaims
      rw [hnone.1 holding hmem, hnone.2 holding hmem] at hsome
      exact hsome.elim Bool.false_ne_true Bool.false_ne_true
    exact ⟨hid, by rw [claimants, List.filter_eq_nil_iff.2 hclaims, List.map_nil]⟩
  · rintro ⟨hid, hclaimants⟩
    refine Option.eq_none_iff_forall_ne_some.2 fun owner ho => ?_
    have howns : index.Owns value owner.module := ⟨owner.rule, ho⟩
    obtain ⟨spec, hd⟩ := howns.exists_mem_declarations h
    rcases howns.text_eq_or_mem h with htext | hm
    · exact hid _ hd htext
    · rw [hclaimants] at hm
      cases hm

end AnyEngine

end OwnershipIndex

/-- Whether the module would own the value in a policy that declares nothing
else. -/
def ownsAlone [PatternEngine] (value : String) (d : ModuleId × ModuleSpec) : Bool :=
  match OwnershipIndex.ofPolicy (.ofList [d]) with
  | .ok index => (index.ownerOf value).map (·.module) = some d.1
  | .error _ => false

theorem ownsAlone_iff [PatternEngine] {value : String} {d : ModuleId × ModuleSpec}
    (h : ∀ s ∈ d.2.ownsPaths, Compiles .path s) :
    ownsAlone value d ↔ d.1.text = value ∨ d.2.claims value := by
  have hdeclarations : (Policy.ofList [d]).declarations = [d] := rfl
  have hcompile : (Policy.ofList [d]).PathsCompile := by
    rw [Policy.PathsCompile, hdeclarations]
    exact List.forall_mem_singleton.2 h
  obtain ⟨index, hindex⟩ := OwnershipIndex.exists_ofPolicy_iff.2 hcompile
  have hclaimants : d.1 ∈ index.claimants value ↔ d.2.claims value := by
    rw [OwnershipIndex.mem_claimants_iff hindex, hdeclarations]
    simp
  simp only [ownsAlone, hindex, decide_eq_true_iff, OwnershipIndex.map_ownerOf_eq_some_iff]
  constructor
  · intro howns
    exact (howns.text_eq_or_mem hindex).imp_right hclaimants.1
  · intro hd
    have hsome : index.ownerOf value ≠ none := fun hnone => by
      obtain ⟨hid, hnil⟩ := (OwnershipIndex.ownerOf_eq_none_iff hindex).1 hnone
      rcases hd with htext | hclaims
      · exact hid d (hdeclarations ▸ List.mem_cons_self) htext
      · have hmem := hclaimants.2 hclaims
        rw [hnil] at hmem
        cases hmem
    obtain ⟨owner, ho⟩ := Option.ne_none_iff_exists'.1 hsome
    have howns : index.Owns value owner.module := ⟨owner.rule, ho⟩
    -- the only declared module is the owner
    obtain ⟨spec, hspec⟩ := howns.exists_mem_declarations hindex
    rw [hdeclarations] at hspec
    obtain rfl := List.mem_singleton.1 hspec
    exact howns

end ModulePolicy
