/-
# Where owners and claimants agree

The owner of a value is found by precedence, its claimants by going through all
modules. The two agree on a value (`AgreesAt`) if the owner is a claimant, if
there is an owner where there are claimants, and if the claimants are the modules
that would own the value alone, so that every overlap is reported.

| value | agreement |
| --- | --- |
| identifies no module | yes |
| identifies a module that also claims it | yes |
| identifies a module that does not claim it | no: the module owns it and is no claimant |

These are all cases (`agreesAt_iff`).
-/

import Mathlib.Data.List.Nodup
import ModulePolicy.Proofs.Ownership.Claims

namespace ModulePolicy

namespace OwnershipIndex

/-- Owner, claimants and overlaps tell the same about a value. -/
structure AgreesAt [PatternEngine] (index : OwnershipIndex) (p : Policy) (value : String) :
    Prop where
  mem_of_owns : ∀ m, index.Owns value m → m ∈ index.claimants value
  none_iff : index.ownerOf value = none ↔ index.claimants value = []
  eq_alone : index.claimants value = (p.declarations.filter (ownsAlone value)).map (·.1)
  overlaps_of_two : ∀ d ∈ p.declarations, ∀ e ∈ p.declarations, d.1 ≠ e.1 →
    ownsAlone value d → ownsAlone value e →
      ∀ values, value ∈ values → (value, index.claimants value) ∈ index.overlaps values

variable {p : Policy} {index : OwnershipIndex} {value : String}

/-- A declared module that would own the value alone is a claimant where the
claimants are these modules. -/
theorem claims_of_eq_alone [PatternEngine] (hp : p.PathsCompile) (h : ofPolicy p = .ok index)
    (heq : index.claimants value = (p.declarations.filter (ownsAlone value)).map (·.1))
    {d : ModuleId × ModuleSpec} (hd : d ∈ p.declarations) (htext : d.1.text = value) :
    d.2.claims value := by
  have halone : ownsAlone value d := (ownsAlone_iff (hp d hd)).2 (.inl htext)
  have hmem : d.1 ∈ index.claimants value :=
    heq ▸ List.mem_map_of_mem (List.mem_filter.2 ⟨hd, halone⟩)
  obtain ⟨e, he, hclaims, hid⟩ := (mem_claimants_iff h).1 hmem
  rwa [List.inj_on_of_nodup_map p.nodup_ids he hd hid] at hclaims

/-- Where the value identifies only modules that claim it, all agrees. -/
theorem agreesAt_of_claims [PatternEngine] (hp : p.PathsCompile) (h : ofPolicy p = .ok index)
    (hclaims : ∀ d ∈ p.declarations, d.1.text = value → d.2.claims value) :
    index.AgreesAt p value := by
  have halone : ∀ d ∈ p.declarations, ownsAlone value d = d.2.claims value := fun d hd => by
    rw [Bool.eq_iff_iff, ownsAlone_iff (hp d hd), or_iff_right_of_imp (hclaims d hd)]
  have heq : index.claimants value = (p.declarations.filter (ownsAlone value)).map (·.1) := by
    rw [claimants_eq h, List.filter_congr halone]
  have hmem : ∀ d ∈ p.declarations, ownsAlone value d → d.1 ∈ index.claimants value :=
    fun d hd hd' => heq ▸ List.mem_map_of_mem (List.mem_filter.2 ⟨hd, hd'⟩)
  refine ⟨fun m hm => ?_, ?_, heq, fun d hd e he hne hd' he' values hvalue => ?_⟩
  · obtain ⟨spec, hd⟩ := hm.exists_mem_declarations h
    exact (hm.text_eq_or_mem h).elim
      (fun htext => (mem_claimants_iff h).2 ⟨_, hd, hclaims _ hd htext, rfl⟩) id
  · rw [ownerOf_eq_none_iff h, and_iff_right_iff_imp]
    intro hnil d hd htext
    have hclaimant : d.1 ∈ index.claimants value :=
      (mem_claimants_iff h).2 ⟨d, hd, hclaims d hd htext, rfl⟩
    rw [hnil] at hclaimant
    cases hclaimant
  · exact mem_overlaps_iff.2
      ⟨hvalue, rfl, one_lt_length_of_mem (hmem d hd hd') (hmem e he he') hne⟩

/-- **Owners and claimants agree exactly on the values that identify no module,
or one that claims them otherwise.** A policy whose path globs compile has an
index, and this holds of every value. -/
theorem agreesAt_iff [PatternEngine] (p : Policy) (hp : p.PathsCompile) :
    ∃ index, ofPolicy p = .ok index ∧ ∀ value,
      index.AgreesAt p value ↔ ∀ d ∈ p.declarations, d.1.text = value → d.2.claims value := by
  obtain ⟨index, h⟩ := exists_ofPolicy_iff.2 hp
  refine ⟨index, h, fun value => ⟨fun hagrees d hd htext => ?_, agreesAt_of_claims hp h⟩⟩
  exact claims_of_eq_alone hp h hagrees.eq_alone hd htext

/-! The core owns every name that starts with `auth`, and there is a module with
this very name. -/

def authId : ModuleId := ⟨"auth", by decide⟩

def coreId : ModuleId := ⟨"core", by decide⟩

def authPolicy : Policy := .ofList [(authId, {}), (coreId, { ownsNamespaces := ["auth"] })]

def authIndex : OwnershipIndex := ⟨[⟨authId, [], []⟩, ⟨coreId, ["auth"], []⟩]⟩

theorem pathsCompile_authPolicy : authPolicy.PathsCompile := by
  have compiled : ofPolicy authPolicy = .ok authIndex := by rfl
  exact exists_ofPolicy_iff.1 ⟨authIndex, compiled⟩

theorem agreesAt_iff_auth : ∃ index, ofPolicy authPolicy = .ok index ∧
    index.AgreesAt authPolicy "auth/token" ∧ ¬ index.AgreesAt authPolicy "auth" := by
  obtain ⟨index, h, hiff⟩ := agreesAt_iff authPolicy pathsCompile_authPolicy
  refine ⟨index, h, (hiff "auth/token").2 (by decide), fun hagrees => ?_⟩
  exact absurd ((hiff "auth").1 hagrees) (by decide)

/-- The module owns its name, which the core alone claims, and nothing is said
of an overlap. -/
theorem not_agreesAt_auth :
    authPolicy.PathsCompile ∧ ofPolicy authPolicy = .ok authIndex ∧
      authIndex.Owns "auth" authId ∧ authIndex.claimants "auth" = [coreId] ∧
        authIndex.overlaps ["auth"] = [] ∧ ¬ authIndex.AgreesAt authPolicy "auth" := by
  have howns : authIndex.Owns "auth" authId := ⟨.moduleId, by decide⟩
  have hclaimants : authIndex.claimants "auth" = [coreId] := by decide
  refine ⟨pathsCompile_authPolicy, by rfl, howns, hclaimants, by decide, fun hagrees => ?_⟩
  have hmem := hagrees.mem_of_owns authId howns
  rw [hclaimants] at hmem
  exact absurd hmem (by decide)

end OwnershipIndex

end ModulePolicy
