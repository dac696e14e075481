/-
# The ownership index of a policy

A policy has an index if all its path globs compile (`exists_ofPolicy_iff`). The
index then holds one holding per declaration, in the same order, so whatever
owns a value is declared (`Owns.exists_mem_declarations`).
-/

import ModulePolicy.Ownership
import ModulePolicy.Proofs.Glob.Compiling

namespace ModulePolicy

namespace Holding

variable [PatternEngine]

theorem compile_eq_ok_iff {id : ModuleId} {spec : ModuleSpec} {h : Holding} :
    compile id spec = .ok h ↔
      h.module = id ∧ h.namespaces = spec.ownsNamespaces.map (withSlashes '\\') ∧
        spec.ownsPaths.mapM (Glob.compile .path) = .ok h.globs := by
  unfold compile
  rw [bind_eq_ok_iff]
  constructor
  · rintro ⟨globs, hglobs, h⟩
    cases h
    exact ⟨rfl, rfl, hglobs⟩
  · rintro ⟨rfl, hnamespaces, hglobs⟩
    exact ⟨h.globs, hglobs, by rw [← hnamespaces]; rfl⟩

theorem exists_compile_iff {id : ModuleId} {spec : ModuleSpec} :
    (∃ h, compile id spec = .ok h) ↔ ∀ s ∈ spec.ownsPaths, Compiles .path s := by
  simp only [Compiles, ← exists_mapM_iff, compile_eq_ok_iff]
  constructor
  · rintro ⟨h, -, -, hglobs⟩
    exact ⟨h.globs, hglobs⟩
  · rintro ⟨globs, hglobs⟩
    exact ⟨⟨id, spec.ownsNamespaces.map (withSlashes '\\'), globs⟩, rfl, rfl, hglobs⟩

end Holding

namespace OwnershipIndex

variable {p : Policy} {index : OwnershipIndex}

theorem ofPolicy_eq_ok_iff [PatternEngine] :
    ofPolicy p = .ok index ↔
      p.declarations.mapM (fun d => Holding.compile d.1 d.2) = .ok index.holdings := by
  unfold ofPolicy
  rw [bind_eq_ok_iff]
  constructor
  · rintro ⟨holdings, hholdings, h⟩
    cases h
    exact hholdings
  · intro h
    exact ⟨index.holdings, h, rfl⟩

/-- **An index can be made if all path globs compile.** -/
theorem exists_ofPolicy_iff [PatternEngine] :
    (∃ index, ofPolicy p = .ok index) ↔
      ∀ d ∈ p.declarations, ∀ s ∈ d.2.ownsPaths, Compiles .path s := by
  have hmapM : (∃ index, ofPolicy p = .ok index) ↔
      ∃ holdings, p.declarations.mapM (fun d => Holding.compile d.1 d.2) = .ok holdings := by
    constructor
    · rintro ⟨index, h⟩
      exact ⟨index.holdings, ofPolicy_eq_ok_iff.1 h⟩
    · rintro ⟨holdings, h⟩
      exact ⟨⟨holdings⟩, ofPolicy_eq_ok_iff.2 h⟩
  rw [hmapM, exists_mapM_iff]
  exact forall₂_congr fun d _ => Holding.exists_compile_iff

/-- The holdings are those of the declared modules, in their order. -/
theorem map_module_holdings [PatternEngine] (h : ofPolicy p = .ok index) :
    index.holdings.map (·.module) = p.ids := by
  have hall := mapM_eq_ok_iff.1 (ofPolicy_eq_ok_iff.1 h)
  have hids : List.Forall₂ (fun d h => h = d) (p.declarations.map (·.1))
      (index.holdings.map (·.module)) :=
    List.forall₂_map_left_iff.2 <| List.forall₂_map_right_iff.2 <|
      hall.imp fun _ _ hc => (Holding.compile_eq_ok_iff.1 hc).1
  exact List.forall₂_eq_eq_eq ▸ hids.flip

/-- The module owns the value, by whichever rule. -/
def Owns (index : OwnershipIndex) (value : String) (m : ModuleId) : Prop :=
  ∃ rule, index.ownerOf value = some ⟨m, rule⟩

theorem map_ownerOf_eq_some_iff {value : String} {m : ModuleId} :
    (index.ownerOf value).map (·.module) = some m ↔ index.Owns value m := by
  rw [Option.map_eq_some_iff, Owns]
  constructor
  · rintro ⟨⟨m, rule⟩, h, rfl⟩
    exact ⟨rule, h⟩
  · rintro ⟨rule, h⟩
    exact ⟨⟨m, rule⟩, h, rfl⟩

/-- An owner has a holding. -/
theorem Owns.exists_mem_holdings {value : String} {m : ModuleId} (h : index.Owns value m) :
    ∃ holding ∈ index.holdings, holding.module = m := by
  obtain ⟨rule, h⟩ := h
  simp only [ownerOf] at h
  split at h
  · rename_i holding hfind
    obtain ⟨rfl, -⟩ := Owner.mk.inj (Option.some.inj h)
    exact ⟨holding, List.mem_of_find?_eq_some hfind, rfl⟩
  · split at h
    · rename_i owner hfind
      obtain rfl := Option.some.inj h
      obtain ⟨holding, hmem, hns⟩ := List.exists_of_findSome?_eq_some hfind
      obtain ⟨ns, -, hns⟩ := Option.map_eq_some_iff.1 hns
      exact ⟨holding, hmem, (Owner.mk.inj hns).1⟩
    · obtain ⟨holding, hmem, hg⟩ := List.exists_of_findSome?_eq_some h
      obtain ⟨g, -, hg⟩ := Option.map_eq_some_iff.1 hg
      exact ⟨holding, hmem, (Owner.mk.inj hg).1⟩

/-- **Owners are declared.** -/
theorem Owns.exists_mem_declarations [PatternEngine] (hp : ofPolicy p = .ok index)
    {value : String} {m : ModuleId} (h : index.Owns value m) :
    ∃ spec, (m, spec) ∈ p.declarations := by
  obtain ⟨holding, hmem, rfl⟩ := h.exists_mem_holdings
  have hid : holding.module ∈ p.ids := map_module_holdings hp ▸ List.mem_map_of_mem hmem
  obtain ⟨⟨id, spec⟩, hd, hid⟩ := List.mem_map.1 hid
  exact ⟨spec, hid ▸ hd⟩

end OwnershipIndex

end ModulePolicy
