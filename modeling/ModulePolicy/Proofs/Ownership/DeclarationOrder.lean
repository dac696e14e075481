/-
# Ownership and the order of declaration

The order of the declarations settles who owns a value that several modules
claim. It matters to nothing else: two policies with the same declarations have
the same claimants of every value, up to order, and the same owner, by the same
rule, of each value that does not overlap (`ownerOf_eq_of_same_declarations`).

Such a value is the identifier of a module, which is unique, or has one claimant
at most, so that each of the two searches for an owner has one place to end.
-/

import Mathlib.Data.List.Nodup
import Mathlib.Data.List.Perm.Basic
import ModulePolicy.Proofs.Ownership.Claims

namespace ModulePolicy

/-- Policies with the same declarations differ in their order alone. -/
theorem Policy.declarations_perm {p q : Policy}
    (h : ∀ d, d ∈ p.declarations ↔ d ∈ q.declarations) :
    p.declarations.Perm q.declarations :=
  (List.perm_ext_iff_of_nodup (List.Nodup.of_map _ p.nodup_ids)
    (List.Nodup.of_map _ q.nodup_ids)).2 h

namespace OwnershipIndex

variable {p q : Policy} {i j : OwnershipIndex} {value : String}

theorem holdings_perm [PatternEngine] (h : p.declarations.Perm q.declarations)
    (hi : ofPolicy p = .ok i) (hj : ofPolicy q = .ok j) : i.holdings.Perm j.holdings := by
  have hcompiled := mapM_eq_ok_iff.1 (ofPolicy_eq_ok_iff.1 hj)
  obtain ⟨holdings, hall, hperm⟩ := List.perm_comp_forall₂ h hcompiled
  have hholdings := (ofPolicy_eq_ok_iff.1 hi).symm.trans (mapM_eq_ok_iff.2 hall)
  exact Except.ok.inj hholdings ▸ hperm

theorem claimants_perm (h : i.holdings.Perm j.holdings) (value : String) :
    (i.claimants value).Perm (j.claimants value) :=
  (h.filter _).map _

/-- A search over the holdings that only ends at claimants finds one thing at
most where there is one claimant at most. -/
theorem length_filterMap_le (hone : (i.claimants value).length ≤ 1) {f : Holding → Option Owner}
    (hf : ∀ h, (f h).isSome → h.claims (withSlashes '\\' value)) :
    (i.holdings.filterMap f).length ≤ 1 := by
  rw [claimants, List.length_map, ← List.countP_eq_length_filter] at hone
  rw [List.length_filterMap_eq_countP]
  exact (List.countP_mono_left fun h _ => hf h).trans hone

/-- **Without two claimants the order of declaration does not matter.** -/
theorem ownerOf_of_perm [PatternEngine] (h : p.declarations.Perm q.declarations)
    (hi : ofPolicy p = .ok i) (hj : ofPolicy q = .ok j) (hone : (i.claimants value).length ≤ 1) :
    i.ownerOf value = j.ownerOf value := by
  by_cases hid : ∃ d ∈ p.declarations, d.1.text = value
  · obtain ⟨d, hd, htext⟩ := hid
    rw [ownerOf_of_text_eq hi hd htext, ownerOf_of_text_eq hj (h.subset hd) htext]
  · have hholdings := holdings_perm h hi hj
    have hnamespace := findSome?_of_perm hholdings
      (length_filterMap_le hone fun h hsome => h.claims_iff.2 (.inl hsome))
    have hpath := findSome?_of_perm hholdings
      (length_filterMap_le hone fun h hsome => h.claims_iff.2 (.inr hsome))
    have hp : ∀ d ∈ p.declarations, d.1.text ≠ value := fun d hd htext => hid ⟨d, hd, htext⟩
    have hq : ∀ d ∈ q.declarations, d.1.text ≠ value := fun d hd => hp d (h.symm.subset hd)
    rw [ownerOf_of_text_ne hi hp, ownerOf_of_text_ne hj hq, hnamespace, hpath]

theorem length_claimants_le_of_overlaps (h : i.overlaps [value] = []) :
    (i.claimants value).length ≤ 1 := by
  refine Nat.le_of_not_lt fun hlength => ?_
  have hmem : (value, i.claimants value) ∈ i.overlaps [value] :=
    mem_overlaps_iff.2 ⟨List.mem_cons_self, rfl, hlength⟩
  rw [h] at hmem
  cases hmem

/-- **The order of declaration matters to overlaps alone.** Two policies with the
same declarations, all path globs compiling, have indices in which every value
has the same claimants, up to order, and one that does not overlap has the same
owner, by the same rule. -/
theorem ownerOf_eq_of_same_declarations [PatternEngine] (p q : Policy) (hp : p.PathsCompile)
    (hsame : ∀ d, d ∈ p.declarations ↔ d ∈ q.declarations) :
    ∃ i j, ofPolicy p = .ok i ∧ ofPolicy q = .ok j ∧ ∀ value,
      (i.claimants value).Perm (j.claimants value) ∧
        (i.overlaps [value] = [] → i.ownerOf value = j.ownerOf value) := by
  obtain ⟨i, hi⟩ := exists_ofPolicy_iff.2 hp
  obtain ⟨j, hj⟩ := exists_ofPolicy_iff.2 fun d hd => hp d ((hsame d).2 hd)
  have hperm := Policy.declarations_perm hsame
  refine ⟨i, j, hi, hj, fun value => ⟨?_, fun hoverlaps => ?_⟩⟩
  · exact claimants_perm (holdings_perm hperm hi hj) value
  · exact ownerOf_of_perm hperm hi hj (length_claimants_le_of_overlaps hoverlaps)

/-! A site and its pages, declared in either order. The pages are claimed twice,
everything else of the site once. -/

def siteId : ModuleId := ⟨"site", by decide⟩

def pagesId : ModuleId := ⟨"pages", by decide⟩

def siteDeclaration : ModuleId × ModuleSpec := (siteId, { ownsPaths := ["site/**"] })

def pagesDeclaration : ModuleId × ModuleSpec := (pagesId, { ownsPaths := ["site/pages/*"] })

def sitePolicy : Policy := .ofList [siteDeclaration, pagesDeclaration]

def pagesFirstPolicy : Policy := .ofList [pagesDeclaration, siteDeclaration]

def siteHolding : Holding := ⟨siteId, [], [⟨"site/**", .path, GlobToken.ofChars "site/**".toList⟩]⟩

def pagesHolding : Holding :=
  ⟨pagesId, [], [⟨"site/pages/*", .path, GlobToken.ofChars "site/pages/*".toList⟩]⟩

theorem ownerOf_eq_of_same_declarations_site : ∃ i j,
    ofPolicy sitePolicy = .ok i ∧ ofPolicy pagesFirstPolicy = .ok j ∧
      i.ownerOf "site/style.css" = j.ownerOf "site/style.css" ∧
        (i.claimants "site/pages/home").Perm (j.claimants "site/pages/home") := by
  have compiled : ofPolicy sitePolicy = .ok ⟨[siteHolding, pagesHolding]⟩ := by rfl
  have same : ∀ d, d ∈ sitePolicy.declarations ↔ d ∈ pagesFirstPolicy.declarations :=
    fun d => (List.Perm.swap pagesDeclaration siteDeclaration []).mem_iff
  obtain ⟨i, j, hi, hj, h⟩ := ownerOf_eq_of_same_declarations sitePolicy pagesFirstPolicy
    (exists_ofPolicy_iff.1 ⟨_, compiled⟩) same
  obtain rfl := Except.ok.inj (compiled.symm.trans hi)
  exact ⟨_, j, hi, hj, (h "site/style.css").2 (by decide), (h "site/pages/home").1⟩

end OwnershipIndex

end ModulePolicy
