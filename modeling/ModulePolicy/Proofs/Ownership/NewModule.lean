/-
# One more module

A new module may be declared at any place among the others (`Policy.declareAt`).
Each value is then in one of two positions:

| the value | its owner |
| --- | --- |
| identifies a module declared before | as before |
| anything else | as before, or the new module |

A search over the holdings in order ends where it did, or at the new holding
(`findSome?_middle`), so no value goes from one of the other modules to another.
The claimants of a value are those it had, and perhaps the new module.
-/

import Mathlib.Data.List.Nodup
import ModulePolicy.Proofs.Module.History
import ModulePolicy.Proofs.Ownership.Claims

namespace ModulePolicy

namespace Policy

/-- The policy with one more module, which stands behind the first `place` others. -/
def declareAt (p : Policy) (place : Nat) (m : ModuleId) (spec : ModuleSpec) (hnew : m ∉ p.ids) :
    Policy where
  declarations := p.declarations.take place ++ (m, spec) :: p.declarations.drop place
  nodup_ids := by
    rw [List.map_append, List.map_cons, List.nodup_middle, ← List.map_append,
      List.take_append_drop, List.nodup_cons]
    exact ⟨hnew, p.nodup_ids⟩

variable {p : Policy} {m : ModuleId} {spec : ModuleSpec} {place : Nat} {hnew : m ∉ p.ids}

theorem mem_declareAt_iff {d : ModuleId × ModuleSpec} :
    d ∈ (p.declareAt place m spec hnew).declarations ↔
      d = (m, spec) ∨ d ∈ p.declarations := by
  rw [declareAt, List.mem_append, List.mem_cons, or_left_comm, ← List.mem_append,
    List.take_append_drop]

/-- Without the new module the declarations are those of the policy. -/
theorem filter_declareAt :
    ((p.declareAt place m spec hnew).declarations.filter fun d => d.1 ≠ m) = p.declarations := by
  have hothers : ∀ d ∈ p.declarations, decide (d.1 ≠ m) = true := fun d hd =>
    decide_eq_true fun hm => hnew (hm ▸ List.mem_map_of_mem hd)
  calc ((p.declareAt place m spec hnew).declarations.filter fun d => d.1 ≠ m)
      = (p.declarations.take place ++ p.declarations.drop place).filter fun d => d.1 ≠ m := by
        rw [declareAt, List.filter_append, List.filter_cons_of_neg (by simp), List.filter_append]
    _ = p.declarations := by rw [List.take_append_drop, List.filter_eq_self.2 hothers]

end Policy

namespace OwnershipIndex

section Declare

variable [PatternEngine] {p : Policy} {i j : OwnershipIndex} {m : ModuleId} {spec : ModuleSpec}
  {h : Holding} {place : Nat} {hnew : m ∉ p.ids}

/-- **The index has one more holding,** at the place of the new module. -/
theorem ofPolicy_declareAt (hi : ofPolicy p = .ok i) (hh : Holding.compile m spec = .ok h) :
    ofPolicy (p.declareAt place m spec hnew) =
      .ok ⟨i.holdings.take place ++ h :: i.holdings.drop place⟩ := by
  have hall := mapM_eq_ok_iff.1 (ofPolicy_eq_ok_iff.1 hi)
  have hfront := List.forall₂_take place hall
  have hback := List.Forall₂.cons (R := fun d h => Holding.compile d.1 d.2 = .ok h)
    (a := (m, spec)) hh (List.forall₂_drop place hall)
  exact ofPolicy_eq_ok_iff.2 (mapM_eq_ok_iff.2 (List.rel_append hfront hback))

/-- **The other claimants are those before.** -/
theorem claimants_declareAt (hi : ofPolicy p = .ok i)
    (hj : ofPolicy (p.declareAt place m spec hnew) = .ok j) (value : String) :
    (j.claimants value).filter (· ≠ m) = i.claimants value := by
  rw [claimants_eq hi, claimants_eq hj, List.filter_map, List.filter_comm]
  exact congrArg (List.map (·.1) <| List.filter (·.2.claims value) ·) Policy.filter_declareAt

theorem ownerOf_declareAt_of_text_eq (hi : ofPolicy p = .ok i)
    (hj : ofPolicy (p.declareAt place m spec hnew) = .ok j) {d : ModuleId × ModuleSpec}
    (hd : d ∈ p.declarations) {value : String} (htext : d.1.text = value) :
    j.ownerOf value = i.ownerOf value := by
  have hd' : d ∈ (p.declareAt place m spec hnew).declarations :=
    Policy.mem_declareAt_iff.2 (.inr hd)
  rw [ownerOf_of_text_eq hi hd htext, ownerOf_of_text_eq hj hd' htext]

/-- **A value stays with its owner or goes to the new module.** -/
theorem ownerOf_declareAt (hi : ofPolicy p = .ok i)
    (hj : ofPolicy (p.declareAt place m spec hnew) = .ok j)
    (hh : Holding.compile m spec = .ok h) (value : String) :
    j.ownerOf value = i.ownerOf value ∨ j.Owns value m := by
  by_cases hid : ∃ d ∈ p.declarations, d.1.text = value
  · obtain ⟨d, hd, htext⟩ := hid
    exact .inl (ownerOf_declareAt_of_text_eq hi hj hd htext)
  by_cases hm : m.text = value
  · exact .inr ⟨.moduleId, ownerOf_of_text_eq hj (Policy.mem_declareAt_iff.2 (.inl rfl)) hm⟩
  have hp : ∀ d ∈ p.declarations, d.1.text ≠ value := fun d hd htext => hid ⟨d, hd, htext⟩
  have hq : ∀ d ∈ (p.declareAt place m spec hnew).declarations, d.1.text ≠ value := by
    intro d hd
    rcases Policy.mem_declareAt_iff.1 hd with rfl | hd
    · exact hm
    · exact hp d hd
  -- a value that identifies no module is found by two searches, one after the other
  obtain rfl := Except.ok.inj ((ofPolicy_declareAt hi hh).symm.trans hj)
  have hmodule : h.module = m := (Holding.compile_eq_ok_iff.1 hh).1
  rw [Owns, ownerOf_of_text_ne hi hp, ownerOf_of_text_ne hj hq]
  have search := fun f : Holding → Option Owner =>
    findSome?_middle f (i.holdings.take place) (i.holdings.drop place) h
  rw [List.take_append_drop] at search
  rcases search (·.byNamespace (withSlashes '\\' value)) with hns | ⟨owner, ho, hns⟩
  · rw [hns]
    cases i.holdings.findSome? (·.byNamespace (withSlashes '\\' value)) with
    | some owner => exact .inl rfl
    | none =>
      rcases search (·.byPath (withSlashes '\\' value)) with hpath | ⟨owner, ho, hpath⟩
      · exact .inl (by rw [hpath])
      · obtain rfl : owner.module = m := (Holding.module_of_byPath ho).trans hmodule
        exact .inr ⟨owner.rule, by rw [hpath]; rfl⟩
  · obtain rfl : owner.module = m := (Holding.module_of_byNamespace ho).trans hmodule
    exact .inr ⟨owner.rule, by rw [hns]; rfl⟩

end Declare

/-- **A new module takes values to itself and moves no other.** Wherever it is
declared among the modules of a policy, all path globs compiling, the owner of a
value is the one it was, by the same rule, or the new module; a value that identifies
a module declared before keeps its owner; and the claimants of a value other than the
new module are those it had, in the same order. -/
theorem new_module_takes_values [PatternEngine] (p : Policy) (hp : p.PathsCompile) (m : ModuleId)
    (hnew : m ∉ p.ids) (spec : ModuleSpec) (hspec : ∀ s ∈ spec.ownsPaths, Compiles .path s)
    (place : Nat) :
    ∃ i j, ofPolicy p = .ok i ∧ ofPolicy (p.declareAt place m spec hnew) = .ok j ∧ ∀ value,
      (j.ownerOf value = i.ownerOf value ∨ j.Owns value m) ∧
        (p.contains value → j.ownerOf value = i.ownerOf value) ∧
        (j.claimants value).filter (· ≠ m) = i.claimants value := by
  obtain ⟨i, hi⟩ := exists_ofPolicy_iff.2 hp
  obtain ⟨h, hh⟩ := Holding.exists_compile_iff.2 hspec
  have hj : ofPolicy (p.declareAt place m spec hnew) = .ok _ := ofPolicy_declareAt hi hh
  refine ⟨i, _, hi, hj, fun value => ⟨ownerOf_declareAt hi hj hh value, fun hvalue => ?_,
    claimants_declareAt hi hj value⟩⟩
  obtain ⟨_, hid, htext⟩ := Policy.contains_iff.1 hvalue
  obtain ⟨d, hd, rfl⟩ := List.mem_map.1 hid
  exact ownerOf_declareAt_of_text_eq hi hj hd htext

/-! The library claims every file of a shelf. Then the music room is declared behind
it, and claims one kind of file by its name and another by its path. -/

def libraryId : ModuleId := ⟨"library", by decide⟩

def musicId : ModuleId := ⟨"music", by decide⟩

def libraryPolicy : Policy := .ofList [(libraryId, { ownsPaths := ["shelf/**"] })]

def libraryHolding : Holding :=
  ⟨libraryId, [], [⟨"shelf/**", .path, GlobToken.ofChars "shelf/**".toList⟩]⟩

def musicSpec : ModuleSpec := { ownsNamespaces := ["shelf/score-"], ownsPaths := ["shelf/*.ogg"] }

def musicHolding : Holding :=
  ⟨musicId, ["shelf/score-"], [⟨"shelf/*.ogg", .path, GlobToken.ofChars "shelf/*.ogg".toList⟩]⟩

theorem new_module_takes_values_music : ∃ i j, ofPolicy libraryPolicy = .ok i ∧
    ofPolicy (libraryPolicy.declareAt 1 musicId musicSpec (by decide)) = .ok j ∧
      i.Owns "shelf/score-1" libraryId ∧ j.Owns "shelf/score-1" musicId ∧
        j.ownerOf "library" = i.ownerOf "library" ∧
        j.claimants "shelf/b.ogg" = [libraryId, musicId] ∧
        (j.claimants "shelf/b.ogg").filter (· ≠ musicId) = i.claimants "shelf/b.ogg" := by
  have compiled : ofPolicy libraryPolicy = .ok ⟨[libraryHolding]⟩ := by rfl
  have compiled_music : Holding.compile musicId musicSpec = .ok musicHolding := by rfl
  obtain ⟨i, j, hi, hj, h⟩ := new_module_takes_values libraryPolicy
    (exists_ofPolicy_iff.1 ⟨_, compiled⟩) musicId (by decide) musicSpec
      (Holding.exists_compile_iff.1 ⟨_, compiled_music⟩) 1
  obtain rfl := Except.ok.inj (compiled.symm.trans hi)
  obtain rfl := Except.ok.inj ((ofPolicy_declareAt compiled compiled_music).symm.trans hj)
  have hscore := (h "shelf/score-1").1.resolve_left (by decide)
  have hname := (h "library").2.1 (by decide)
  exact ⟨_, _, hi, hj, ⟨.path "shelf/**", by decide⟩, hscore, hname, by decide,
    (h "shelf/b.ogg").2.2⟩

end OwnershipIndex

end ModulePolicy
