/-
# Slashes and backslashes

Where ownership looks at a value or a namespace, a backslash is a slash. The text of
an identifier and a glob are taken as written. So

| change | changes |
| --- | --- |
| slashes for the backslashes of a value | no claimant; no owner unless one of the texts is an identifier |
| slashes for the backslashes of some namespaces | nothing |
| globs with a backslash left out | nothing |

The last is so because what a glob matches has all its characters other than stars
(`Glob.mem_of_globMatches`), and no backslash is left in the text that is matched.

An index answers as another does if its holdings do, one by one (`Holding.Alike`).
-/

import ModulePolicy.Proofs.Module.History
import ModulePolicy.Proofs.Ownership.Claims

namespace ModulePolicy

namespace ModuleSpec

/-- The specification with slashes for the backslashes of the namespaces at some
places. -/
def slashNamespaces (chosen : Nat → Bool) (spec : ModuleSpec) : ModuleSpec :=
  { spec with
    ownsNamespaces := spec.ownsNamespaces.mapIdx fun place ns =>
      if chosen place then withSlashes '\\' ns else ns }

/-- The specification without the path globs that have a backslash. -/
def withoutBackslashGlobs (spec : ModuleSpec) : ModuleSpec :=
  { spec with ownsPaths := spec.ownsPaths.filter fun glob => !glob.toList.contains '\\' }

/-- Namespaces only count with slashes. -/
theorem map_withSlashes_slashNamespaces (chosen : Nat → Bool) (spec : ModuleSpec) :
    (spec.slashNamespaces chosen).ownsNamespaces.map (withSlashes '\\') =
      spec.ownsNamespaces.map (withSlashes '\\') := by
  refine List.ext_getElem (by simp [slashNamespaces]) fun k _ _ => ?_
  simp only [slashNamespaces, List.getElem_map, List.getElem_mapIdx]
  split
  · exact withSlashes_withSlashes '\\' _
  · rfl

end ModuleSpec

/-- The policy with other specifications of the same modules. -/
def Policy.mapSpecs (f : ModuleId → ModuleSpec → ModuleSpec) (p : Policy) : Policy where
  declarations := p.declarations.map fun d => (d.1, f d.1 d.2)
  nodup_ids := by
    rw [List.map_map]
    exact p.nodup_ids

namespace Holding

/-- Two holdings of a module with the same answers. -/
structure Alike (h h' : Holding) : Prop where
  module : h'.module = h.module
  byNamespace : ∀ value,
    h'.byNamespace (withSlashes '\\' value) = h.byNamespace (withSlashes '\\' value)
  byPath : ∀ value, h'.byPath (withSlashes '\\' value) = h.byPath (withSlashes '\\' value)

variable {h h' : Holding} {m : ModuleId} {spec : ModuleSpec}

theorem Alike.claims (ha : h.Alike h') (value : String) :
    h'.claims (withSlashes '\\' value) = h.claims (withSlashes '\\' value) := by
  rw [Bool.eq_iff_iff, claims_iff, claims_iff, ha.byNamespace, ha.byPath]

/-- The glob that a module owns a text by is the first of its globs to match. -/
theorem byPath_of_compile [PatternEngine] (hh : compile m spec = .ok h) (candidate : String) :
    h.byPath candidate =
      (spec.ownsPaths.find? (globMatches .path · candidate)).map fun glob => ⟨m, .path glob⟩ := by
  obtain ⟨rfl, -, hglobs⟩ := compile_eq_ok_iff.1 hh
  rw [← Glob.find?_isMatch_of_mapM hglobs, Option.map_map]
  rfl

theorem compile_slashNamespaces [PatternEngine] (chosen : Nat → Bool) :
    compile m (spec.slashNamespaces chosen) = compile m spec := by
  unfold compile
  rw [ModuleSpec.map_withSlashes_slashNamespaces]
  rfl

/-- **Globs with a backslash are never the reason.** -/
theorem exists_compile_withoutBackslashGlobs [PatternEngine] (hh : compile m spec = .ok h) :
    ∃ h', compile m spec.withoutBackslashGlobs = .ok h' ∧ h.Alike h' := by
  have hpaths : ∀ s ∈ spec.withoutBackslashGlobs.ownsPaths, Compiles .path s := fun s hs =>
    exists_compile_iff.1 ⟨h, hh⟩ s (List.mem_filter.1 hs).1
  obtain ⟨h', hh'⟩ := exists_compile_iff.2 hpaths
  refine ⟨h', hh', ?_, fun value => ?_, fun value => ?_⟩
  · rw [(compile_eq_ok_iff.1 hh).1, (compile_eq_ok_iff.1 hh').1]
  · obtain ⟨hmodule, hnamespaces, -⟩ := compile_eq_ok_iff.1 hh
    obtain ⟨hmodule', hnamespaces', -⟩ := compile_eq_ok_iff.1 hh'
    rw [byNamespace, byNamespace, hmodule, hmodule', hnamespaces, hnamespaces']
    rfl
  · have hlive : ∀ glob, globMatches .path glob (withSlashes '\\' value) →
        (!glob.toList.contains '\\') = true := fun glob hglob => by
      rw [Bool.not_eq_true', List.contains_eq_mem, decide_eq_false_iff_not]
      exact fun hc => not_mem_withSlashes (by decide) value
        (Glob.mem_of_globMatches hglob hc (by decide))
    rw [byPath_of_compile hh, byPath_of_compile hh', ModuleSpec.withoutBackslashGlobs,
      List.find?_filter]
    congr 2
    funext glob
    rw [Bool.eq_iff_iff, decide_eq_true_iff]
    exact and_iff_right_of_imp (hlive glob)

end Holding

namespace OwnershipIndex

/-- The two indices give the same answers to all questions. -/
structure AnswersAlike (i j : OwnershipIndex) : Prop where
  ownerOf : ∀ value, j.ownerOf value = i.ownerOf value
  claimants : ∀ value, j.claimants value = i.claimants value
  overlaps : ∀ values, j.overlaps values = i.overlaps values

section Alike

variable {l r : List Holding}

theorem map_module_find?_of_alike (hall : List.Forall₂ Holding.Alike l r) (value : String) :
    (r.find? (·.module.text = value)).map (·.module) =
      (l.find? (·.module.text = value)).map (·.module) := by
  induction hall with
  | nil => rfl
  | @cons h h' _ _ hh _ ih =>
    rw [List.find?_cons, List.find?_cons, hh.module]
    cases decide (h.module.text = value) with
    | false => exact ih
    | true => exact congrArg some hh.module

theorem claimants_of_alike (hall : List.Forall₂ Holding.Alike l r) (value : String) :
    claimants ⟨r⟩ value = claimants ⟨l⟩ value := by
  unfold claimants
  induction hall with
  | nil => rfl
  | @cons h h' _ _ hh _ ih =>
    rw [List.filter_cons, List.filter_cons, hh.claims]
    cases h.claims (withSlashes '\\' value) with
    | false => exact ih
    | true => exact congrArg₂ List.cons hh.module ih

/-- The owner is found by three searches, each through the holdings in order. -/
theorem ownerOf_of_alike (hall : List.Forall₂ Holding.Alike l r) (value : String) :
    ownerOf ⟨r⟩ value = ownerOf ⟨l⟩ value := by
  have hnamespace := findSome?_of_forall₂ (hall.imp fun _ _ hh => hh.byNamespace value)
  have hpath := findSome?_of_forall₂ (hall.imp fun _ _ hh => hh.byPath value)
  have hmodule := map_module_find?_of_alike hall value
  simp only [ownerOf, hnamespace, hpath]
  cases hl : l.find? (·.module.text = value) with
  | none =>
    rw [hl] at hmodule
    rw [Option.map_eq_none_iff.1 hmodule]
  | some h =>
    rw [hl] at hmodule
    obtain ⟨h', hr, hmodule⟩ := Option.map_eq_some_iff.1 hmodule
    simp only [hr, hmodule]

/-- **Holdings that are alike** answer alike. -/
theorem answersAlike_of_forall₂ (hall : List.Forall₂ Holding.Alike l r) :
    AnswersAlike ⟨l⟩ ⟨r⟩ where
  ownerOf := ownerOf_of_alike hall
  claimants := claimants_of_alike hall
  overlaps values := by simp only [overlaps, claimants_of_alike hall]

end Alike

theorem answersAlike_refl (i : OwnershipIndex) : i.AnswersAlike i :=
  ⟨fun _ => rfl, fun _ => rfl, fun _ => rfl⟩

variable {p : Policy} {i : OwnershipIndex} {f : ModuleId → ModuleSpec → ModuleSpec}

/-- **Specifications that compile to holdings alike** make an index that answers
alike. -/
theorem exists_ofPolicy_mapSpecs [PatternEngine] (hi : ofPolicy p = .ok i)
    (hf : ∀ {m spec h}, Holding.compile m spec = .ok h →
      ∃ h', Holding.compile m (f m spec) = .ok h' ∧ h.Alike h') :
    ∃ j, ofPolicy (p.mapSpecs f) = .ok j ∧ i.AnswersAlike j := by
  have hall := mapM_eq_ok_iff.1 (ofPolicy_eq_ok_iff.1 hi)
  obtain ⟨holdings, hcompile, halike⟩ : ∃ r,
      List.Forall₂ (fun d h => Holding.compile d.1 (f d.1 d.2) = .ok h) p.declarations r ∧
        List.Forall₂ Holding.Alike i.holdings r := by
    generalize p.declarations = l, i.holdings = r at hall
    induction hall with
    | nil => exact ⟨[], .nil, .nil⟩
    | cons hd _ ih =>
      obtain ⟨h', hh', halike⟩ := hf hd
      obtain ⟨r, hr, hrest⟩ := ih
      exact ⟨h' :: r, .cons hh' hr, .cons halike hrest⟩
  refine ⟨⟨holdings⟩, ofPolicy_eq_ok_iff.2 (mapM_eq_ok_iff.2 ?_), answersAlike_of_forall₂ halike⟩
  exact List.forall₂_map_left_iff.2 hcompile

/-- Slashes in namespaces leave the index as it is. -/
theorem ofPolicy_slashNamespaces [PatternEngine] (chosen : ModuleId → Nat → Bool) :
    ofPolicy (p.mapSpecs fun m => .slashNamespaces (chosen m)) = ofPolicy p := by
  unfold ofPolicy Policy.mapSpecs
  simp only [List.mapM_map, Function.comp_def, Holding.compile_slashNamespaces]

theorem claimants_withSlashes (i : OwnershipIndex) (value : String) :
    i.claimants (withSlashes '\\' value) = i.claimants value := by
  simp only [claimants, withSlashes_withSlashes]

theorem ownerOf_withSlashes [PatternEngine] (hi : ofPolicy p = .ok i) {value : String}
    (hvalue : ¬ p.contains value) (hslashed : ¬ p.contains (withSlashes '\\' value)) :
    i.ownerOf (withSlashes '\\' value) = i.ownerOf value := by
  have hne : ∀ {text : String}, ¬ p.contains text → ∀ d ∈ p.declarations, d.1.text ≠ text :=
    fun htext d hd he => htext (Policy.contains_iff.2 ⟨d.1, List.mem_map_of_mem hd, he⟩)
  rw [ownerOf_of_text_ne hi (hne hslashed), ownerOf_of_text_ne hi (hne hvalue),
    withSlashes_withSlashes]

/-- **Ownership is blind to the separators of values and namespaces, and globs with a
backslash are dead.** With slashes for its backslashes a value has the same claimants,
and the same owner if neither of the two texts is a declared identifier. Slashes for
the backslashes of any namespaces change no answer for any value, and neither does
leaving out all path globs with a backslash. -/
theorem separators_do_not_matter [PatternEngine] (p : Policy) (hp : p.PathsCompile) :
    ∃ i, ofPolicy p = .ok i ∧
      (∀ value, i.claimants (withSlashes '\\' value) = i.claimants value) ∧
      (∀ value, ¬ p.contains value → ¬ p.contains (withSlashes '\\' value) →
        i.ownerOf (withSlashes '\\' value) = i.ownerOf value) ∧
      (∀ chosen : ModuleId → Nat → Bool, ∃ j,
        ofPolicy (p.mapSpecs fun m => .slashNamespaces (chosen m)) = .ok j ∧ i.AnswersAlike j) ∧
      ∃ j, ofPolicy (p.mapSpecs fun _ => .withoutBackslashGlobs) = .ok j ∧ i.AnswersAlike j := by
  obtain ⟨i, hi⟩ := exists_ofPolicy_iff.2 hp
  refine ⟨i, hi, i.claimants_withSlashes, fun _ => ownerOf_withSlashes hi, fun chosen => ?_, ?_⟩
  · exact ⟨i, (ofPolicy_slashNamespaces chosen).trans hi, i.answersAlike_refl⟩
  · exact exists_ofPolicy_mapSpecs hi Holding.exists_compile_withoutBackslashGlobs

/-! The workshop writes one of its two namespaces, and one of its two globs, with
backslashes. -/

def workshopId : ModuleId := ⟨"workshop", by decide⟩

def workshopSpec : ModuleSpec where
  ownsPaths := ["bench\\*", "bench/*"]
  ownsNamespaces := ["Tools\\Saw", "Tools/Drill"]

def workshopPolicy : Policy := .ofList [(workshopId, workshopSpec)]

def pathGlob (s : String) : Glob := ⟨s, .path, GlobToken.ofChars s.toList⟩

def workshopHolding : Holding :=
  ⟨workshopId, ["Tools/Saw", "Tools/Drill"], [pathGlob "bench\\*", pathGlob "bench/*"]⟩

theorem separators_do_not_matter_workshop : ∃ i, ofPolicy workshopPolicy = .ok i ∧
    i.ownerOf "bench\\vice" = some ⟨workshopId, .path "bench/*"⟩ ∧
      i.ownerOf "bench/vice" = i.ownerOf "bench\\vice" ∧
      i.claimants "Tools/Saw/blade" = i.claimants "Tools\\Saw\\blade" ∧
      (∃ j, ofPolicy (workshopPolicy.mapSpecs fun _ => .slashNamespaces (· = 0)) = .ok j ∧
        j.ownerOf "Tools\\Saw" = i.ownerOf "Tools\\Saw") ∧
      ∃ j, ofPolicy (workshopPolicy.mapSpecs fun _ => .withoutBackslashGlobs) = .ok j ∧
        j.ownerOf "bench\\vice" = i.ownerOf "bench\\vice" := by
  have compiled : ofPolicy workshopPolicy = .ok ⟨[workshopHolding]⟩ := by rfl
  have slashed_vice : withSlashes '\\' "bench\\vice" = "bench/vice" := by decide
  have slashed_blade : withSlashes '\\' "Tools\\Saw\\blade" = "Tools/Saw/blade" := by decide
  obtain ⟨i, hi, hclaimants, howner, hnamespaces, j, hj, hglobs⟩ :=
    separators_do_not_matter workshopPolicy (exists_ofPolicy_iff.1 ⟨_, compiled⟩)
  obtain rfl := Except.ok.inj (compiled.symm.trans hi)
  obtain ⟨k, hk, hslashed⟩ := hnamespaces fun _ place => place = 0
  have hvice := howner "bench\\vice" (by decide) (by decide)
  have hblade := hclaimants "Tools\\Saw\\blade"
  rw [slashed_vice] at hvice
  rw [slashed_blade] at hblade
  exact ⟨_, hi, by decide, hvice, hblade, ⟨k, hk, hslashed.ownerOf _⟩, j, hj, hglobs.ownerOf _⟩

end OwnershipIndex

end ModulePolicy
