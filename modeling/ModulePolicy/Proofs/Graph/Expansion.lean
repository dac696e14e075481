/-
# Expanding a view

A view is expanded by taking its modules as the seeds of another one. This is
the same as a view of both radii from the start (`neighborhood_expands`):

* a walk can be cut after any number of its steps, and walks that meet can be
  joined (`reaches_add_iff`), so a node is reached from the modules of a view if
  it is reached from its seeds, in more steps by no more than the radius
  (`Consistent.reaches_modules_iff`);
* a node outside the view is farther away than its radius, so a shortest walk to
  it leaves the view after exactly that many steps
  (`Consistent.hasDistance_modules`).
-/

import ModulePolicy.Proofs.Graph.Radius

namespace ModulePolicy
namespace PolicyGraph

variable {g : PolicyGraph} {seeds : List String} {m n r : Nat} {x y z : String}

theorem Walk.append (h : g.Walk m x y) (h' : g.Walk n y z) : g.Walk (m + n) x z := by
  induction h' with
  | nil => exact h
  | step _ hj ih => exact .step (ih h) hj

/-- A walk can be cut after any number of its steps. -/
theorem Walk.exists_cut (h : g.Walk (m + n) x z) : ∃ y, g.Walk m x y ∧ g.Walk n y z := by
  induction n generalizing z with
  | zero => exact ⟨z, h, .nil z⟩
  | succ n ih =>
    cases h with
    | step h hj =>
      obtain ⟨y, hxy, hyw⟩ := ih h
      exact ⟨y, hxy, .step hyw hj⟩

theorem reaches_add_iff :
    g.Reaches seeds (m + n) z ↔ ∃ y, g.Reaches seeds m y ∧ g.Walk n y z := by
  constructor
  · rintro ⟨seed, hs, hg, hw⟩
    obtain ⟨y, hy, hz⟩ := hw.exists_cut
    exact ⟨y, ⟨seed, hs, hg, hy⟩, hz⟩
  · rintro ⟨y, ⟨seed, hs, hg, hy⟩, hz⟩
    exact ⟨seed, hs, hg, hy.append hz⟩

namespace Consistent

variable (h : g.Consistent)

include h

/-- **What is reached from the modules of a view** is reached from its seeds,
in as many steps and those to the module. -/
theorem reaches_modules_iff :
    g.Reaches (g.neighborhood seeds r).modules n x ↔ ∃ m ≤ r, g.Reaches seeds (m + n) x := by
  constructor
  · rintro ⟨y, hy, -, hw⟩
    obtain ⟨m, hm, hreach⟩ := h.mem_modules_neighborhood_iff.1 hy
    exact ⟨m, hm, reaches_add_iff.2 ⟨y, hreach, hw⟩⟩
  · rintro ⟨m, hm, hreach⟩
    obtain ⟨y, hy, hw⟩ := reaches_add_iff.1 hreach
    exact ⟨y, h.mem_modules_neighborhood_iff.2 ⟨m, hm, hy⟩, h.contains_of_reaches hy, hw⟩

/-- A node outside a view is farther away than the radius. -/
theorem lt_of_not_mem_modules {d : Nat} (hd : g.HasDistance seeds x d)
    (hx : x ∉ (g.neighborhood seeds r).modules) : r < d := by
  by_contra hle
  exact hx (h.mem_modules_neighborhood_iff.2 ⟨d, Nat.le_of_not_lt hle, hd.1⟩)

/-- **Beyond a view distances count from its modules.** -/
theorem hasDistance_modules {d : Nat} (hd : g.HasDistance seeds x (r + d)) :
    g.HasDistance (g.neighborhood seeds r).modules x d := by
  obtain ⟨hreach, hleast⟩ := hd
  refine ⟨h.reaches_modules_iff.2 ⟨r, le_rfl, hreach⟩, fun n hn => ?_⟩
  obtain ⟨m, hm, hreach'⟩ := h.reaches_modules_iff.1 hn
  have hle : r + d ≤ m + n := hleast hreach'
  omega

theorem mem_modules_expanded_iff {r₁ r₂ : Nat} :
    x ∈ (g.neighborhood (g.neighborhood seeds r₁).modules r₂).modules ↔
      x ∈ (g.neighborhood seeds (r₁ + r₂)).modules := by
  simp only [h.mem_modules_neighborhood_iff, h.reaches_modules_iff]
  constructor
  · rintro ⟨n, hn, m, hm, hreach⟩
    exact ⟨m + n, Nat.add_le_add hm hn, hreach⟩
  · rintro ⟨k, hk, hreach⟩
    -- the first part takes what it can of the steps
    refine ⟨k - min k r₁, by omega, min k r₁, Nat.min_le_right k r₁, ?_⟩
    rwa [Nat.add_sub_cancel' (Nat.min_le_left k r₁)]

theorem distance?_expanded {r₁ r₂ : Nat} (hx : x ∈ (g.neighborhood seeds (r₁ + r₂)).modules)
    (hout : x ∉ (g.neighborhood seeds r₁).modules) :
    ∃ d, (g.neighborhood (g.neighborhood seeds r₁).modules r₂).distance? x = some d ∧
      (g.neighborhood seeds (r₁ + r₂)).distance? x = some (r₁ + d) := by
  obtain ⟨k, hk⟩ := Neighborhood.mem_modules_iff.1 hx
  obtain ⟨hle, hdistance⟩ := h.distance?_neighborhood_iff.1 hk
  -- a shortest walk to `x` leaves the first view, so it has `r₁` steps to spare
  have hlt : r₁ < k := h.lt_of_not_mem_modules hdistance hout
  obtain ⟨d, rfl⟩ := Nat.exists_eq_add_of_le (Nat.le_of_lt hlt)
  have hd : d ≤ r₂ := by omega
  exact ⟨d, h.distance?_neighborhood_iff.2 ⟨hd, h.hasDistance_modules hdistance⟩, hk⟩

end Consistent

/-- **Expanding a view composes.** The modules that are seen within `r₂` steps
of those seen within `r₁` steps are the ones seen within `r₁ + r₂` steps, and the
distance of each that the first view does not show is `r₁` more than its
distance from the first view. -/
theorem neighborhood_expands (p : Policy) (seeds : List String) (r₁ r₂ : Nat) :
    let g := ofPolicy p
    let first := g.neighborhood seeds r₁
    let second := g.neighborhood first.modules r₂
    let whole := g.neighborhood seeds (r₁ + r₂)
    second.modules = whole.modules ∧
      ∀ x ∈ whole.modules, x ∉ first.modules →
        ∃ d, second.distance? x = some d ∧ whole.distance? x = some (r₁ + d) := by
  intro g first second whole
  have h : g.Consistent := consistent_ofPolicy p
  exact ⟨OrderedMap.keys_eq fun x => h.mem_modules_expanded_iff,
    fun x hx hout => h.distance?_expanded hx hout⟩

/-! The chain of callers from the other end: the first view stops at the web,
and the store is one step farther. -/

theorem neighborhood_expands_chain :
    let g := ofPolicy chainPolicy
    let first := g.neighborhood ["mobile", "unknown"] 1
    let second := g.neighborhood first.modules 2
    let whole := g.neighborhood ["mobile", "unknown"] (1 + 2)
    second.modules = whole.modules ∧ "store" ∈ whole.modules ∧ "store" ∉ first.modules ∧
      ∃ d, second.distance? "store" = some d ∧ whole.distance? "store" = some (1 + d) := by
  intro g first second whole
  obtain ⟨hmodules, hdistances⟩ := neighborhood_expands chainPolicy ["mobile", "unknown"] 1 2
  have hstore : "store" ∈ whole.modules := by decide
  have hout : "store" ∉ first.modules := by decide
  exact ⟨hmodules, hstore, hout, hdistances "store" hstore hout⟩

end PolicyGraph
end ModulePolicy
