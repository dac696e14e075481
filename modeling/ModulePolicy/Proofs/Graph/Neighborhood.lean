/-
# Neighborhoods are exact

The neighborhood of some seeds in the graph of a policy holds the nodes that a
walk within the radius reaches from a seed, each with the least number of steps,
and the edges between them (`neighborhood_exact`). Nothing else about the seeds
counts than which nodes are among them.

The lemmas before it are about any consistent graph.
-/

import Mathlib.Order.Bounds.Defs
import ModulePolicy.Proofs.Graph.Search

namespace ModulePolicy

namespace Search

/-- At radius zero nothing is found beyond the seeds. -/
theorem distances_run_zero (g : PolicyGraph) (n : Nat) (s : Search) :
    (run g 0 n s).distances = s.distances := by
  induction n generalizing s with
  | zero => rfl
  | succ n ih =>
    rw [run, ih, Search.step]
    split
    · rfl
    · rw [if_pos (Nat.zero_le _)]

end Search

namespace PolicyGraph

variable {g : PolicyGraph}

/-- Both radii that `neighborhood` tells apart come from the same search. -/
theorem distances_neighborhood (g : PolicyGraph) (seeds : List String) (radius : Nat) :
    (g.neighborhood seeds radius).distances =
      ((Search.start g seeds).run g radius g.nodes.size).distances := by
  unfold neighborhood
  split
  · rename_i h
    subst h
    exact (Search.distances_run_zero g g.nodes.size _).symm
  · rfl

/-- The edges shown are those between the modules, in their order. -/
theorem edges_neighborhood (g : PolicyGraph) (seeds : List String) (radius : Nat) :
    (g.neighborhood seeds radius).edges =
      if radius = 0 then []
      else g.edges.filter fun e =>
        e.source ∈ (g.neighborhood seeds radius).modules ∧
          e.target ∈ (g.neighborhood seeds radius).modules := by
  simp only [Neighborhood.modules, OrderedMap.mem_keys]
  unfold neighborhood
  split <;> simp

namespace Consistent

variable {seeds : List String} {radius : Nat}

/-- **Distances are least numbers of steps,** within the radius. -/
theorem distance?_neighborhood_iff (h : g.Consistent) {x : String} {d : Nat} :
    (g.neighborhood seeds radius).distance? x = some d ↔
      d ≤ radius ∧ IsLeast {n | g.Reaches seeds n x} d := by
  rw [Neighborhood.distance?, distances_neighborhood, Search.get?_run_start_iff h]
  rfl

/-- **The modules are the nodes within the radius.** -/
theorem mem_modules_neighborhood_iff (h : g.Consistent) {x : String} :
    x ∈ (g.neighborhood seeds radius).modules ↔ ∃ n ≤ radius, g.Reaches seeds n x := by
  rw [Neighborhood.modules, OrderedMap.mem_keys, OrderedMap.contains_iff]
  constructor
  · rintro ⟨d, hd⟩
    obtain ⟨hle, hx, -⟩ := h.distance?_neighborhood_iff.1 hd
    exact ⟨d, hle, hx⟩
  · rintro ⟨n, hn, hx⟩
    obtain ⟨d, hd, -⟩ := Search.exists_get?_run_start h hn hx
    exact ⟨d, by rw [distances_neighborhood, hd]⟩

/-- **Only the set of known seeds counts.** -/
theorem neighborhood_congr (h : g.Consistent) {seeds' : List String}
    (hs : ∀ x, g.contains x → (x ∈ seeds' ↔ x ∈ seeds)) (radius : Nat) :
    g.neighborhood seeds' radius = g.neighborhood seeds radius := by
  have hdistances : (g.neighborhood seeds' radius).distances =
      (g.neighborhood seeds radius).distances := by
    refine OrderedMap.ext_get? fun x => Option.ext fun d => ?_
    have h' : (g.neighborhood seeds' radius).distance? x = some d ↔
        d ≤ radius ∧ IsLeast {n | g.Reaches seeds' n x} d := h.distance?_neighborhood_iff
    simp only [reaches_congr hs] at h'
    exact h'.trans h.distance?_neighborhood_iff.symm
  have hedges : (g.neighborhood seeds' radius).edges = (g.neighborhood seeds radius).edges := by
    rw [edges_neighborhood, edges_neighborhood, Neighborhood.modules, Neighborhood.modules,
      hdistances]
  exact Neighborhood.ext hdistances hedges

end Consistent

/-- **Neighborhoods are exact.** Whatever the seeds and the radius, the modules
are the nodes that a walk within the radius reaches from a known seed, the
distances are the least numbers of steps of such walks, and the edges are those
between modules, in their order, or none at radius zero. Seeds may be listed in
any order and repeatedly, and unknown ones change nothing. -/
theorem neighborhood_exact (p : Policy) (seeds : List String) (radius : Nat) :
    let g := ofPolicy p
    let view := g.neighborhood seeds radius
    (∀ x, x ∈ view.modules ↔ ∃ n ≤ radius, g.Reaches seeds n x) ∧
      (∀ x, (view.distance? x).isSome ↔ x ∈ view.modules) ∧
      (∀ x d, view.distance? x = some d → IsLeast {n | g.Reaches seeds n x} d) ∧
      (view.edges = if radius = 0 then []
        else g.edges.filter fun e => e.source ∈ view.modules ∧ e.target ∈ view.modules) ∧
      ∀ seeds' : List String, (∀ x, g.contains x → (x ∈ seeds' ↔ x ∈ seeds)) →
        g.neighborhood seeds' radius = view := by
  intro g view
  have h : g.Consistent := consistent_ofPolicy p
  refine ⟨fun x => h.mem_modules_neighborhood_iff, fun x => ?_, fun x d hd => ?_, ?_, ?_⟩
  · exact OrderedMap.mem_keys_iff.symm
  · exact (h.distance?_neighborhood_iff.1 hd).2
  · exact edges_neighborhood g seeds radius
  · intro seeds' hs
    exact h.neighborhood_congr hs radius

end PolicyGraph

end ModulePolicy
