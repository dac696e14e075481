/-
# Walks

A step of a walk follows an edge of either kind, in either direction. A node is
reached from some seeds in `n` steps if a walk of `n` steps leads to it from one
of them that is a node of the graph. The least such `n` is its distance.

The list of neighbours that a search looks at is the list of nodes one step away
(`mem_neighbours_iff`).
-/

import ModulePolicy.Graph.Neighborhood
import ModulePolicy.Proofs.Graph.Content

namespace ModulePolicy
namespace PolicyGraph

/-- An edge of either kind leads from one node to the other, or back. -/
def Joined (g : PolicyGraph) (x y : String) : Prop :=
  ∃ kind, ⟨x, y, kind⟩ ∈ g.edges ∨ ⟨y, x, kind⟩ ∈ g.edges

/-- Walks by the number of their steps. -/
inductive Walk (g : PolicyGraph) : Nat → String → String → Prop
  | nil (x : String) : Walk g 0 x x
  | step {n : Nat} {x y z : String} : Walk g n x y → g.Joined y z → Walk g (n + 1) x z

/-- A walk of `n` steps leads from a seed that is a node to `x`. -/
def Reaches (g : PolicyGraph) (seeds : List String) (n : Nat) (x : String) : Prop :=
  ∃ seed ∈ seeds, g.contains seed ∧ g.Walk n seed x

variable {g : PolicyGraph} {seeds : List String}

theorem reaches_zero_iff {x : String} : g.Reaches seeds 0 x ↔ x ∈ seeds ∧ g.contains x := by
  constructor
  · rintro ⟨seed, hs, hg, hw⟩
    cases hw
    exact ⟨hs, hg⟩
  · rintro ⟨hs, hg⟩
    exact ⟨x, hs, hg, .nil x⟩

theorem reaches_succ_iff {n : Nat} {x : String} :
    g.Reaches seeds (n + 1) x ↔ ∃ y, g.Reaches seeds n y ∧ g.Joined y x := by
  constructor
  · rintro ⟨seed, hs, hg, hw⟩
    cases hw with
    | step hw hj => exact ⟨_, ⟨seed, hs, hg, hw⟩, hj⟩
  · rintro ⟨y, ⟨seed, hs, hg, hw⟩, hj⟩
    exact ⟨seed, hs, hg, .step hw hj⟩

/-- Only the set of known seeds counts. -/
theorem reaches_congr {seeds' : List String}
    (h : ∀ x, g.contains x → (x ∈ seeds' ↔ x ∈ seeds)) (n : Nat) (x : String) :
    g.Reaches seeds' n x ↔ g.Reaches seeds n x := by
  constructor
  · rintro ⟨seed, hs, hg, hw⟩
    exact ⟨seed, (h seed hg).1 hs, hg, hw⟩
  · rintro ⟨seed, hs, hg, hw⟩
    exact ⟨seed, (h seed hg).2 hs, hg, hw⟩

namespace Consistent

theorem joined_iff (h : g.Consistent) {x y : String} :
    g.Joined x y ↔ ∃ kind, (g.outbound kind x).contains y ∨ (g.inbound kind x).contains y := by
  simp only [Joined, mem_edges_iff, h.inbound_iff]

/-- **What a search looks at is what is joined.** -/
theorem mem_neighbours_iff (h : g.Consistent) {x y : String} :
    y ∈ g.neighbours x ↔ g.Joined x y := by
  rw [h.joined_iff]
  simp only [neighbours, List.mem_append, OrderedMap.mem_keys]
  constructor
  · rintro (((h | h) | h) | h)
    · exact ⟨.allowed, .inl h⟩
    · exact ⟨.allowed, .inr h⟩
    · exact ⟨.forbidden, .inl h⟩
    · exact ⟨.forbidden, .inr h⟩
  · rintro ⟨_ | _, h | h⟩
    · exact .inl (.inl (.inl h))
    · exact .inl (.inl (.inr h))
    · exact .inl (.inr h)
    · exact .inr h

theorem contains_of_joined (h : g.Consistent) {x y : String} (hj : g.Joined x y) :
    g.contains y := by
  obtain ⟨kind, he | he⟩ := hj
  · exact h.contains_target _ he
  · exact h.contains_source _ he

/-- Walks stay within the nodes. -/
theorem contains_of_reaches (h : g.Consistent) {n : Nat} {x : String}
    (hx : g.Reaches seeds n x) : g.contains x := by
  cases n with
  | zero => exact (reaches_zero_iff.1 hx).2
  | succ n =>
    obtain ⟨y, -, hj⟩ := reaches_succ_iff.1 hx
    exact h.contains_of_joined hj

end Consistent

end PolicyGraph
end ModulePolicy
