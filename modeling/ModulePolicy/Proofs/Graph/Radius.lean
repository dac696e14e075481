/-
# What the radius does

A node has a distance from some seeds if a walk reaches it (`HasDistance`), and
a neighborhood shows the nodes whose distance is within the radius
(`distance?_neighborhood_iff`). A smaller radius therefore cuts a larger
neighborhood short.

Distances leave no gaps: on a shortest walk to a node at distance `d` stands a
node at every smaller distance (`HasDistance.exists_of_le`). So

* a radius that adds no module is followed by none that does;
* the nodes on a shortest walk are all different, and a distance is less than
  the number of nodes (`Consistent.lt_size`), which makes this number a radius
  that shows everything there is to see.
-/

import Mathlib.Data.Nat.Find
import ModulePolicy.Proofs.Graph.Neighborhood

namespace ModulePolicy

/-- The entries of a map that holds a part of another one. -/
theorem OrderedMap.entries_eq_filter {α : Type} {m n : OrderedMap α} {P : String × α → Bool}
    (h : ∀ k v, m.get? k = some v ↔ n.get? k = some v ∧ P (k, v)) :
    m.entries = n.entries.filter P := by
  let part : OrderedMap α := ⟨n.entries.filter P, n.ascending.filter P⟩
  have hpart : m = part := OrderedMap.ext_get? fun k => Option.ext fun v => by
    rw [h, get?_eq_some_iff, get?_eq_some_iff]
    exact List.mem_filter.symm
  exact congrArg entries hpart

theorem Neighborhood.mem_modules_iff {n : Neighborhood} {x : String} :
    x ∈ n.modules ↔ ∃ d, n.distance? x = some d :=
  OrderedMap.mem_keys_iff.trans Option.isSome_iff_exists

namespace PolicyGraph

variable {g : PolicyGraph} {seeds : List String} {x : String} {d : Nat}

/-- The least number of steps of a walk from one of the seeds to a node. -/
def HasDistance (g : PolicyGraph) (seeds : List String) (x : String) (d : Nat) : Prop :=
  IsLeast {n | g.Reaches seeds n x} d

theorem exists_hasDistance {n : Nat} (hx : g.Reaches seeds n x) :
    ∃ d ≤ n, g.HasDistance seeds x d := by
  classical
  have hex : ∃ n, g.Reaches seeds n x := ⟨n, hx⟩
  exact ⟨Nat.find hex, Nat.find_min' hex hx, Nat.find_spec hex, fun m hm => Nat.find_min' hex hm⟩

namespace HasDistance

/-- The last step of a shortest walk comes from a node one nearer. -/
theorem exists_pred (h : g.HasDistance seeds x (d + 1)) :
    ∃ y, g.HasDistance seeds y d ∧ g.Joined y x := by
  obtain ⟨hx, hleast⟩ := h
  obtain ⟨y, hy, hj⟩ := reaches_succ_iff.1 hx
  refine ⟨y, ⟨hy, fun n hn => ?_⟩, hj⟩
  have hlonger : g.Reaches seeds (n + 1) x := reaches_succ_iff.2 ⟨y, hn, hj⟩
  exact Nat.le_of_succ_le_succ (hleast hlonger)

/-- **Distances leave no gaps.** -/
theorem exists_of_le (h : g.HasDistance seeds x d) {n : Nat} (hn : n ≤ d) :
    ∃ y, g.HasDistance seeds y n := by
  induction d generalizing x with
  | zero =>
    obtain rfl := Nat.le_zero.1 hn
    exact ⟨x, h⟩
  | succ d ih =>
    rcases Nat.le_succ_iff.1 hn with hn | rfl
    · obtain ⟨y, hy, -⟩ := h.exists_pred
      exact ih hy hn
    · exact ⟨x, h⟩

/-- The nodes of a shortest walk are as many as its steps and one more, and all
different since their distances are. -/
theorem exists_nodup (h : g.HasDistance seeds x d) :
    ∃ l : List String, l.length = d + 1 ∧ l.Nodup ∧
      ∀ y ∈ l, ∃ n ≤ d, g.HasDistance seeds y n := by
  induction d generalizing x with
  | zero => exact ⟨[x], rfl, List.nodup_singleton x, by simpa using h⟩
  | succ d ih =>
    obtain ⟨y, hy, -⟩ := h.exists_pred
    obtain ⟨l, hlength, hnodup, hl⟩ := ih hy
    have hnew : x ∉ l := fun hx => by
      obtain ⟨n, hn, hxn⟩ := hl x hx
      have := h.2 hxn.1
      omega
    refine ⟨x :: l, by rw [List.length_cons, hlength], List.nodup_cons.2 ⟨hnew, hnodup⟩,
      List.forall_mem_cons.2 ⟨⟨d + 1, le_rfl, h⟩, fun y hy => ?_⟩⟩
    obtain ⟨n, hn, hyn⟩ := hl y hy
    exact ⟨n, Nat.le_succ_of_le hn, hyn⟩

end HasDistance

namespace Consistent

variable {r r₁ r₂ : Nat}

/-- **A distance is less than the number of nodes.** -/
theorem lt_size (h : g.Consistent) (hx : g.HasDistance seeds x d) : d < g.nodes.size := by
  obtain ⟨l, hlength, hnodup, hl⟩ := hx.exists_nodup
  have hsubset : l ⊆ g.nodes.keys := fun y hy => by
    obtain ⟨n, -, hyn⟩ := hl y hy
    exact OrderedMap.mem_keys.2 (h.contains_of_reaches hyn.1)
  have hle := hnodup.length_le_of_subset hsubset
  rw [OrderedMap.length_keys] at hle
  omega

/-- **A smaller radius keeps the distances that it allows.** -/
theorem distance?_of_le (h : g.Consistent) (hr : r₁ ≤ r₂) :
    (g.neighborhood seeds r₁).distance? x = some d ↔
      (g.neighborhood seeds r₂).distance? x = some d ∧ d ≤ r₁ := by
  rw [h.distance?_neighborhood_iff, h.distance?_neighborhood_iff]
  constructor
  · rintro ⟨hd, hx⟩
    exact ⟨⟨Nat.le_trans hd hr, hx⟩, hd⟩
  · rintro ⟨⟨-, hx⟩, hd⟩
    exact ⟨hd, hx⟩

theorem mem_modules_iff_of_le (h : g.Consistent) (hr : r₁ ≤ r₂) :
    x ∈ (g.neighborhood seeds r₁).modules ↔
      ∃ d ≤ r₁, (g.neighborhood seeds r₂).distance? x = some d := by
  simp only [Neighborhood.mem_modules_iff, h.distance?_of_le hr, and_comm]

theorem entries_distances_of_le (h : g.Consistent) (hr : r₁ ≤ r₂) :
    (g.neighborhood seeds r₁).distances.entries =
      (g.neighborhood seeds r₂).distances.entries.filter (·.2 ≤ r₁) :=
  OrderedMap.entries_eq_filter fun _ _ => by
    rw [decide_eq_true_eq]
    exact h.distance?_of_le hr

/-- **A smaller radius shows fewer edges,** in the same order. -/
theorem edges_sublist_of_le (h : g.Consistent) (hr : r₁ ≤ r₂) :
    (g.neighborhood seeds r₁).edges.Sublist (g.neighborhood seeds r₂).edges := by
  have hsubset : ∀ y, y ∈ (g.neighborhood seeds r₁).modules →
      y ∈ (g.neighborhood seeds r₂).modules := fun y hy => by
    obtain ⟨d, -, hd⟩ := (h.mem_modules_iff_of_le hr).1 hy
    exact Neighborhood.mem_modules_iff.2 ⟨d, hd⟩
  rw [edges_neighborhood, edges_neighborhood]
  by_cases hzero : r₁ = 0
  · rw [if_pos hzero]
    exact List.nil_sublist _
  · rw [if_neg hzero, if_neg (by omega)]
    refine List.monotone_filter_right _ fun e he => ?_
    simp only [decide_eq_true_eq] at he ⊢
    exact ⟨hsubset _ he.1, hsubset _ he.2⟩

/-- A larger radius shows nothing new if no distance lies between the two. -/
theorem distances_eq_of_gap (h : g.Consistent) (hr : r₁ ≤ r₂)
    (hgap : ∀ x d, g.HasDistance seeds x d → d ≤ r₁) :
    (g.neighborhood seeds r₂).distances = (g.neighborhood seeds r₁).distances := by
  refine OrderedMap.ext_get? fun x => Option.ext fun d => ?_
  refine Iff.trans ⟨fun hd => ?_, fun hd => hd.1⟩ (h.distance?_of_le hr).symm
  exact ⟨hd, hgap x d (h.distance?_neighborhood_iff.1 hd).2⟩

/-- **A step of the radius that adds no module is the last.** -/
theorem modules_eq_of_succ (h : g.Consistent)
    (heq : (g.neighborhood seeds (r + 1)).modules = (g.neighborhood seeds r).modules)
    {r' : Nat} (hr : r ≤ r') :
    (g.neighborhood seeds r').modules = (g.neighborhood seeds r).modules := by
  have hgap : ∀ x d, g.HasDistance seeds x d → d ≤ r := fun x d hx => by
    by_contra hd
    obtain ⟨y, hy⟩ := hx.exists_of_le (Nat.lt_of_not_le hd)
    have hmem : y ∈ (g.neighborhood seeds (r + 1)).modules :=
      Neighborhood.mem_modules_iff.2 ⟨r + 1, h.distance?_neighborhood_iff.2 ⟨le_rfl, hy⟩⟩
    rw [heq, h.mem_modules_neighborhood_iff] at hmem
    obtain ⟨n, hn, hyn⟩ := hmem
    have := hy.2 hyn
    omega
  rw [Neighborhood.modules, Neighborhood.modules, h.distances_eq_of_gap hr hgap]

/-- At a radius that shows everything radius zero is no exception: a graph
without nodes has no edges. -/
theorem edges_neighborhood_of_size_le (h : g.Consistent) (hr : g.nodes.size ≤ r) :
    (g.neighborhood seeds r).edges = g.edges.filter fun e =>
      e.source ∈ (g.neighborhood seeds r).modules ∧
        e.target ∈ (g.neighborhood seeds r).modules := by
  rw [edges_neighborhood]
  split
  · rename_i hzero
    refine (List.filter_eq_nil_iff.2 fun e he => ?_).symm
    have hsource := OrderedMap.mem_keys.2 (h.contains_source e he)
    have hpos := List.length_pos_of_mem hsource
    rw [OrderedMap.length_keys] at hpos
    omega
  · rfl

/-- **From the number of nodes on every radius shows the same.** -/
theorem neighborhood_of_size_le (h : g.Consistent) (hr : g.nodes.size ≤ r) :
    g.neighborhood seeds r = g.neighborhood seeds g.nodes.size := by
  have hgap : ∀ x d, g.HasDistance seeds x d → d ≤ g.nodes.size := fun x d hx =>
    Nat.le_of_lt (h.lt_size hx)
  have hdistances := h.distances_eq_of_gap hr hgap
  refine Neighborhood.ext hdistances ?_
  rw [h.edges_neighborhood_of_size_le hr, h.edges_neighborhood_of_size_le le_rfl,
    Neighborhood.modules, Neighborhood.modules, hdistances]

/-- **No edge leads out of what is shown then.** -/
theorem mem_modules_of_joined (h : g.Consistent) (hr : g.nodes.size ≤ r) {y : String}
    (hx : x ∈ (g.neighborhood seeds r).modules) (hj : g.Joined x y) :
    y ∈ (g.neighborhood seeds r).modules := by
  obtain ⟨n, -, hxn⟩ := h.mem_modules_neighborhood_iff.1 hx
  obtain ⟨d, -, hy⟩ := exists_hasDistance (reaches_succ_iff.2 ⟨x, hxn, hj⟩)
  have hd : d ≤ r := Nat.le_trans (Nat.le_of_lt (h.lt_size hy)) hr
  exact h.mem_modules_neighborhood_iff.2 ⟨d, hd, hy.1⟩

theorem mem_edges_of_endpoint (h : g.Consistent) (hr : g.nodes.size ≤ r) {e : Edge}
    (he : e ∈ g.edges)
    (hend : e.source ∈ (g.neighborhood seeds r).modules ∨
      e.target ∈ (g.neighborhood seeds r).modules) :
    e.source ∈ (g.neighborhood seeds r).modules ∧
      e.target ∈ (g.neighborhood seeds r).modules ∧ e ∈ (g.neighborhood seeds r).edges := by
  have hends : e.source ∈ (g.neighborhood seeds r).modules ∧
      e.target ∈ (g.neighborhood seeds r).modules := by
    rcases hend with hsource | htarget
    · exact ⟨hsource, h.mem_modules_of_joined hr hsource ⟨e.kind, .inl he⟩⟩
    · exact ⟨h.mem_modules_of_joined hr htarget ⟨e.kind, .inr he⟩, htarget⟩
  refine ⟨hends.1, hends.2, ?_⟩
  rw [h.edges_neighborhood_of_size_le hr]
  exact List.mem_filter.2 ⟨he, decide_eq_true hends⟩

end Consistent

/-- **A radius cuts short, and in the end shows everything.** A smaller radius
shows the modules, with their distances, that lie within it, and a part of the
edges. Once a radius adds no module, no larger one does. From the number of
nodes on all radii show the same, and then every edge with one end among the
modules is shown with both. -/
theorem neighborhood_truncates (p : Policy) (seeds : List String) :
    let g := ofPolicy p
    let view := g.neighborhood seeds
    (∀ r₁ r₂, r₁ ≤ r₂ →
      (∀ x, x ∈ (view r₁).modules ↔ ∃ d ≤ r₁, (view r₂).distance? x = some d) ∧
      (view r₁).distances.entries = (view r₂).distances.entries.filter (·.2 ≤ r₁) ∧
      (view r₁).edges.Sublist (view r₂).edges) ∧
    (∀ r, (view (r + 1)).modules = (view r).modules →
      ∀ r' ≥ r, (view r').modules = (view r).modules) ∧
    ∀ r ≥ g.nodes.size, view r = view g.nodes.size ∧
      ∀ e ∈ g.edges, e.source ∈ (view r).modules ∨ e.target ∈ (view r).modules →
        e.source ∈ (view r).modules ∧ e.target ∈ (view r).modules ∧ e ∈ (view r).edges := by
  intro g view
  have h : g.Consistent := consistent_ofPolicy p
  refine ⟨fun r₁ r₂ hr => ⟨fun x => ?_, ?_, ?_⟩, fun r heq r' hr => ?_, fun r hr => ⟨?_, ?_⟩⟩
  · exact h.mem_modules_iff_of_le hr
  · exact h.entries_distances_of_le hr
  · exact h.edges_sublist_of_le hr
  · exact h.modules_eq_of_succ heq hr
  · exact h.neighborhood_of_size_le hr
  · intro e he hend
    exact h.mem_edges_of_endpoint hr he hend

/-! A chain of callers, seen from its end. -/

def chainPolicy : Policy :=
  .ofList [(⟨"store", by decide⟩, { allowedCallers := ["web"] }),
    (⟨"web", by decide⟩, { allowedCallers := ["mobile"] })]

theorem neighborhood_truncates_chain :
    let view := (ofPolicy chainPolicy).neighborhood ["store"]
    1 ≤ 2 ∧ (view 1).distances.entries = (view 2).distances.entries.filter (·.2 ≤ 1) ∧
      (view (2 + 1)).modules = (view 2).modules ∧ (view 9).modules = (view 2).modules ∧
        (ofPolicy chainPolicy).nodes.size ≤ 3 ∧ "mobile" ∈ (view 3).modules ∧
          ⟨"mobile", "web", .allowed⟩ ∈ (view 3).edges := by
  intro view
  obtain ⟨truncates, stops, full⟩ := neighborhood_truncates chainPolicy ["store"]
  have hsame : (view (2 + 1)).modules = (view 2).modules := by decide
  have hsize : (ofPolicy chainPolicy).nodes.size ≤ 3 := by decide
  have hmobile : "mobile" ∈ (view 3).modules := by decide
  obtain ⟨-, hedges⟩ := full 3 hsize
  obtain ⟨-, -, hshown⟩ := hedges ⟨"mobile", "web", .allowed⟩ (by decide) (.inl hmobile)
  exact ⟨by decide, (truncates 1 2 (by decide)).2.1, hsame, stops 2 hsame 9 (by decide), hsize,
    hmobile, hshown⟩

end PolicyGraph

end ModulePolicy
