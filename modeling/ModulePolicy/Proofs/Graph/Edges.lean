/-
# The edges of a policy graph

A graph keeps its edges four times, by caller and by target for each kind, and
lists them a fifth time. All of these agree with each other and with the policy
(`mirrors_policy`):

| part | holds `x`, `y` of a kind if |
| --- | --- |
| targets of `x`, callers of `y`, list of edges | `y` is declared and lists the caller `x` |
| nodes | declared modules and ends of listed edges |

The list is in strictly ascending order within each kind, since the maps it is
read from are (`Adjacency.pairwise_pairs`), so no edge stands in it twice and its
length is the number of edges (`Adjacency.length_pairs`). What counts for a module
that was declared again is its last specification alone
(`mem_edges_insert_iff`).
-/

import ModulePolicy.Proofs.Graph.Content
import ModulePolicy.Proofs.Module.History

namespace ModulePolicy

namespace Adjacency

variable (adjacency : Adjacency)

/-- **Pairs ascend** by node, and those of one node by neighbour. -/
theorem pairwise_pairs :
    adjacency.pairs.Pairwise fun a b => a.1 < b.1 ∨ a.1 = b.1 ∧ a.2 < b.2 := by
  unfold pairs
  rw [List.pairwise_flatMap]
  constructor
  · intro e _
    have hkeys : e.2.keys.Pairwise (· < ·) := e.2.ascending_keys
    exact List.pairwise_map.2 (hkeys.imp fun hlt => .inr ⟨rfl, hlt⟩)
  · refine adjacency.ascending.imp fun {d e} hlt a ha b hb => .inl ?_
    obtain ⟨_, _, rfl⟩ := List.mem_map.1 ha
    obtain ⟨_, _, rfl⟩ := List.mem_map.1 hb
    exact hlt

theorem length_pairs : adjacency.pairs.length = adjacency.pairCount := by
  have hsizes : (adjacency.entries.map fun e => e.2.size).sum = adjacency.pairCount := by
    rw [List.sum_eq_foldl, List.foldl_map, pairCount]
  simp only [pairs, List.length_flatMap, List.length_map, OrderedMap.length_keys, hsizes]

end Adjacency

/-- The first edge stands before the second: its caller is smaller, or it is the
same and the target smaller. -/
def Edge.Before (a b : Edge) : Prop :=
  a.source < b.source ∨ a.source = b.source ∧ a.target < b.target

theorem Edge.Before.ne {a b : Edge} (h : a.Before b) : a ≠ b := by
  rintro rfl
  rcases h with h | ⟨-, h⟩
  · exact String.lt_irrefl _ h
  · exact String.lt_irrefl _ h

namespace PolicyGraph

/-- The parts of a graph agree with each other and with a policy. -/
structure Mirrors (g : PolicyGraph) (p : Policy) : Prop where
  mem_outbound_iff : ∀ kind x y, y ∈ (g.outbound kind x).keys ↔ ⟨x, y, kind⟩ ∈ g.edges
  mem_inbound_iff : ∀ kind x y, x ∈ (g.inbound kind y).keys ↔ ⟨x, y, kind⟩ ∈ g.edges
  mem_edges_iff : ∀ kind x y,
    ⟨x, y, kind⟩ ∈ g.edges ↔ ∃ spec, p.spec? y = some spec ∧ x ∈ spec.callers kind
  mem_nodes_iff : ∀ x,
    x ∈ g.nodes.keys ↔ (∃ id ∈ p.ids, id.text = x) ∨ ∃ e ∈ g.edges, e.source = x ∨ e.target = x
  allowed_first : g.edges =
    g.edges.filter (·.kind = .allowed) ++ g.edges.filter (·.kind = .forbidden)
  ascending : ∀ kind, (g.edges.filter (·.kind = kind)).Pairwise Edge.Before
  nodup_edges : g.edges.Nodup
  edgeCount_eq : g.edgeCount = g.edges.length

section Listing

variable (g : PolicyGraph)

/-- The edges of a kind, as listed. -/
def edgesOfKind : EdgeKind → List Edge
  | .allowed => g.allowed.pairs.map fun p => ⟨p.1, p.2, .allowed⟩
  | .forbidden => g.forbidden.pairs.map fun p => ⟨p.1, p.2, .forbidden⟩

theorem edges_eq : g.edges = g.edgesOfKind .allowed ++ g.edgesOfKind .forbidden := rfl

theorem kind_of_mem_edgesOfKind {kind : EdgeKind} {e : Edge} (h : e ∈ g.edgesOfKind kind) :
    e.kind = kind := by
  cases kind <;> obtain ⟨_, _, rfl⟩ := List.mem_map.1 h <;> rfl

theorem pairwise_edgesOfKind (kind : EdgeKind) : (g.edgesOfKind kind).Pairwise Edge.Before := by
  cases kind
  · exact List.pairwise_map.2 g.allowed.pairwise_pairs
  · exact List.pairwise_map.2 g.forbidden.pairwise_pairs

/-- The listed edges of a kind are the part of the list with that kind. -/
theorem filter_edges (kind : EdgeKind) :
    g.edges.filter (·.kind = kind) = g.edgesOfKind kind := by
  have hsame : (g.edgesOfKind kind).filter (·.kind = kind) = g.edgesOfKind kind :=
    List.filter_eq_self.2 fun e he => decide_eq_true (g.kind_of_mem_edgesOfKind he)
  have hother : ∀ other, other ≠ kind → (g.edgesOfKind other).filter (·.kind = kind) = [] :=
    fun other hne => List.filter_eq_nil_iff.2 fun e he => by
      rw [g.kind_of_mem_edgesOfKind he]
      exact fun h => hne (of_decide_eq_true h)
  rw [edges_eq, List.filter_append]
  cases kind with
  | allowed => rw [hsame, hother .forbidden (by decide), List.append_nil]
  | forbidden => rw [hsame, hother .allowed (by decide), List.nil_append]

/-- **No edge is listed twice.** -/
theorem nodup_edges : g.edges.Nodup := by
  rw [edges_eq]
  refine List.nodup_append.2 ⟨?_, ?_, fun a ha b hb heq => ?_⟩
  · exact (g.pairwise_edgesOfKind .allowed).imp Edge.Before.ne
  · exact (g.pairwise_edgesOfKind .forbidden).imp Edge.Before.ne
  · have hkind := g.kind_of_mem_edgesOfKind ha
    rw [heq, g.kind_of_mem_edgesOfKind hb] at hkind
    cases hkind

theorem edgeCount_eq_length_edges : g.edgeCount = g.edges.length := by
  simp only [edgeCount, edges, List.length_append, List.length_map, Adjacency.length_pairs]

end Listing

section OfPolicy

variable (p : Policy)

/-- **An edge is a caller that a declared module lists.** -/
theorem mem_edges_iff_spec? {e : Edge} :
    e ∈ (ofPolicy p).edges ↔
      ∃ spec, p.spec? e.target = some spec ∧ e.source ∈ spec.callers e.kind := by
  simp only [mem_edges_ofPolicy_iff, mem_edgesOf_iff, Policy.spec?, Option.map_eq_some_iff,
    Policy.find?_eq_some_iff]
  constructor
  · rintro ⟨d, hd, htarget, hsource⟩
    exact ⟨d.2, ⟨d, ⟨hd, htarget.symm⟩, rfl⟩, hsource⟩
  · rintro ⟨_, ⟨d, ⟨hd, htext⟩, rfl⟩, hsource⟩
    exact ⟨d, hd, htext.symm, hsource⟩

/-- **A replaced specification leaves no edge behind.** -/
theorem mem_edges_insert_iff (id : ModuleId) (spec : ModuleSpec) {e : Edge} :
    e ∈ (ofPolicy (p.insert id spec).2).edges ↔
      if e.target = id.text then e.source ∈ spec.callers e.kind else e ∈ (ofPolicy p).edges := by
  simp only [mem_edges_iff_spec?, Policy.spec?, Policy.find?_insert, eq_comm (a := e.target)]
  split <;> simp

/-- **Nodes are declared modules and ends of edges.** -/
theorem mem_nodes_iff (x : String) :
    x ∈ (ofPolicy p).nodes.keys ↔
      (∃ id ∈ p.ids, id.text = x) ∨
        ∃ e ∈ (ofPolicy p).edges, e.source = x ∨ e.target = x := by
  have hcontains : (ofPolicy p).nodes.contains x ↔ _ := contains_ofPolicy p x
  rw [OrderedMap.mem_keys, hcontains]
  simp only [mem_edges_ofPolicy_iff, Policy.ids, List.mem_map]
  constructor
  · rintro ⟨d, hd, htext | ⟨e, he, hend⟩⟩
    · exact .inl ⟨d.1, ⟨d, hd, rfl⟩, htext⟩
    · exact .inr ⟨e, ⟨d, hd, he⟩, hend⟩
  · rintro (⟨_, ⟨d, hd, rfl⟩, htext⟩ | ⟨e, ⟨d, hd, he⟩, hend⟩)
    · exact ⟨d, hd, .inl htext⟩
    · exact ⟨d, hd, .inr ⟨e, he, hend⟩⟩

/-- **A policy graph mirrors its policy.** Whichever way an edge is looked up,
it is there if its target is declared and lists its caller. The nodes are the
declared modules and the ends of edges. The edges are listed once each, the
allowed ones first, each kind ascending by caller and target, and the count of
edges is the length of the list. When a module is declared again, the edges to it
are those of the new specification, and all others stay. -/
theorem mirrors_policy :
    (ofPolicy p).Mirrors p ∧ ∀ id spec e,
      e ∈ (ofPolicy (p.insert id spec).2).edges ↔
        if e.target = id.text then e.source ∈ spec.callers e.kind
        else e ∈ (ofPolicy p).edges := by
  refine ⟨?_, fun id spec e => mem_edges_insert_iff p id spec⟩
  have hcontains : ∀ kind x y,
      ((ofPolicy p).outbound kind x).contains y ↔ ⟨x, y, kind⟩ ∈ (ofPolicy p).edges :=
    fun kind x y => (mem_edges_iff (e := ⟨x, y, kind⟩)).symm
  exact
    { mem_outbound_iff := fun kind x y => OrderedMap.mem_keys.trans (hcontains kind x y)
      mem_inbound_iff := fun kind x y => OrderedMap.mem_keys.trans
        (((consistent_ofPolicy p).inbound_iff kind x y).trans (hcontains kind x y))
      mem_edges_iff := fun kind x y => mem_edges_iff_spec? p
      mem_nodes_iff := mem_nodes_iff p
      allowed_first := by rw [filter_edges, filter_edges, edges_eq]
      ascending := fun kind => by
        rw [filter_edges]
        exact pairwise_edgesOfKind _ kind
      nodup_edges := nodup_edges _
      edgeCount_eq := edgeCount_eq_length_edges _ }

end OfPolicy

end PolicyGraph

end ModulePolicy
