/-
# Equality of policy graphs

Graphs are compared part by part, and their maps with the keys that stand in
them. A map of neighbours could tell a node whose set is empty from a node that
is missing. No part of the graph of a policy holds an empty set
(`filled_ofPolicy`), since a node gets its entry together with its first
neighbour. So a part is determined by what its nodes are linked to
(`Adjacency.Filled.ext`), the parts by target are those by caller turned round,
and the whole graph is determined by its nodes and its list of edges
(`ofPolicy_extensional`).

| change to a policy | graph |
| --- | --- |
| order of the declarations | same |
| order and repetitions in a list of callers | same |
| any other list of a module, its remark | same |
-/

import ModulePolicy.Proofs.Graph.Edges

namespace ModulePolicy

namespace OrderedSet

theorem get?_eq_some_iff_contains {s : OrderedSet} {x : String} {u : Unit} :
    s.get? x = some u ↔ s.contains x := by
  rw [OrderedMap.contains_iff]
  exact ⟨fun h => ⟨u, h⟩, fun ⟨_, h⟩ => h⟩

/-- A set is determined by its members. -/
theorem ext_contains {s t : OrderedSet} (h : ∀ x, s.contains x ↔ t.contains x) : s = t :=
  OrderedMap.ext_get? fun x => Option.ext fun u => by
    rw [get?_eq_some_iff_contains, get?_eq_some_iff_contains, h]

end OrderedSet

namespace Adjacency

/-- No node stands in the map without a neighbour. -/
def Filled (adjacency : Adjacency) : Prop :=
  ∀ x targets, adjacency.get? x = some targets → ∃ y, targets.contains y

theorem filled_empty : Filled .empty := fun _ _ h => by cases h

namespace Filled

variable {adjacency m n : Adjacency}

theorem link (h : adjacency.Filled) (a b : String) : (adjacency.link a b).Filled :=
  OrderedMap.forall_get?_insert ⟨b, (OrderedSet.contains_add _ b b).2 (.inl rfl)⟩ h

/-- A node stands in the map, with its neighbours, if it has some. -/
theorem get?_eq_some_iff (h : adjacency.Filled) {x : String} {targets : OrderedSet} :
    adjacency.get? x = some targets ↔
      adjacency.neighbours x = targets ∧ ∃ y, targets.contains y := by
  constructor
  · intro hx
    exact ⟨by rw [neighbours, hx, Option.getD_some], h x targets hx⟩
  · rintro ⟨rfl, y, hy⟩
    cases hx : adjacency.get? x with
    | none =>
      rw [neighbours, hx] at hy
      cases hy
    | some targets => rw [neighbours, hx, Option.getD_some]

/-- **Without empty sets a map is determined by its links.** -/
theorem ext (hm : m.Filled) (hn : n.Filled)
    (h : ∀ x y, (m.neighbours x).contains y ↔ (n.neighbours x).contains y) : m = n := by
  refine OrderedMap.ext_get? fun x => Option.ext fun targets => ?_
  have hx : m.neighbours x = n.neighbours x := OrderedSet.ext_contains (h x)
  rw [hm.get?_eq_some_iff, hn.get?_eq_some_iff, hx]

end Filled

end Adjacency

namespace PolicyGraph

@[ext] theorem ext {g g' : PolicyGraph} (hnodes : g.nodes = g'.nodes)
    (hallowed : g.allowed = g'.allowed) (hforbidden : g.forbidden = g'.forbidden)
    (hallowedInbound : g.allowedInbound = g'.allowedInbound)
    (hforbiddenInbound : g.forbiddenInbound = g'.forbiddenInbound) : g = g' := by
  cases g; cases g'; cases hnodes; cases hallowed; cases hforbidden
  cases hallowedInbound; cases hforbiddenInbound
  rfl

/-- No part of a graph holds an empty set. -/
structure Filled (g : PolicyGraph) : Prop where
  allowed : g.allowed.Filled
  forbidden : g.forbidden.Filled
  allowedInbound : g.allowedInbound.Filled
  forbiddenInbound : g.forbiddenInbound.Filled

theorem filled_empty : empty.Filled where
  allowed := Adjacency.filled_empty
  forbidden := Adjacency.filled_empty
  allowedInbound := Adjacency.filled_empty
  forbiddenInbound := Adjacency.filled_empty

namespace Filled

variable {g : PolicyGraph} (h : g.Filled)

include h

theorem addNode (a : String) : (g.addNode a).Filled :=
  ⟨h.allowed, h.forbidden, h.allowedInbound, h.forbiddenInbound⟩

/-- An edge brings a neighbour along for either end. -/
theorem addEdge (e : Edge) : (g.addEdge e).Filled := by
  obtain ⟨a, b, kind⟩ := e
  cases kind with
  | allowed =>
    exact ⟨h.allowed.link a b, h.forbidden, h.allowedInbound.link b a, h.forbiddenInbound⟩
  | forbidden =>
    exact ⟨h.allowed, h.forbidden.link a b, h.allowedInbound, h.forbiddenInbound.link b a⟩

theorem addModule (id : ModuleId) (spec : ModuleSpec) : (g.addModule id spec).Filled :=
  List.foldlRecOn _ _ (h.addNode id.text) fun _ h e _ => h.addEdge e

end Filled

/-- **No part of the graph of a policy holds an empty set.** -/
theorem filled_ofPolicy (p : Policy) : (ofPolicy p).Filled :=
  List.foldlRecOn _ _ filled_empty fun _ h d _ => h.addModule d.1 d.2

/-- **Nodes and edges determine a graph** whose parts agree and hold no empty
set. -/
theorem Consistent.eq_of_edges {g g' : PolicyGraph} (h : g.Consistent) (h' : g'.Consistent)
    (hfilled : g.Filled) (hfilled' : g'.Filled)
    (hnodes : ∀ x, x ∈ g.nodes.keys ↔ x ∈ g'.nodes.keys)
    (hedges : ∀ e, e ∈ g.edges ↔ e ∈ g'.edges) : g = g' := by
  have houtbound : ∀ kind x y,
      (g.outbound kind x).contains y ↔ (g'.outbound kind x).contains y := fun kind x y =>
    (mem_edges_iff (e := ⟨x, y, kind⟩)).symm.trans ((hedges _).trans mem_edges_iff)
  have hinbound : ∀ kind y x,
      (g.inbound kind y).contains x ↔ (g'.inbound kind y).contains x := fun kind y x => by
    rw [h.inbound_iff, h'.inbound_iff, houtbound]
  exact ext
    (OrderedSet.ext_contains fun x => by rw [← OrderedMap.mem_keys, hnodes, OrderedMap.mem_keys])
    (hfilled.allowed.ext hfilled'.allowed (houtbound .allowed))
    (hfilled.forbidden.ext hfilled'.forbidden (houtbound .forbidden))
    (hfilled.allowedInbound.ext hfilled'.allowedInbound (hinbound .allowed))
    (hfilled.forbiddenInbound.ext hfilled'.forbiddenInbound (hinbound .forbidden))

theorem ofPolicy_eq_of_edges {p q : Policy}
    (hnodes : ∀ x, x ∈ (ofPolicy p).nodes.keys ↔ x ∈ (ofPolicy q).nodes.keys)
    (hedges : ∀ e, e ∈ (ofPolicy p).edges ↔ e ∈ (ofPolicy q).edges) : ofPolicy p = ofPolicy q :=
  (consistent_ofPolicy p).eq_of_edges (consistent_ofPolicy q) (filled_ofPolicy p)
    (filled_ofPolicy q) hnodes hedges

/-- A module and its namesake list the same callers of either kind, in whatever
order and however often. -/
def SameCallers (d e : ModuleId × ModuleSpec) : Prop :=
  d.1 = e.1 ∧ ∀ kind x, x ∈ d.2.callers kind ↔ x ∈ e.2.callers kind

theorem SameCallers.symm {d e : ModuleId × ModuleSpec} (h : SameCallers d e) : SameCallers e d :=
  ⟨h.1.symm, fun kind x => (h.2 kind x).symm⟩

/-- The declarations of one policy, put into some order, list the callers of
the other. -/
def Rearranged (p q : Policy) : Prop :=
  ∃ declarations, p.declarations.Perm declarations ∧
    List.Forall₂ SameCallers declarations q.declarations

namespace Rearranged

variable {p q : Policy} (h : Rearranged p q)

include h

theorem exists_source {e : ModuleId × ModuleSpec} (he : e ∈ q.declarations) :
    ∃ d ∈ p.declarations, SameCallers d e := by
  obtain ⟨declarations, hperm, hsame⟩ := h
  obtain ⟨d, hd, hde⟩ := exists_mem_of_forall₂ hsame he
  exact ⟨d, hperm.mem_iff.2 hd, hde⟩

theorem exists_target {d : ModuleId × ModuleSpec} (hd : d ∈ p.declarations) :
    ∃ e ∈ q.declarations, SameCallers d e := by
  obtain ⟨declarations, hperm, hsame⟩ := h
  obtain ⟨e, he, hde⟩ := exists_mem_of_forall₂ hsame.flip (hperm.mem_iff.1 hd)
  exact ⟨e, he, hde⟩

theorem mem_edges_iff {e : Edge} : e ∈ (ofPolicy p).edges ↔ e ∈ (ofPolicy q).edges := by
  simp only [mem_edges_ofPolicy_iff, mem_edgesOf_iff]
  constructor
  · rintro ⟨d, hd, htarget, hsource⟩
    obtain ⟨d', hd', hid, hcallers⟩ := h.exists_target hd
    exact ⟨d', hd', htarget.trans (congrArg ModuleId.text hid),
      (hcallers e.kind e.source).1 hsource⟩
  · rintro ⟨d', hd', htarget, hsource⟩
    obtain ⟨d, hd, hid, hcallers⟩ := h.exists_source hd'
    exact ⟨d, hd, htarget.trans (congrArg ModuleId.text hid.symm),
      (hcallers e.kind e.source).2 hsource⟩

theorem mem_ids_iff {id : ModuleId} : id ∈ p.ids ↔ id ∈ q.ids := by
  simp only [Policy.ids, List.mem_map]
  constructor
  · rintro ⟨d, hd, rfl⟩
    obtain ⟨d', hd', hid, -⟩ := h.exists_target hd
    exact ⟨d', hd', hid.symm⟩
  · rintro ⟨d', hd', rfl⟩
    obtain ⟨d, hd, hid, -⟩ := h.exists_source hd'
    exact ⟨d, hd, hid⟩

/-- **A policy that is rearranged has the same graph.** -/
theorem ofPolicy_eq : ofPolicy p = ofPolicy q :=
  ofPolicy_eq_of_edges (fun x => by simp only [mem_nodes_iff, h.mem_ids_iff, h.mem_edges_iff])
    fun _ => h.mem_edges_iff

end Rearranged

/-- **Graphs of policies are equal, in all their parts, exactly if they have the
same nodes and the same list of edges.** So they stay equal when the
declarations are put into another order, when callers are listed in another
order or repeatedly, and when anything else that is declared of a module
changes. -/
theorem ofPolicy_extensional (p q : Policy) :
    (ofPolicy p = ofPolicy q ↔
      (∀ x, x ∈ (ofPolicy p).nodes.keys ↔ x ∈ (ofPolicy q).nodes.keys) ∧
        (ofPolicy p).edges = (ofPolicy q).edges) ∧
      (Rearranged p q → ofPolicy p = ofPolicy q) := by
  refine ⟨⟨fun heq => ?_, fun ⟨hnodes, hedges⟩ => ?_⟩, Rearranged.ofPolicy_eq⟩
  · rw [heq]
    exact ⟨fun _ => Iff.rfl, rfl⟩
  · exact ofPolicy_eq_of_edges hnodes fun _ => by rw [hedges]

/-! A harbour that is declared in two ways. The second one starts with the
crane, repeats a caller and fills in what no graph shows. -/

def quayId : ModuleId := ⟨"harbour/quay", by decide⟩

def craneId : ModuleId := ⟨"harbour/crane", by decide⟩

def harbourPolicy : Policy :=
  .ofList [(quayId, { allowedCallers := ["ship", "train"], forbiddenCallers := ["tide"] }),
    (craneId, { allowedCallers := ["harbour/quay"] })]

def rearrangedHarbour : Policy :=
  .ofList [(craneId, { allowedCallers := ["harbour/quay"], ownsPaths := ["crane/**"] }),
    (quayId, { allowedCallers := ["train", "ship", "ship"], forbiddenCallers := ["tide"],
               notes := "deep water" })]

theorem rearranged_harbour : Rearranged harbourPolicy rearrangedHarbour := by
  refine ⟨harbourPolicy.declarations.reverse, (List.reverse_perm _).symm, ?_⟩
  show List.Forall₂ SameCallers [(craneId, _), (quayId, _)] [(craneId, _), (quayId, _)]
  refine .cons ⟨rfl, fun kind x => ?_⟩ (.cons ⟨rfl, fun kind x => ?_⟩ .nil)
  · cases kind <;> rfl
  · cases kind <;> simp [ModuleSpec.callers, or_comm]

theorem ofPolicy_extensional_harbour :
    Rearranged harbourPolicy rearrangedHarbour ∧ harbourPolicy ≠ rearrangedHarbour ∧
      ofPolicy harbourPolicy = ofPolicy rearrangedHarbour :=
  ⟨rearranged_harbour, by decide,
    (ofPolicy_extensional harbourPolicy rearrangedHarbour).2 rearranged_harbour⟩

end PolicyGraph

end ModulePolicy
