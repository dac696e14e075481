/-
# What a policy graph holds

A graph is put together edge by edge, in five parts at once. This module says
what the parts hold in the end: the targets and callers of each kind are those of
the edges that the declarations ask for, whichever way they are looked up
(`contains_outbound_ofPolicy`, `contains_inbound_ofPolicy`), and the nodes are
the modules and the ends of these edges (`contains_ofPolicy`). The edges to a
declared module are its own lists (`mem_edges_iff_mem_callers`).

`Consistent` keeps of this what a search of the graph relies on: the inbound
parts are the outbound ones turned round, and edges end in nodes.
-/

import Mathlib.Data.List.Nodup
import ModulePolicy.Graph.PolicyGraph

namespace ModulePolicy

/-- A property that each element of a list may bring about, and nothing takes
back. -/
theorem foldl_iff_exists {σ ε : Type} {f : σ → ε → σ} {P : σ → Prop} {Q : ε → Prop}
    (h : ∀ s e, P (f s e) ↔ Q e ∨ P s) (l : List ε) (s : σ) :
    P (l.foldl f s) ↔ (∃ e ∈ l, Q e) ∨ P s := by
  induction l generalizing s with
  | nil => simp
  | cons e l ih =>
    simp only [List.foldl_cons, ih, h, List.mem_cons, exists_eq_or_imp, or_assoc, or_left_comm]

/-- The list of callers that makes for edges of a kind. -/
def ModuleSpec.callers (spec : ModuleSpec) : EdgeKind → List String
  | .allowed => spec.allowedCallers
  | .forbidden => spec.forbiddenCallers

namespace PolicyGraph

theorem mem_edgesOf_iff {id : ModuleId} {spec : ModuleSpec} {e : Edge} :
    e ∈ edgesOf id spec ↔ e.target = id.text ∧ e.source ∈ spec.callers e.kind := by
  obtain ⟨x, y, kind⟩ := e
  cases kind <;> simp [edgesOf, ModuleSpec.callers, and_comm, eq_comm]

/-- The list of edges agrees with the targets of each caller. -/
theorem mem_edges_iff {g : PolicyGraph} {e : Edge} :
    e ∈ g.edges ↔ (g.outbound e.kind e.source).contains e.target := by
  obtain ⟨x, y, kind⟩ := e
  cases kind <;> simp [edges, outbound, Adjacency.mem_pairs_iff]

theorem contains_outbound_addEdge (g : PolicyGraph) (e : Edge) (kind : EdgeKind) (x y : String) :
    ((g.addEdge e).outbound kind x).contains y ↔
      e = ⟨x, y, kind⟩ ∨ (g.outbound kind x).contains y := by
  obtain ⟨a, b, k⟩ := e
  cases k <;> cases kind <;>
    simp [addEdge, addNode, outbound, Adjacency.contains_neighbours_link]

theorem contains_inbound_addEdge (g : PolicyGraph) (e : Edge) (kind : EdgeKind) (x y : String) :
    ((g.addEdge e).inbound kind y).contains x ↔
      e = ⟨x, y, kind⟩ ∨ (g.inbound kind y).contains x := by
  obtain ⟨a, b, k⟩ := e
  cases k <;> cases kind <;>
    simp [addEdge, addNode, inbound, Adjacency.contains_neighbours_link, and_comm]

@[simp] theorem outbound_addNode (g : PolicyGraph) (a : String) (kind : EdgeKind) (x : String) :
    (g.addNode a).outbound kind x = g.outbound kind x := by
  cases kind <;> rfl

@[simp] theorem inbound_addNode (g : PolicyGraph) (a : String) (kind : EdgeKind) (y : String) :
    (g.addNode a).inbound kind y = g.inbound kind y := by
  cases kind <;> rfl

@[simp] theorem contains_outbound_empty (kind : EdgeKind) (x y : String) :
    (empty.outbound kind x).contains y = false := by
  cases kind <;> rfl

@[simp] theorem contains_inbound_empty (kind : EdgeKind) (x y : String) :
    (empty.inbound kind y).contains x = false := by
  cases kind <;> rfl

@[simp] theorem contains_empty (x : String) : empty.contains x = false := rfl

theorem contains_addNode (g : PolicyGraph) (a x : String) :
    (g.addNode a).contains x ↔ a = x ∨ g.contains x := by
  simp [addNode, contains, OrderedSet.contains_add]

theorem contains_addEdge (g : PolicyGraph) (e : Edge) (x : String) :
    (g.addEdge e).contains x ↔ (e.source = x ∨ e.target = x) ∨ g.contains x := by
  obtain ⟨a, b, k⟩ := e
  cases k <;>
    simp [addEdge, addNode, contains, OrderedSet.contains_add, or_left_comm, or_assoc]

section AddModule

variable (g : PolicyGraph) (id : ModuleId) (spec : ModuleSpec)

theorem contains_outbound_addModule (kind : EdgeKind) (x y : String) :
    ((g.addModule id spec).outbound kind x).contains y ↔
      ⟨x, y, kind⟩ ∈ edgesOf id spec ∨ (g.outbound kind x).contains y := by
  have h := foldl_iff_exists (P := fun g => (g.outbound kind x).contains y)
    (fun g e => contains_outbound_addEdge g e kind x y) (edgesOf id spec) (g.addNode id.text)
  simpa [addModule] using h

theorem contains_inbound_addModule (kind : EdgeKind) (x y : String) :
    ((g.addModule id spec).inbound kind y).contains x ↔
      ⟨x, y, kind⟩ ∈ edgesOf id spec ∨ (g.inbound kind y).contains x := by
  have h := foldl_iff_exists (P := fun g => (g.inbound kind y).contains x)
    (fun g e => contains_inbound_addEdge g e kind x y) (edgesOf id spec) (g.addNode id.text)
  simpa [addModule] using h

theorem contains_addModule (x : String) :
    (g.addModule id spec).contains x ↔
      (id.text = x ∨ ∃ e ∈ edgesOf id spec, e.source = x ∨ e.target = x) ∨ g.contains x := by
  have h := foldl_iff_exists (P := fun g => g.contains x) (fun g e => contains_addEdge g e x)
    (edgesOf id spec) (g.addNode id.text)
  rw [addModule, h, contains_addNode, or_left_comm, or_assoc]

end AddModule

variable (p : Policy)

/-- **The targets of a caller** are the modules that list it. -/
theorem contains_outbound_ofPolicy (kind : EdgeKind) (x y : String) :
    ((ofPolicy p).outbound kind x).contains y ↔
      ∃ d ∈ p.declarations, ⟨x, y, kind⟩ ∈ edgesOf d.1 d.2 := by
  have h := foldl_iff_exists (P := fun g => (g.outbound kind x).contains y)
    (fun g d => contains_outbound_addModule g d.1 d.2 kind x y) p.declarations empty
  simpa [ofPolicy] using h

/-- **The callers of a target** are those that it lists. -/
theorem contains_inbound_ofPolicy (kind : EdgeKind) (x y : String) :
    ((ofPolicy p).inbound kind y).contains x ↔
      ∃ d ∈ p.declarations, ⟨x, y, kind⟩ ∈ edgesOf d.1 d.2 := by
  have h := foldl_iff_exists (P := fun g => (g.inbound kind y).contains x)
    (fun g d => contains_inbound_addModule g d.1 d.2 kind x y) p.declarations empty
  simpa [ofPolicy] using h

/-- **The nodes** are the modules and the ends of edges. -/
theorem contains_ofPolicy (x : String) :
    (ofPolicy p).contains x ↔
      ∃ d ∈ p.declarations,
        d.1.text = x ∨ ∃ e ∈ edgesOf d.1 d.2, e.source = x ∨ e.target = x := by
  have h := foldl_iff_exists (P := fun g => g.contains x)
    (fun g d => contains_addModule g d.1 d.2 x) p.declarations empty
  simpa [ofPolicy] using h

/-- **The edges** are those that the declarations ask for. -/
theorem mem_edges_ofPolicy_iff {e : Edge} :
    e ∈ (ofPolicy p).edges ↔ ∃ d ∈ p.declarations, e ∈ edgesOf d.1 d.2 := by
  rw [mem_edges_iff, contains_outbound_ofPolicy]

/-- What a search relies on. -/
structure Consistent (g : PolicyGraph) : Prop where
  inbound_iff : ∀ kind x y, (g.inbound kind y).contains x ↔ (g.outbound kind x).contains y
  contains_source : ∀ e ∈ g.edges, g.contains e.source
  contains_target : ∀ e ∈ g.edges, g.contains e.target

theorem consistent_ofPolicy : (ofPolicy p).Consistent where
  inbound_iff kind x y := by rw [contains_inbound_ofPolicy, contains_outbound_ofPolicy]
  contains_source e he := by
    obtain ⟨d, hd, h⟩ := (mem_edges_ofPolicy_iff p).1 he
    exact (contains_ofPolicy p e.source).2 ⟨d, hd, .inr ⟨e, h, .inl rfl⟩⟩
  contains_target e he := by
    obtain ⟨d, hd, h⟩ := (mem_edges_ofPolicy_iff p).1 he
    exact (contains_ofPolicy p e.target).2 ⟨d, hd, .inr ⟨e, h, .inr rfl⟩⟩

variable {p}

/-- **A declared module is the target of its own list,** since it is declared
once. -/
theorem mem_edges_iff_mem_callers {id : ModuleId} {spec : ModuleSpec}
    (hd : (id, spec) ∈ p.declarations) {x : String} {kind : EdgeKind} :
    ⟨x, id.text, kind⟩ ∈ (ofPolicy p).edges ↔ x ∈ spec.callers kind := by
  rw [mem_edges_ofPolicy_iff]
  constructor
  · rintro ⟨d, hd', he⟩
    obtain ⟨htext, hx⟩ := mem_edgesOf_iff.1 he
    obtain rfl : (id, spec) = d :=
      List.inj_on_of_nodup_map p.nodup_ids hd hd' (ModuleId.ext htext)
    exact hx
  · intro hx
    exact ⟨(id, spec), hd, mem_edgesOf_iff.2 ⟨rfl, hx⟩⟩

end PolicyGraph

end ModulePolicy
