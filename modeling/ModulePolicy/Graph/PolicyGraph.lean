/-
# Policy graphs

The graph of a policy has an edge from each listed caller to the module that
lists it, of the kind of the list. A caller stands for itself, as it is written:
it becomes a node whether or not it is a declared module.

| part | content |
| --- | --- |
| `nodes` | declared modules and callers |
| `allowed`, `forbidden` | the targets of each caller |
| `allowedInbound`, `forbiddenInbound` | the callers of each target |

Every part is ordered, so equal graphs have equal parts.
-/

import ModulePolicy.Collection.OrderedMap
import ModulePolicy.Module.Policy

namespace ModulePolicy

inductive EdgeKind
  | allowed
  | forbidden
deriving DecidableEq

namespace EdgeKind

def name : EdgeKind → String
  | allowed => "allowed"
  | forbidden => "forbidden"

end EdgeKind

/-- A caller and a target, with the list that joins them. -/
structure Edge where
  source : String
  target : String
  kind : EdgeKind
deriving DecidableEq

/-- A set of neighbours for each node that has some. -/
abbrev Adjacency := OrderedMap OrderedSet

namespace Adjacency

def neighbours (adjacency : Adjacency) (node : String) : OrderedSet :=
  (adjacency.get? node).getD .empty

/-- Makes `b` a neighbour of `a`. -/
def link (adjacency : Adjacency) (a b : String) : Adjacency :=
  adjacency.insert a ((adjacency.neighbours a).add b)

/-- All pairs of a node and a neighbour, ascending. -/
def pairs (adjacency : Adjacency) : List (String × String) :=
  adjacency.entries.flatMap fun e => e.2.keys.map fun b => (e.1, b)

/-- How many pairs there are. -/
def pairCount (adjacency : Adjacency) : Nat :=
  adjacency.entries.foldl (fun n e => n + e.2.size) 0

theorem contains_neighbours_link (adjacency : Adjacency) (a b x y : String) :
    ((adjacency.link a b).neighbours x).contains y ↔
      (a = x ∧ b = y) ∨ (adjacency.neighbours x).contains y := by
  unfold link
  rw [neighbours, OrderedMap.get?_insert]
  by_cases h : x = a
  · subst h
    simp [OrderedSet.contains_add]
  · simp [neighbours, h, Ne.symm h]

/-- The pairs list what `neighbours` answers. -/
theorem mem_pairs_iff {adjacency : Adjacency} {x y : String} :
    (x, y) ∈ adjacency.pairs ↔ (adjacency.neighbours x).contains y := by
  simp only [pairs, List.mem_flatMap, List.mem_map, Prod.mk.injEq]
  constructor
  · rintro ⟨e, he, b, hb, rfl, rfl⟩
    have hx : adjacency.get? e.1 = some e.2 := OrderedMap.get?_eq_some_iff.2 he
    rw [neighbours, hx]
    exact OrderedMap.mem_keys_iff.1 hb
  · intro h
    rcases hx : adjacency.get? x with _ | targets
    · simp [neighbours, hx, OrderedMap.contains, OrderedMap.get?_empty] at h
    · rw [neighbours, hx] at h
      exact ⟨(x, targets), OrderedMap.get?_eq_some_iff.1 hx, y, OrderedMap.mem_keys_iff.2 h,
        rfl, rfl⟩

end Adjacency

structure PolicyGraph where
  nodes : OrderedSet
  allowed : Adjacency
  forbidden : Adjacency
  allowedInbound : Adjacency
  forbiddenInbound : Adjacency
deriving DecidableEq

namespace PolicyGraph

def empty : PolicyGraph := ⟨.empty, .empty, .empty, .empty, .empty⟩

def addNode (g : PolicyGraph) (node : String) : PolicyGraph :=
  { g with nodes := g.nodes.add node }

/-- Adds an edge, in both directions, and its two ends. -/
def addEdge (g : PolicyGraph) (e : Edge) : PolicyGraph :=
  let g := (g.addNode e.source).addNode e.target
  match e.kind with
  | .allowed => { g with
      allowed := g.allowed.link e.source e.target
      allowedInbound := g.allowedInbound.link e.target e.source }
  | .forbidden => { g with
      forbidden := g.forbidden.link e.source e.target
      forbiddenInbound := g.forbiddenInbound.link e.target e.source }

/-- The edges that one declaration asks for. -/
def edgesOf (id : ModuleId) (spec : ModuleSpec) : List Edge :=
  spec.allowedCallers.map (⟨·, id.text, .allowed⟩) ++
    spec.forbiddenCallers.map (⟨·, id.text, .forbidden⟩)

/-- Adds a module and the edges of its declaration. -/
def addModule (g : PolicyGraph) (id : ModuleId) (spec : ModuleSpec) : PolicyGraph :=
  (edgesOf id spec).foldl addEdge (g.addNode id.text)

def ofPolicy (p : Policy) : PolicyGraph :=
  p.declarations.foldl (fun g d => g.addModule d.1 d.2) empty

def contains (g : PolicyGraph) (node : String) : Bool := g.nodes.contains node

/-- The targets of a caller. -/
def outbound (g : PolicyGraph) (kind : EdgeKind) (node : String) : OrderedSet :=
  match kind with
  | .allowed => g.allowed.neighbours node
  | .forbidden => g.forbidden.neighbours node

/-- The callers of a target. -/
def inbound (g : PolicyGraph) (kind : EdgeKind) (node : String) : OrderedSet :=
  match kind with
  | .allowed => g.allowedInbound.neighbours node
  | .forbidden => g.forbiddenInbound.neighbours node

/-- All nodes one edge away, in either direction. -/
def neighbours (g : PolicyGraph) (node : String) : List String :=
  (g.outbound .allowed node).keys ++ (g.inbound .allowed node).keys ++
    (g.outbound .forbidden node).keys ++ (g.inbound .forbidden node).keys

/-- All edges: the allowed ones first, each kind by caller and target. -/
def edges (g : PolicyGraph) : List Edge :=
  g.allowed.pairs.map (fun p => ⟨p.1, p.2, .allowed⟩) ++
    g.forbidden.pairs.map (fun p => ⟨p.1, p.2, .forbidden⟩)

def edgeCount (g : PolicyGraph) : Nat := g.allowed.pairCount + g.forbidden.pairCount

end PolicyGraph

end ModulePolicy
