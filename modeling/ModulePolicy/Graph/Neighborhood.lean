/-
# Neighborhoods

The neighborhood of some seeds holds every node that a number of steps reaches
from one of them, a step following an edge in either direction. It is found by
breadth-first search from all seeds at once.

A search keeps the distance of every node found and a queue of found nodes that
are still to be looked at. A node enters the queue once, when it is found, so a
search needs no more steps than the graph has nodes.
-/

import ModulePolicy.Graph.PolicyGraph

namespace ModulePolicy

structure Search where
  distances : OrderedMap Nat
  queue : List (String × Nat)

namespace Search

/-- Finds a node at a distance, unless it has been found before. -/
def discover (distance : Nat) (s : Search) (node : String) : Search :=
  if s.distances.contains node then s
  else ⟨s.distances.insert node distance, s.queue ++ [(node, distance)]⟩

/-- The search that has found the seeds among the nodes. -/
def start (g : PolicyGraph) (seeds : List String) : Search :=
  (seeds.filter g.contains).foldl (discover 0) ⟨.empty, []⟩

/-- Takes the first node off the queue and finds its neighbours, unless they
lie beyond the radius. -/
def step (g : PolicyGraph) (radius : Nat) (s : Search) : Search :=
  match s.queue with
  | [] => s
  | (node, distance) :: queue =>
    if radius ≤ distance then { s with queue := queue }
    else (g.neighbours node).foldl (discover (distance + 1)) { s with queue := queue }

/-- The search after a number of steps. -/
def run (g : PolicyGraph) (radius : Nat) : Nat → Search → Search
  | 0, s => s
  | n + 1, s => run g radius n (s.step g radius)

end Search

/-- The nodes found with their distances, and the edges shown between them. -/
structure Neighborhood where
  distances : OrderedMap Nat
  edges : List Edge

namespace Neighborhood

@[ext] theorem ext {m n : Neighborhood} (hd : m.distances = n.distances) (he : m.edges = n.edges) :
    m = n := by
  cases m; cases n; cases hd; cases he; rfl

def modules (n : Neighborhood) : List String := n.distances.keys

def isEmpty (n : Neighborhood) : Bool := n.modules.isEmpty

def distance? (n : Neighborhood) (node : String) : Option Nat := n.distances.get? node

end Neighborhood

namespace PolicyGraph

/-- The neighborhood of some seeds, with all edges between its nodes. Seeds
that are no nodes are passed over. Radius zero shows the seeds alone, without
edges. -/
def neighborhood (g : PolicyGraph) (seeds : List String) (radius : Nat) : Neighborhood :=
  let started := Search.start g seeds
  if radius = 0 then ⟨started.distances, []⟩
  else
    let found := (started.run g radius g.nodes.size).distances
    ⟨found, g.edges.filter fun e => found.contains e.source && found.contains e.target⟩

end PolicyGraph

end ModulePolicy
