import RideDispatch.Graph.CostQueue
import Std.Data.TreeMap.Basic

/-!
# Shortest paths

`Search.run` explores a graph from one node and settles nodes in the order of their distance. The
nodes are numbered as they are discovered, and a label is replaced only by a strictly cheaper one,
so among paths of the same cost the first one found stays. `Search.path?` walks back along the
labels.

A graph is given by its arcs. A node for which `arcs` gives nothing lies outside the graph; a
search that settles such a node halts there, and nodes that it has not settled by then are out of
its reach; the node itself has been reached.
-/

namespace RideDispatch

/-- An arc of a graph, seen from the node where it starts. -/
structure Arc where
  target : Nat
  cost : Nat
deriving DecidableEq, Repr

/-- What a search knows about a node that it has discovered. -/
structure Search.Label where
  node : Nat
  /-- The number of the label from which the node was reached; the source has none. -/
  parent : Option Nat
  cost : Nat
  settled : Bool
deriving DecidableEq, Repr, Inhabited

/-- A search from one node. -/
structure Search where
  /-- The discovered nodes, in the order of discovery. -/
  labels : Array Search.Label
  /-- The number of the label of each discovered node. -/
  numbers : Std.TreeMap Nat Nat
  queue : CostQueue
  /-- Whether the search has left the graph. -/
  astray : Bool

namespace Search

/-- A search that has discovered its source only. -/
def start (source : Nat) : Search where
  labels := #[⟨source, none, 0, false⟩]
  numbers := (∅ : Std.TreeMap Nat Nat).insert source 0
  queue := ({} : CostQueue).push 0 0
  astray := false

/-- Reaches the end of an arc from a settled node, at the given distance. -/
def reach (s : Search) (parent : Nat) (node cost : Nat) : Search :=
  match s.numbers[node]? with
  | none =>
    { s with
      labels := s.labels.push ⟨node, some parent, cost, false⟩
      numbers := s.numbers.insert node s.labels.size
      queue := s.queue.push cost s.labels.size }
  | some number =>
    match s.labels[number]? with
    | none => s
    | some label =>
      if cost < label.cost then
        { s with
          labels := s.labels.setIfInBounds number { label with parent := some parent, cost := cost }
          queue := s.queue.push cost number }
      else s

/-- Settles the next node of the queue. -/
def step? (arcs : Nat → Option (List Arc)) (s : Search) : Option Search :=
  match s.queue.pop? with
  | none => none
  | some (entry, queue) =>
    let s := { s with queue := queue }
    match s.labels[entry.node]? with
    | none => some s
    | some label =>
      if label.settled then some s
      else
        let s := { s with
          labels := s.labels.setIfInBounds entry.node { label with settled := true } }
        match arcs label.node with
        | none => some { s with queue := {}, astray := true }
        | some out =>
          some (out.foldl (fun s arc => s.reach entry.node arc.target (entry.cost + arc.cost)) s)

/-- Explores until nothing is left or the bound on the steps is reached. -/
def runFor (arcs : Nat → Option (List Arc)) : Nat → Search → Search
  | 0, s => s
  | steps + 1, s =>
    match s.step? arcs with
    | none => s
    | some s => runFor arcs steps s

/-- Explores everything from a source. Each arc is queued once at most, so their number bounds the
steps. -/
def run (arcs : Nat → Option (List Arc)) (arcCount source : Nat) : Search :=
  runFor arcs (arcCount + 1) (start source)

/-- The nodes on the way from the source to a label, given a bound on their number. -/
def trail (labels : Array Label) : Nat → Nat → List Nat → List Nat
  | 0, _, nodes => nodes
  | bound + 1, number, nodes =>
    match labels[number]? with
    | none => nodes
    | some label =>
      match label.parent with
      | none => label.node :: nodes
      | some parent => trail labels bound parent (label.node :: nodes)

/-- The nodes on the way to a settled node and its distance. -/
def path? (s : Search) (node : Nat) : Option (List Nat × Nat) :=
  match s.numbers[node]?.bind fun number => s.labels[number]?.map fun label => (number, label) with
  | none => none
  | some (number, label) =>
    if label.settled then some (trail s.labels s.labels.size number [], label.cost) else none

/-- Whether the search left the graph before it settled a node. -/
def misses (s : Search) (node : Nat) : Bool := s.astray && (s.path? node).isNone

end Search

end RideDispatch
