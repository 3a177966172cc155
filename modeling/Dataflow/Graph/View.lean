import Dataflow.Fault
import Dataflow.Graph.ElementIndex

/-! What an analysis reads of a graph: how many nodes it has, an order in which to visit them,
the edges at each node, all edges in turn, and the nodes of each element. Nothing ties these
views to one another; a graph that is grown step by step keeps them in agreement, and a listed
graph is whatever its lists say.
-/

namespace Dataflow

/-- The views of a graph that an analysis reads. -/
structure GraphView (E : Type) [Ord E] where
  nodeCount : Nat
  postOrder : Except Fault (List Node)
  outgoing : Node → Except Fault (List (Edge E))
  incoming : Node → Except Fault (List (Edge E))
  edges : List (Edge E)
  index : ElementIndex E

namespace GraphView

variable {E : Type} [Ord E]

/-- A graph given by its lists, none of which is checked: the visiting order is `order` as it
stands, and the edges at a node are the listed edges that name it.
-/
def listed (nodeCount : Nat) (order : List Node) (edges : List (Edge E))
    (occurrences : List (E × Node))
    : GraphView E :=
  {
    nodeCount,
    postOrder := .ok order,
    outgoing := fun node => .ok (edges.filter (·.source = node)),
    incoming := fun node => .ok (edges.filter (·.target = node)),
    edges,
    index := .ofOccurrences occurrences
  }

/-- The nodes to which facts flow from a node. -/
def targets (graph : GraphView E) (direction : Direction) (node : Node)
    : Except Fault (List Node) :=
  match direction with
  | .forward => return (← graph.outgoing node).map Edge.target
  | .backward => return (← graph.incoming node).map Edge.source

end GraphView

end Dataflow
