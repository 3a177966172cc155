import Dataflow.Graph.View
import Dataflow.Graph.PostOrder

/-! Control-flow graphs that are grown call by call. Each edge is stored once and listed by its
position at both of its ends. A call that names a node the graph does not have is refused.
Refused or not, it leaves a graph behind, with whatever it has stored by then.
-/

namespace Dataflow

/-- A call named a node that the graph does not have. -/
structure BadNode where
  node : Node
  nodeCount : Nat
deriving DecidableEq, Repr

/-- The explanation of a refused call. -/
def BadNode.message (bad : BadNode) : String :=
  s!"bad node id: node={bad.node} node_count={bad.nodeCount}"

/-- A stored node: its element, and the positions of the edges that leave and enter it. -/
structure CfgNode (E : Type) where
  element : Option E
  outgoing : Array Nat
  incoming : Array Nat
deriving DecidableEq, Repr

/-- A control-flow graph with elements of type `E`. -/
structure Cfg (E : Type) where
  nodes : Array (CfgNode E)
  edges : Array (Edge E)
  associations : Array (E × Node)
  entry : Node
deriving DecidableEq, Repr

namespace Cfg

variable {E : Type}

/-- The graph of one node, its entry, which carries no element. -/
def initial : Cfg E :=
  {
    nodes := #[{ element := none, outgoing := #[], incoming := #[] }],
    edges := #[],
    associations := #[],
    entry := 0
  }

instance : Inhabited (Cfg E) :=
  ⟨initial⟩

/-- The number of nodes. -/
def nodeCount (cfg : Cfg E) : Nat :=
  cfg.nodes.size

/-- The number of edges. -/
def edgeCount (cfg : Cfg E) : Nat :=
  cfg.edges.size

/-- The element that a node was added with. -/
def element? (cfg : Cfg E) (node : Node) : Option E :=
  (cfg.nodes[node]?).bind CfgNode.element

/-- Add a node without edges, and give its name. -/
def addNode (cfg : Cfg E) (element : Option E) : Node × Cfg E :=
  (
    Node.ofPosition cfg.nodeCount,
    { cfg with nodes := cfg.nodes.push { element, outgoing := #[], incoming := #[] } }
  )

/-- A call on a graph that may be refused. It leaves a graph behind in either case. -/
abbrev Growth (E α : Type) :=
  EStateM BadNode (Cfg E) α

/-- Refuse a node that the graph does not have. -/
def require (node : Node) : Growth E Unit := do
  let nodeCount := (← get).nodeCount
  unless node < nodeCount do
    throw { node, nodeCount }

/-- Add an edge that leaves the scope of some elements. Both ends must be nodes of the graph; of
two unknown nodes the source is reported.
-/
def addEdgeLeaving (source target : Node) (exits : List E) : Growth E Unit := do
  require source
  require target
  let position := (← get).edgeCount
  modify fun cfg => { cfg with edges := cfg.edges.push { source, target, exits } }
  modify fun cfg =>
    {
      cfg with
      nodes := cfg.nodes.modify source fun node =>
        { node with outgoing := node.outgoing.push position }
    }
  modify fun cfg =>
    {
      cfg with
      nodes := cfg.nodes.modify target fun node =>
        { node with incoming := node.incoming.push position }
    }

/-- Add an edge that leaves no scope. -/
def addEdge (source target : Node) : Growth E Unit :=
  addEdgeLeaving source target []

/-- Record that an element also occurs at a node. -/
def associate (element : E) (node : Node) : Growth E Unit := do
  require node
  modify fun cfg => { cfg with associations := cfg.associations.push (element, node) }

/-- Make a node the entry of the graph. -/
def setEntry (node : Node) : Growth E Unit := do
  require node
  modify fun cfg => { cfg with entry := node }

/-- The graph that a call leaves if it is not refused. -/
def Growth.exec {α : Type} (call : Growth E α) (cfg : Cfg E) : Except BadNode (Cfg E) :=
  match call.run cfg with
  | .ok _ next => .ok next
  | .error bad _ => .error bad

/-- The graph of an entry and one further node per listed element, with edges added in order. -/
def build (elements : List (Option E)) (links : List (Edge E)) : Except BadNode (Cfg E) :=
  let unlinked := elements.foldl (fun cfg element => (cfg.addNode element).2) initial
  let linking : Growth E Unit :=
    links.forM fun link => addEdgeLeaving link.source link.target link.exits
  linking.exec unlinked

/-- The edge at a position. -/
def edgeAt (cfg : Cfg E) (position : Nat) : Except Fault (Edge E) :=
  match cfg.edges[position]? with
  | some edge => .ok edge
  | none => .error .indexOutOfRange

/-- The edges at a list of positions. -/
def edgesAt (cfg : Cfg E) (positions : Array Nat) : Except Fault (List (Edge E)) :=
  positions.toList.mapM cfg.edgeAt

/-- The edges that leave a node, in the order in which they were added. -/
def outgoing (cfg : Cfg E) (node : Node) : Except Fault (List (Edge E)) :=
  match cfg.nodes[node]? with
  | some stored => cfg.edgesAt stored.outgoing
  | none => .error .indexOutOfRange

/-- The edges that enter a node, in the order in which they were added. -/
def incoming (cfg : Cfg E) (node : Node) : Except Fault (List (Edge E)) :=
  match cfg.nodes[node]? with
  | some stored => cfg.edgesAt stored.incoming
  | none => .error .indexOutOfRange

/-- The targets of the edges that leave a node. -/
def successors (cfg : Cfg E) (node : Node) : Except Fault (List Node) :=
  return (← cfg.outgoing node).map Edge.target

/-- The nodes that control reaches from `start`, in depth-first post-order. -/
def postOrder (cfg : Cfg E) (start : Node) : Except Fault (List Node) :=
  PostOrder.nodesFrom cfg.successors cfg.nodeCount start

/-- Where elements occur: the nodes added with an element, then the associations, each in the
order in which they were added.
-/
def occurrences (cfg : Cfg E) : List (E × Node) :=
  (cfg.nodes.toList.zipIdx.filterMap fun (stored, position) =>
      stored.element.map fun element => (element, Node.ofPosition position))
    ++ cfg.associations.toList

/-- The views of the graph that an analysis reads, visited from its entry. -/
def toView [Ord E] (cfg : Cfg E) : GraphView E :=
  {
    nodeCount := cfg.nodeCount,
    postOrder := cfg.postOrder cfg.entry,
    outgoing := cfg.outgoing,
    incoming := cfg.incoming,
    edges := cfg.edges.toList,
    index := .ofOccurrences cfg.occurrences
  }

end Cfg

end Dataflow
