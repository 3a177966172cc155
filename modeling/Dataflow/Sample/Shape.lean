import Dataflow.Analysis.Basic
import Dataflow.Graph.Cfg

/-! Graphs of a regular shape and of any size. A shape is drawn into a graph after one of its nodes,
so shapes follow each other and lie inside each other. Every node but the entry carries its own
number as element, so that facts can be recorded node by node.
-/

namespace Dataflow.Sample

/-- What is added to a graph after one of its nodes, with the node that control leaves it from. -/
abbrev Shape :=
  Node → Cfg.Growth Node Node

namespace Shape

/-- The graph of a shape, drawn after an entry. -/
def toCfg (shape : Shape) : Except BadNode (Cfg Node) :=
  let unlinked : Cfg Node := .initial
  (shape unlinked.entry).exec unlinked

/-- Add a node that carries its own number. -/
def addNumbered : Cfg.Growth Node Node :=
  modifyGet fun cfg => cfg.addNode (some (Node.ofPosition cfg.nodeCount))

/-- A single node. -/
def single : Shape := fun before => do
  let node ← addNumbered
  Cfg.addEdge before node
  return node

/-- One shape after another. -/
@[inline]
def followedBy (first second : Shape) : Shape := fun before => do
  let last ← first before
  second last

/-- The same shape several times in sequence. -/
def inSequence (shape : Shape) : Nat → Shape
  | 0, before => return before
  | count + 1, before => shape.followedBy (inSequence shape count) before

/-- A chain of `length` nodes. -/
def chain (length : Nat) : Shape :=
  single.inSequence length

/-- A path that splits into two arms, which join again. -/
def diamond : Shape := fun before => do
  let left ← addNumbered
  let right ← addNumbered
  let join ← addNumbered
  Cfg.addEdge before left
  Cfg.addEdge before right
  Cfg.addEdge left join
  Cfg.addEdge right join
  return join

/-- Diamonds in sequence, each on top of the next. -/
def ladder (rungs : Nat) : Shape :=
  diamond.inSequence rungs

/-- A loop around a shape. What is inside leads from the head to the latch, the latch leads back to
the head, and it leaves the loop and the scope of the head's element for the node after it.
-/
def loop (inside : Shape) : Shape := fun before => do
  let head ← single before
  let latch ← inside.followedBy single head
  Cfg.addEdge latch head
  let exit ← addNumbered
  let scope := ((← get).element? head).getD 0
  Cfg.addEdgeLeaving latch exit [scope]
  return exit

/-- Loops inside each other on `levels` levels. Each begins with a chain of `body` nodes, and the
next loop follows these.
-/
def loops (body : Nat) : Nat → Shape
  | 0, before => return before
  | levels + 1, before => ((chain body).followedBy (loops body levels)).loop before

/-- Loops nested `depth` deep, at least one, and a node after the outermost. -/
def loopNest (depth body : Nat) : Shape :=
  (loops body (max depth 1)).followedBy single

end Shape

/-- Record facts at one node: it establishes one, its execution kills another, and every fifth
node ends the scope of a third.
-/
def scatterAt (bits : Nat) (analysis : Analysis Node) (position : Nat)
    : Except Fault (Analysis Node) := do
  let element := Node.ofPosition position
  let analysis ← analysis.addGen element (position % bits)
  let analysis ← analysis.addKill .execution element ((position * 7 + 3) % bits)
  if position % 5 = 0 then
    analysis.addKill .scopeEnd element ((position + 1) % bits)
  else
    return analysis

/-- Spread facts over the nodes after the entry. -/
def scatter (nodeCount bits : Nat) (analysis : Analysis Node) : Except Fault (Analysis Node) :=
  if bits = 0 then
    .ok analysis
  else
    (List.range' 1 (nodeCount - 1)).foldlM (scatterAt bits) analysis

end Dataflow.Sample
