/-! Nodes, edges and the directions in which facts flow along them. -/

namespace Dataflow

/-- A node is named by a number. -/
abbrev Node := Nat

/-- The largest number that names a node. -/
def Node.last : Node :=
  0xffffffff

/-- The node at a position of a list of nodes; positions past the last node share its name. -/
def Node.ofPosition (position : Nat) : Node :=
  min position Node.last

/-- An edge of a graph, with the elements whose scope it leaves. -/
structure Edge (E : Type) where
  source : Node
  target : Node
  exits : List E
deriving DecidableEq, Repr

/-- An edge that leaves no scope. -/
def Edge.plain {E : Type} (source target : Node) : Edge E :=
  { source, target, exits := [] }

/-- The direction in which facts flow. -/
inductive Direction where
  /-- From the source of an edge to its target. -/
  | forward
  /-- From the target of an edge to its source. -/
  | backward
deriving DecidableEq, Repr

/-- The name a direction is reported under. -/
def Direction.name : Direction → String
  | forward => "Forward"
  | backward => "Backward"

end Dataflow
