import Dataflow.Graph.Cfg

/-! Small graphs whose elements are named by pieces of the program they stand for. -/

namespace Dataflow.Sample

/-- A chain through the listed elements. The first is associated with the entry. -/
def namedChain {E : Type} (elements : List E) : Except BadNode (Cfg E) :=
  match elements with
  | [] => .ok .initial
  | first :: rest => do
      let links := (List.range rest.length).map fun node => .plain node (node + 1)
      let cfg ← Cfg.build (rest.map some) links
      (Cfg.associate first cfg.entry).exec cfg

/-- A loop that is left from its condition, past the end of the block that it stands in. -/
def loopLeftEarly : Except BadNode (Cfg String) :=
  Cfg.build
    (["let x", "x = 1", "loop", "use x", "if", "block", "after"].map some)
    [
      .plain 0 1,
      .plain 1 2,
      .plain 2 3,
      .plain 3 4,
      .plain 4 5,
      .plain 5 3,
      .plain 5 6,
      ⟨5, 7, ["block"]⟩,
      .plain 6 7
    ]

/-- The nodes of a graph in the order in which they were added. -/
def nodesOf {E : Type} (cfg : Cfg E) : List Node :=
  (List.range cfg.nodeCount).map Node.ofPosition

end Dataflow.Sample
