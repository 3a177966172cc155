import Dataflow.Proofs.Graph.IndexContents
import Dataflow.Sample.Shape

/-! What drawing a shape does to a graph. Drawn after the last node of a graph, a shape numbers its
nodes on from there, adds its links in order, and is left from the last of its nodes, so that the
next shape can follow. The layout of a shape says how many nodes and which links these are; the
layout of a shape that is put together from others is put together from theirs.
-/

namespace Dataflow

-----------------------------------------------------------------------------------------
-- What is added to a graph
-----------------------------------------------------------------------------------------

namespace Cfg

/-- The graph `next` has what `cfg` has, after its nodes `size` others that carry their own numbers,
and after its edges the links.
-/
structure GrowsBy (cfg : Cfg Node) (size : Nat) (links : List (Edge Node)) (next : Cfg Node)
    : Prop where
  coherent : next.Coherent
  elements : next.elements = cfg.elements ++ (List.range' cfg.nodeCount size).map some
  edges : next.edges.toList = cfg.edges.toList ++ links
  associations : next.associations = cfg.associations
  entry : next.entry = cfg.entry

namespace GrowsBy

variable {cfg middle next : Cfg Node} {size more : Nat} {links further : List (Edge Node)}

theorem nodeCount (grows : cfg.GrowsBy size links next)
    : next.nodeCount = cfg.nodeCount + size := by
  simpa [Cfg.elements, Cfg.nodeCount] using congrArg List.length grows.elements

theorem refl (coherent : cfg.Coherent) : cfg.GrowsBy 0 [] cfg := by
  constructor <;> simp [coherent]

theorem trans (before : cfg.GrowsBy size links middle) (after : middle.GrowsBy more further next)
    : cfg.GrowsBy (size + more) (links ++ further) next where
  coherent := after.coherent
  elements := by
    rw [after.elements, before.elements, before.nodeCount, ← List.range'_append_1,
      List.map_append, List.append_assoc]
  edges := by rw [after.edges, before.edges, List.append_assoc]
  associations := after.associations.trans before.associations
  entry := after.entry.trans before.entry

theorem nodeCount_of_initial (grows : initial.GrowsBy size links next)
    : next.nodeCount = size + 1 :=
  grows.nodeCount.trans (Nat.add_comm 1 size)

theorem edges_of_initial (grows : initial.GrowsBy size links next) : next.edges.toList = links :=
  grows.edges

/-- The new nodes carry their own numbers. -/
theorem element?_eq_some (grows : cfg.GrowsBy size links next) {node : Nat}
    (new : cfg.nodeCount ≤ node) (inside : node < next.nodeCount)
    : next.element? node = some node := by
  have known : cfg.elements.length = cfg.nodeCount := by simp [Cfg.elements, Cfg.nodeCount]
  have position : node - cfg.nodeCount < size := by
    have count := grows.nodeCount
    omega
  have found : next.elements[node]? = some (some node) := by
    rw [grows.elements, List.getElem?_append_right (known ▸ new), known, List.getElem?_map,
      List.getElem?_range' position]
    simp only [Nat.one_mul, Nat.add_sub_cancel' new, Option.map_some]
  rw [Cfg.element?_eq, found, Option.join_some]

end GrowsBy

variable {cfg : Cfg Node}

/-- While there are names left, a new node is named by its position. -/
theorem growsBy_addNumbered (coherent : cfg.Coherent) (room : cfg.nodeCount ≤ Node.last)
    : ∃ next, Sample.Shape.addNumbered.run cfg = .ok cfg.nodeCount next
      ∧ cfg.GrowsBy 1 [] next := by
  have name : Node.ofPosition cfg.nodeCount = cfg.nodeCount := Nat.min_eq_left room
  have added : cfg.Extends [.addNode (some cfg.nodeCount)] (cfg.addNode (some cfg.nodeCount)).2 :=
    extends_of_attempt rfl
  refine ⟨(cfg.addNode (some cfg.nodeCount)).2, ?_, coherent.addNode _, added.elements,
    added.edges, rfl, rfl⟩
  simp only [Sample.Shape.addNumbered, EStateM.run_modifyGet, name, addNode]

theorem growsBy_addEdgeLeaving (coherent : cfg.Coherent) {source target : Node}
    (sourceInside : source < cfg.nodeCount) (targetInside : target < cfg.nodeCount)
    (exits : List Node)
    : ∃ next, (addEdgeLeaving source target exits).run cfg = .ok () next
      ∧ cfg.GrowsBy 0 [{ source, target, exits }] next := by
  obtain ⟨next, accepted⟩ : ∃ next, (addEdgeLeaving source target exits).run cfg = .ok () next :=
    ⟨_, addEdgeLeaving_eq_ok.mpr ⟨sourceInside, targetInside, rfl⟩⟩
  have added := extends_of_addEdgeLeaving accepted
  refine ⟨next, accepted, coherent.addEdgeLeaving accepted, added.elements, added.edges, ?_,
    added.entry⟩
  exact Array.toList_inj.mp (added.associations.trans (List.append_nil _))

end Cfg

-----------------------------------------------------------------------------------------
-- Layouts
-----------------------------------------------------------------------------------------

namespace Sample

/-- A loop, by its first and its last node. -/
structure Loop where
  head : Nat
  latch : Nat
deriving DecidableEq, Repr

/-- The link from the latch back to the head. -/
def Loop.back (loop : Loop) : Edge Node :=
  .plain loop.latch loop.head

/-- The link from the latch to the node after it, which leaves the scope of the head. -/
def Loop.leave (loop : Loop) : Edge Node :=
  { source := loop.latch, target := loop.latch + 1, exits := [loop.head] }

/-- The number of nodes of a shape, and its links and its loops when it is drawn after a given node.
An inner loop is listed before those around it.
-/
structure Layout where
  size : Nat
  links : Nat → List (Edge Node)
  loops : Nat → List Loop

namespace Layout

/-- No node at all. -/
def none : Layout :=
  { size := 0, links := fun _ => [], loops := fun _ => [] }

def single : Layout :=
  { size := 1, links := fun before => [.plain before (before + 1)], loops := fun _ => [] }

def followedBy (first second : Layout) : Layout :=
  {
    size := first.size + second.size,
    links := fun before => first.links before ++ second.links (before + first.size),
    loops := fun before => first.loops before ++ second.loops (before + first.size)
  }

def inSequence (layout : Layout) : Nat → Layout
  | 0 => none
  | count + 1 => layout.followedBy (layout.inSequence count)

def chain (length : Nat) : Layout :=
  single.inSequence length

def diamond : Layout :=
  {
    size := 3,
    links := fun before =>
      [
        .plain before (before + 1),
        .plain before (before + 2),
        .plain (before + 1) (before + 3),
        .plain (before + 2) (before + 3)
      ],
    loops := fun _ => []
  }

def ladder (rungs : Nat) : Layout :=
  diamond.inSequence rungs

/-- The loop from the first to the last node of a layout. -/
def around (layout : Layout) (before : Nat) : Loop :=
  { head := before + 1, latch := before + layout.size }

/-- A loop from the first to the last node of a layout, and the node after it. -/
def closed (layout : Layout) : Layout :=
  {
    size := layout.size + 1,
    links := fun before =>
      layout.links before ++ [(layout.around before).back, (layout.around before).leave],
    loops := fun before => layout.loops before ++ [layout.around before]
  }

def loop (inside : Layout) : Layout :=
  (single.followedBy (inside.followedBy single)).closed

def nested (body : Nat) : Nat → Layout
  | 0 => none
  | levels + 1 => ((chain body).followedBy (nested body levels)).loop

def loopNest (depth body : Nat) : Layout :=
  (nested body (max depth 1)).followedBy single

@[simp]
theorem size_single : single.size = 1 :=
  rfl

@[simp]
theorem size_followedBy (first second : Layout)
    : (first.followedBy second).size = first.size + second.size :=
  rfl

@[simp]
theorem size_inSequence (layout : Layout) (count : Nat)
    : (layout.inSequence count).size = count * layout.size := by
  induction count with
  | zero => exact (Nat.zero_mul _).symm
  | succ count ih => rw [inSequence, size_followedBy, ih, Nat.succ_mul, Nat.add_comm]

@[simp]
theorem size_closed (layout : Layout) : layout.closed.size = layout.size + 1 :=
  rfl

theorem size_chain (length : Nat) : (chain length).size = length := by
  rw [chain, size_inSequence, size_single, Nat.mul_one]

theorem size_ladder (rungs : Nat) : (ladder rungs).size = 3 * rungs :=
  (size_inSequence diamond rungs).trans (Nat.mul_comm rungs 3)

theorem size_nested (body levels : Nat) : (nested body levels).size = levels * (body + 3) := by
  induction levels with
  | zero => exact (Nat.zero_mul _).symm
  | succ levels ih =>
      simp only [nested, loop, size_closed, size_followedBy, size_single, size_chain, ih]
      rw [Nat.succ_mul]
      omega

theorem size_loopNest (depth body : Nat)
    : (loopNest depth body).size = max depth 1 * (body + 3) + 1 := by
  rw [loopNest, size_followedBy, size_nested, size_single]

end Layout

-----------------------------------------------------------------------------------------
-- Drawing follows the layout
-----------------------------------------------------------------------------------------

namespace Shape

/-- Drawn after the last node of a graph, and as long as there are names left, the shape adds the
nodes and links of the layout and is left from the last of them.
-/
def Draws (shape : Shape) (layout : Layout) : Prop :=
  ∀ (cfg : Cfg Node) (before : Nat),
    cfg.Coherent
    → cfg.nodeCount = before + 1
    → before + layout.size ≤ Node.last
    → ∃ next, (shape before).run cfg = .ok (before + layout.size) next
      ∧ cfg.GrowsBy layout.size (layout.links before) next

theorem draws_single : Draws single .single := by
  intro cfg before coherent count room
  obtain ⟨added, numbered, grown⟩ := Cfg.growsBy_addNumbered coherent (count ▸ room)
  have total := grown.nodeCount
  obtain ⟨next, linked, extended⟩ := Cfg.growsBy_addEdgeLeaving grown.coherent
    (show before < added.nodeCount by omega) (show before + 1 < added.nodeCount by omega) []
  rw [count] at numbered
  refine ⟨next, ?_, grown.trans extended⟩
  simp only [single, Cfg.addEdge, EStateM.run_bind, numbered, linked]
  rfl

theorem Draws.followedBy {first second : Shape} {early late : Layout} (begins : first.Draws early)
    (goesOn : second.Draws late)
    : (first.followedBy second).Draws (early.followedBy late) := by
  intro cfg before coherent count room
  simp only [Layout.followedBy] at room ⊢
  obtain ⟨middle, drawn, grown⟩ := begins cfg before coherent count (by omega)
  have total := grown.nodeCount
  obtain ⟨next, followed, extended⟩ := goesOn middle (before + early.size) grown.coherent
    (by omega) (by omega)
  refine ⟨next, ?_, grown.trans extended⟩
  simp only [Shape.followedBy, EStateM.run_bind, drawn]
  rw [← Nat.add_assoc]
  exact followed

theorem Draws.inSequence {shape : Shape} {layout : Layout} (draws : shape.Draws layout)
    (count : Nat)
    : (shape.inSequence count).Draws (layout.inSequence count) := by
  induction count with
  | zero => exact fun cfg before coherent _ _ => ⟨cfg, rfl, .refl coherent⟩
  | succ count ih => exact draws.followedBy ih

theorem draws_chain (length : Nat) : Draws (chain length) (.chain length) :=
  draws_single.inSequence length

theorem draws_diamond : Draws diamond .diamond := by
  intro cfg before coherent count room
  change before + 3 ≤ Node.last at room
  obtain ⟨withLeft, left, toLeft⟩ := Cfg.growsBy_addNumbered coherent (by omega)
  have countLeft : withLeft.nodeCount = before + 2 := by rw [toLeft.nodeCount, count]
  obtain ⟨withRight, right, toRight⟩ := Cfg.growsBy_addNumbered toLeft.coherent (by omega)
  have countRight : withRight.nodeCount = before + 3 := by rw [toRight.nodeCount, countLeft]
  obtain ⟨withJoin, join, toJoin⟩ := Cfg.growsBy_addNumbered toRight.coherent (by omega)
  have countJoin : withJoin.nodeCount = before + 4 := by rw [toJoin.nodeCount, countRight]
  rw [count] at left
  rw [countLeft] at right
  rw [countRight] at join
  have nodes : cfg.GrowsBy 3 [] withJoin := (toLeft.trans toRight).trans toJoin
  -- The nodes are there, and none of the links adds to them.
  have links : ∀ {linked : Cfg Node} {links : List (Edge Node)} (source target : Nat),
      cfg.GrowsBy 3 links linked → source < before + 4 → target < before + 4
      → ∃ next, (Cfg.addEdge source target).run linked = .ok () next
        ∧ cfg.GrowsBy 3 (links ++ [.plain source target]) next := by
    intro linked links source target grown sourceInside targetInside
    have total : linked.nodeCount = before + 4 := by rw [grown.nodeCount, count]
    obtain ⟨next, added, extended⟩ := Cfg.growsBy_addEdgeLeaving grown.coherent
      (total ▸ sourceInside) (total ▸ targetInside) []
    exact ⟨next, added, grown.trans extended⟩
  obtain ⟨first, linkedLeft, grown⟩ := links before (before + 1) nodes (by omega) (by omega)
  obtain ⟨second, linkedRight, grown⟩ := links before (before + 2) grown (by omega) (by omega)
  obtain ⟨third, joinedLeft, grown⟩ := links (before + 1) (before + 3) grown (by omega) (by omega)
  obtain ⟨last, joinedRight, grown⟩ := links (before + 2) (before + 3) grown (by omega) (by omega)
  refine ⟨last, ?_, grown⟩
  simp only [diamond, EStateM.run_bind, left, right, join, linkedLeft, linkedRight, joinedLeft,
    joinedRight]
  rfl

theorem draws_ladder (rungs : Nat) : Draws (ladder rungs) (.ladder rungs) :=
  draws_diamond.inSequence rungs

/-- A shape that is closed to a loop: its first node is the head, its last the latch. The head
carries its own number, so this is the scope that the latch leaves.
-/
theorem growsBy_closed {cfg round : Cfg Node} {layout : Layout} {before : Nat}
    (count : cfg.nodeCount = before + 1) (nonempty : 1 ≤ layout.size)
    (room : before + layout.size + 1 ≤ Node.last)
    (drawn : cfg.GrowsBy layout.size (layout.links before) round)
    : ∃ withBack withExit next,
        (Cfg.addEdge (before + layout.size) (before + 1)).run round = .ok () withBack
        ∧ addNumbered.run withBack = .ok (before + layout.size + 1) withExit
        ∧ (withExit.element? (before + 1)).getD 0 = before + 1
        ∧ (Cfg.addEdgeLeaving (before + layout.size) (before + layout.size + 1) [before + 1]).run
            withExit = .ok () next
        ∧ cfg.GrowsBy layout.closed.size (layout.closed.links before) next := by
  have total : round.nodeCount = before + layout.size + 1 := by
    rw [drawn.nodeCount, count]
    omega
  obtain ⟨withBack, back, toBack⟩ := Cfg.growsBy_addEdgeLeaving drawn.coherent
    (show before + layout.size < round.nodeCount by omega)
    (show before + 1 < round.nodeCount by omega) []
  have totalBack : withBack.nodeCount = before + layout.size + 1 := by rw [toBack.nodeCount, total]
  obtain ⟨withExit, numbered, toExit⟩ := Cfg.growsBy_addNumbered toBack.coherent (by omega)
  have totalExit : withExit.nodeCount = before + layout.size + 2 := by
    rw [toExit.nodeCount, totalBack]
  obtain ⟨next, left, toNext⟩ := Cfg.growsBy_addEdgeLeaving toExit.coherent
    (show before + layout.size < withExit.nodeCount by omega)
    (show before + layout.size + 1 < withExit.nodeCount by omega) [before + 1]
  have grown := ((drawn.trans toBack).trans toExit)
  have head : withExit.element? (before + 1) = some (before + 1) :=
    grown.element?_eq_some (Nat.le_of_eq count) (by omega)
  refine ⟨withBack, withExit, next, back, totalBack ▸ numbered, ?_, left, ?_⟩
  · rw [head, Option.getD_some]
  · simpa [Layout.closed, Layout.around, Loop.back, Loop.leave, Edge.plain] using grown.trans toNext

theorem Draws.loop {inside : Shape} {layout : Layout} (draws : inside.Draws layout)
    : inside.loop.Draws layout.loop := by
  intro cfg before coherent count room
  simp only [Layout.loop, Layout.size_closed, Layout.size_followedBy, Layout.size_single] at room
  obtain ⟨withHead, headed, toHead⟩ := draws_single cfg before coherent count
    (by rw [Layout.size_single]; omega)
  have countHead : withHead.nodeCount = before + 1 + 1 := by rw [toHead.nodeCount, count]; rfl
  obtain ⟨round, latched, toLatch⟩ := draws.followedBy draws_single withHead (before + 1)
    toHead.coherent countHead (by rw [Layout.size_followedBy, Layout.size_single]; omega)
  have drawn : cfg.GrowsBy (Layout.single.followedBy (layout.followedBy .single)).size _ round :=
    toHead.trans toLatch
  obtain ⟨withBack, withExit, next, back, numbered, scope, left, grown⟩ :=
    growsBy_closed count (by simp) (by simpa [Nat.add_assoc] using room) drawn
  refine ⟨next, ?_, grown⟩
  simp only [Layout.size_followedBy, Layout.size_single] at headed latched back numbered left
  rw [Nat.add_assoc] at latched
  simp only [Shape.loop, EStateM.run_bind, headed, latched, back, numbered, EStateM.run_get, scope,
    left]
  rfl

theorem draws_loops (body levels : Nat) : (loops body levels).Draws (.nested body levels) := by
  induction levels with
  | zero => exact fun cfg before coherent _ _ => ⟨cfg, rfl, .refl coherent⟩
  | succ levels ih => exact ((draws_chain body).followedBy ih).loop

theorem draws_loopNest (depth body : Nat) : (loopNest depth body).Draws (.loopNest depth body) :=
  (draws_loops body (max depth 1)).followedBy draws_single

/-- A shape drawn after an entry, as long as there are names for its nodes. -/
theorem Draws.toCfg {shape : Shape} {layout : Layout} (draws : shape.Draws layout)
    (few : layout.size + 1 ≤ 0x100000000)
    : ∃ cfg, shape.toCfg = .ok cfg ∧ Cfg.initial.GrowsBy layout.size (layout.links 0) cfg := by
  have room : 0 + layout.size ≤ Node.last := by
    rw [Nat.zero_add]
    exact Nat.le_of_lt_succ few
  obtain ⟨cfg, drawn, grown⟩ := draws .initial 0 Cfg.coherent_initial rfl room
  have begun : (shape (Cfg.initial : Cfg Node).entry).run .initial = .ok (0 + layout.size) cfg :=
    drawn
  refine ⟨cfg, ?_, grown⟩
  simp only [Shape.toCfg, Cfg.Growth.exec, begun]

end Shape

end Sample

end Dataflow
