import Dataflow.Analysis.FlowExit
import Dataflow.Proofs.Analysis.Sweep

/-! The exact effect of the pass over the edges that leave scopes. An edge reads the kills that the
edges before it have left, so a fact comes to be killed at a node exactly when a chain of edges
leads back through the list from an edge that leaves the node to a scope whose end kills the fact.
That is more than copying once along every edge and less than copying until nothing changes.
-/

namespace Dataflow

/-- The nodes of the elements whose scope an edge leaves. -/
def ElementIndex.exited {E : Type} [Ord E] (index : ElementIndex E) (edge : Edge E) : List Node :=
  edge.exits.flatMap index.nodes

theorem GraphView.InRange.exited_lt {E : Type} [Ord E] {graph : GraphView E}
    (inRange : graph.InRange) (edge : Edge E)
    : ∀ node ∈ graph.index.exited edge, node < graph.nodeCount := by
  intro node listed
  obtain ⟨element, _, member⟩ := List.mem_flatMap.mp listed
  exact inRange.index element node member

namespace Analysis

variable {E σ : Type} [Ord E] [Sink σ]

/-- Kill one fact at the source of an edge if it is killed where a scope ends that the edge leaves.
-/
def widenColumn (index : ElementIndex E) (kills : Column) (edge : Edge E) : Column :=
  fun node => kills node || (decide (node = edge.source) && (index.exited edge).any kills)

theorem widenColumn_eq_true {index : ElementIndex E} {kills : Column} {edge : Edge E} {node : Node}
    : widenColumn index kills edge node = true
      ↔ kills node = true
        ∨ edge.source = node ∧ ∃ ended ∈ index.exited edge, kills ended = true := by
  simp only [widenColumn, Bool.or_eq_true, Bool.and_eq_true, decide_eq_true_eq, List.any_eq_true,
    eq_comm (a := node)]

/-- Gathering succeeds on full rows and adds the facts of all the nodes, by induction on them. -/
theorem gatherKills_simulates {kills : Table} {count width : Nat} (sized : kills.Sized count width)
    {nodes : List Node} (inside : ∀ node ∈ nodes, node < count) {row : Row}
    (length : row.length = width)
    : ∃ gathered, gatherKills kills nodes row = .ok gathered ∧ gathered.1.length = width
      ∧ ∀ bit, gathered.1.testBit bit
        = (row.testBit bit || nodes.any (factColumn kills bit)) := by
  rw [gatherKills]
  -- the note of growth travels with the row, so the induction is over both
  generalize false = grown
  induction nodes generalizing row grown with
  | nil => exact ⟨(row, grown), rfl, length, fun bit => by simp⟩
  | cons node rest ih =>
      obtain ⟨added, found, addedLength⟩ := sized.row (inside node List.mem_cons_self)
      obtain ⟨joined, union, joinedLength⟩ :=
        rows_of_length_eq .union (length.trans addedLength.symm)
      have updated := Join.update_eq_ok.mpr ⟨union, rfl⟩
      obtain ⟨gathered, gathers, gatheredLength, law⟩ :=
        ih (fun later listed => inside later (List.mem_cons_of_mem node listed))
          (joinedLength.trans length) (grown || joined != row)
      refine ⟨gathered, ?_, gatheredLength, fun bit => ?_⟩
      · rw [List.foldlM_cons]
        exact bind_eq_ok.mpr ⟨_, bind_eq_ok.mpr ⟨added, found, bind_eq_ok.mpr ⟨_, updated, rfl⟩⟩,
          gathers⟩
      · rw [law, Join.testBit_of_rows union, List.any_cons, factColumn,
          Table.testBit_of_row found]
        exact Bool.or_assoc _ _ _

/-- What a successful edge of the pass does: nothing if the gathered kills are the held ones, else
it replaces them and reports that they have grown.
-/
theorem widenAt_eq_ok {index : ElementIndex E} {mask : Mask} {state next : Widening σ}
    {edge : Edge E}
    : widenAt index mask state edge = .ok next
      ↔ ∃ held gathered, state.kills.row edge.source = .ok held
        ∧ gatherKills state.kills (index.exited edge) held = .ok gathered
        ∧ next =
          if gathered.1 = held then state
          else
            {
              kills := state.kills.setRow edge.source gathered.1,
              sink := emit mask (.flowExitWidened edge.source gathered.1) state.sink
            } := by
  constructor
  · intro widens
    obtain ⟨held, found, afterHeld⟩ := bind_eq_ok.mp widens
    obtain ⟨gathered, gathers, result⟩ := bind_eq_ok.mp afterHeld
    refine ⟨held, gathered, found, gathers, ?_⟩
    simp only [changed_gatherKills gathers, bne_iff_ne, ne_eq, ite_not] at result
    split at result
    case isTrue same => exact (Except.ok.inj result).symm.trans (if_pos same).symm
    case isFalse changed => exact (Except.ok.inj result).symm.trans (if_neg changed).symm
  · rintro ⟨held, gathered, found, gathers, rfl⟩
    refine bind_eq_ok.mpr ⟨held, found, bind_eq_ok.mpr ⟨gathered, gathers, ?_⟩⟩
    simp only [changed_gatherKills gathers, bne_iff_ne, ne_eq, ite_not]
    split
    case isTrue => rfl
    case isFalse => rfl

/-- One edge of the pass succeeds within the graph and widens each fact on its own. -/
theorem widenAt_simulates {graph : GraphView E} (inRange : graph.InRange) (mask : Mask)
    {width : Nat} {state : Widening σ} (sized : state.kills.Sized graph.nodeCount width)
    {edge : Edge E} (inside : edge.source < graph.nodeCount)
    : ∃ next, widenAt graph.index mask state edge = .ok next
      ∧ next.kills.Sized graph.nodeCount width
      ∧ ∀ bit, factColumn next.kills bit
        = widenColumn graph.index (factColumn state.kills bit) edge := by
  obtain ⟨held, found, length⟩ := sized.row inside
  obtain ⟨gathered, gathers, gatheredLength, law⟩ :=
    gatherKills_simulates sized (inRange.exited_lt edge) length
  have column : ∀ bit node, widenColumn graph.index (factColumn state.kills bit) edge node
      = if node = edge.source then gathered.1.testBit bit else state.kills.testBit node bit := by
    intro bit node
    rw [law, ← Table.testBit_of_row found]
    split
    case isTrue here => simp [widenColumn, factColumn, here]
    case isFalse elsewhere => simp [widenColumn, factColumn, elsewhere]
  refine ⟨_, widenAt_eq_ok.mpr ⟨held, _, found, gathers, rfl⟩, ?_⟩
  split
  case isTrue same =>
    refine ⟨sized, fun bit => ?_⟩
    funext node
    rw [column, same, factColumn]
    split
    case isTrue here => rw [here, Table.testBit_of_row found]
    case isFalse => rfl
  case isFalse =>
    refine ⟨sized.setRow edge.source gathered.1, fun bit => ?_⟩
    funext node
    rw [column, factColumn, Table.testBit_setRow found (gatheredLength.trans length.symm)]

/-- Where a fact is killed nowhere, the pass leaves it so. -/
theorem foldl_widenColumn_of_unkilled (index : ElementIndex E) (edges : List (Edge E))
    {kills : Column} (unkilled : ∀ node, kills node = false)
    : edges.foldl (widenColumn index) kills = kills := by
  apply List.foldl_fixed'
  intro edge
  funext node
  simp [widenColumn, unkilled]

/-- The pass succeeds on full tables over a graph in range, changes the scope-end kills alone, and
takes each fact through the edges on its own.
-/
theorem addFlowExitKills_simulates {analysis : Analysis E} (full : analysis.Sized)
    (inRange : analysis.graph.InRange) (mask : Mask) (sink : σ)
    : ∃ final heard,
        analysis.addFlowExitKills mask sink
          = .ok ({ analysis with scopeEndKills := final }, heard)
        ∧ final.Sized analysis.graph.nodeCount analysis.width
        ∧ ∀ bit, factColumn final bit
          = analysis.graph.edges.foldl (widenColumn analysis.graph.index)
              (factColumn analysis.scopeEndKills bit) := by
  by_cases none : analysis.bits = 0
  · refine ⟨analysis.scopeEndKills, sink, if_pos none, full.scopeEndKills, fun bit => ?_⟩
    have noWords : wordBits * analysis.width ≤ bit := by simp [width, none, wordsFor, wordBits]
    exact (foldl_widenColumn_of_unkilled _ _ (full.scopeEndKills.testBit_of_le noWords)).symm
  · obtain ⟨final, folded, sized, columns⟩ := foldlM_simulates
      (fun state : Widening σ => state.kills.Sized analysis.graph.nodeCount analysis.width)
      (fun bit state => factColumn state.kills bit) (fun _ => widenColumn analysis.graph.index)
      analysis.graph.edges { kills := analysis.scopeEndKills, sink } full.scopeEndKills
      (fun _ kept edge listed =>
        widenAt_simulates inRange mask kept (inRange.edges edge listed).1)
    refine ⟨final.kills, final.sink, ?_, sized, columns⟩
    rw [addFlowExitKills, if_neg none]
    exact bind_eq_ok.mpr ⟨final, folded, rfl⟩

-----------------------------------------------------------------------------------------
-- Chains of edges back through the list
-----------------------------------------------------------------------------------------

/-- A chain of `length` edges, each further back in the list than the one before: the first leaves
`node`, each further one leaves a node whose scope the edge before it leaves, and the last leaves a
scope whose end kills the fact.
-/
structure ExitChain (index : ElementIndex E) (edges : List (Edge E)) (kills : Column) (node : Node)
    (length : Nat) (position : Nat → Nat) (edge : Nat → Edge E)
    : Prop where
  nonempty : 1 ≤ length
  listed : ∀ step < length, edges[position step]? = some (edge step)
  decreasing : ∀ step, step + 1 < length → position (step + 1) < position step
  leaves : (edge 0).source = node
  linked : ∀ step, step + 1 < length → (edge (step + 1)).source ∈ index.exited (edge step)
  killed : ∃ ended ∈ index.exited (edge (length - 1)), kills ended = true

/-- Some chain of edges kills the fact at the node. -/
def KilledByChain (index : ElementIndex E) (edges : List (Edge E)) (kills : Column) (node : Node)
    : Prop :=
  ∃ length position edge, ExitChain index edges kills node length position edge

section Chains

variable {index : ElementIndex E} {edges : List (Edge E)} {kills : Column} {node : Node}
  {length : Nat} {position : Nat → Nat} {edge : Nat → Edge E}

theorem ExitChain.position_le (chain : ExitChain index edges kills node length position edge)
    {step : Nat} (inside : step < length)
    : position step ≤ position 0 := by
  induction step with
  | zero => exact Nat.le_refl _
  | succ step ih =>
      exact (chain.decreasing step inside).le.trans (ih (Nat.lt_of_succ_lt inside))

/-- Every edge of a chain leaves the scope of some node: the next edge starts there, or the fact is
killed there.
-/
theorem ExitChain.exists_exited (chain : ExitChain index edges kills node length position edge)
    {step : Nat} (inside : step < length)
    : ∃ ended, ended ∈ index.exited (edge step) := by
  by_cases last : step + 1 < length
  · exact ⟨_, chain.linked step last⟩
  · obtain ⟨ended, member, _⟩ := chain.killed
    rw [show length - 1 = step by omega] at member
    exact ⟨ended, member⟩

/-- A chain of more than one edge goes on from the source of its second edge. -/
theorem ExitChain.tail (chain : ExitChain index edges kills node length position edge)
    (longer : 1 < length)
    : ExitChain index edges kills (edge 1).source (length - 1) (fun step => position (step + 1))
        (fun step => edge (step + 1)) where
  nonempty := by omega
  listed := fun step inside => chain.listed (step + 1) (by omega)
  decreasing := fun step inside => chain.decreasing (step + 1) (by omega)
  leaves := rfl
  linked := fun step inside => chain.linked (step + 1) (by omega)
  killed := by
    rw [show length - 1 - 1 + 1 = length - 1 by omega]
    exact chain.killed

/-- A chain whose positions are among the first edges is one of these edges alone. -/
theorem ExitChain.of_append {more : List (Edge E)}
    (chain : ExitChain index (edges ++ more) kills node length position edge)
    (inside : position 0 < edges.length)
    : ExitChain index edges kills node length position edge := by
  refine { chain with listed := fun step bound => ?_ }
  rw [← List.getElem?_append_left ((chain.position_le bound).trans_lt inside)]
  exact chain.listed step bound

theorem ExitChain.append (chain : ExitChain index edges kills node length position edge)
    (more : List (Edge E))
    : ExitChain index (edges ++ more) kills node length position edge := by
  refine { chain with listed := fun step bound => ?_ }
  have found := chain.listed step bound
  rw [List.getElem?_append_left (List.getElem?_eq_some_iff.mp found).1]
  exact found

/-- An edge is a chain of its own if it leaves a scope whose end kills the fact. -/
theorem killedByChain_single {position : Nat} {edge : Edge E}
    (listed : edges[position]? = some edge) {ended : Node} (member : ended ∈ index.exited edge)
    (killed : kills ended = true)
    : KilledByChain index edges kills edge.source :=
  ⟨1, fun _ => position, fun _ => edge, {
    nonempty := Nat.le_refl 1
    listed := fun _ _ => listed
    decreasing := fun _ impossible => absurd impossible (by omega)
    leaves := rfl
    linked := fun _ impossible => absurd impossible (by omega)
    killed := ⟨ended, member, killed⟩
  }⟩

/-- A chain grows at its start with an edge after all the edges that it can use. -/
theorem ExitChain.cons (chain : ExitChain index edges kills node length position edge)
    {last : Edge E} (member : node ∈ index.exited last)
    : KilledByChain index (edges ++ [last]) kills last.source := by
  refine ⟨length + 1, fun step => if step = 0 then edges.length else position (step - 1),
    fun step => if step = 0 then last else edge (step - 1), ?_⟩
  refine ⟨by omega, ?_, ?_, rfl, ?_, ?_⟩
  · intro step inside
    cases step with
    | zero => simp
    | succ step => exact (chain.append [last]).listed step (Nat.lt_of_succ_lt_succ inside)
  · intro step inside
    cases step with
    | zero => exact (List.getElem?_eq_some_iff.mp (chain.listed 0 chain.nonempty)).1
    | succ step => exact chain.decreasing step (Nat.lt_of_succ_lt_succ inside)
  · intro step inside
    cases step with
    | zero => exact chain.leaves.symm ▸ member
    | succ step => exact chain.linked step (Nat.lt_of_succ_lt_succ inside)
  · obtain ⟨ended, exited, killed⟩ := chain.killed
    refine ⟨ended, ?_, killed⟩
    rwa [Nat.add_sub_cancel, if_neg (Nat.ne_of_gt chain.nonempty)]

/-- With one more edge at the end of the list, the chains are those before and those that start with
the new edge.
-/
theorem killedByChain_concat_iff (last : Edge E)
    : KilledByChain index (edges ++ [last]) kills node
      ↔ KilledByChain index edges kills node
        ∨ last.source = node
          ∧ ∃ ended ∈ index.exited last,
              kills ended = true ∨ KilledByChain index edges kills ended := by
  constructor
  · rintro ⟨length, position, edge, chain⟩
    have found := chain.listed 0 chain.nonempty
    by_cases inside : position 0 < edges.length
    · exact Or.inl ⟨length, position, edge, chain.of_append inside⟩
    · have bound := (List.getElem?_eq_some_iff.mp found).1
      have here : position 0 = edges.length := by
        simp only [List.length_append, List.length_singleton] at bound
        omega
      have first : last = edge 0 := by simpa [here] using found
      rw [first]
      refine Or.inr ⟨chain.leaves, ?_⟩
      by_cases longer : 1 < length
      · have later : position 1 < edges.length := here ▸ chain.decreasing 0 longer
        exact ⟨(edge 1).source, chain.linked 0 longer,
          Or.inr ⟨_, _, _, (chain.tail longer).of_append later⟩⟩
      · obtain ⟨ended, member, killed⟩ := chain.killed
        have nonempty := chain.nonempty
        rw [show length - 1 = 0 by omega] at member
        exact ⟨ended, member, Or.inl killed⟩
  · rintro (⟨_, _, _, chain⟩ | ⟨rfl, ended, member, killed | ⟨_, _, _, chain⟩⟩)
    · exact ⟨_, _, _, chain.append [last]⟩
    · exact killedByChain_single (List.getElem?_concat_length ..) member killed
    · exact chain.cons member

/-- The pass kills the fact exactly where it was killed before or a chain of edges kills it. By
induction on the list from its end: the last edge reads what the others have left, and begins the
chains that use it.
-/
theorem foldl_widenColumn_iff
    : edges.foldl (widenColumn index) kills node = true
      ↔ kills node = true ∨ KilledByChain index edges kills node := by
  induction edges using List.reverseRecOn generalizing node with
  | nil =>
      refine ⟨Or.inl, fun killed => killed.resolve_right ?_⟩
      rintro ⟨length, position, edge, chain⟩
      have found := chain.listed 0 chain.nonempty
      simp at found
  | append_singleton before last ih =>
      rw [List.foldl_append, List.foldl_cons, List.foldl_nil, widenColumn_eq_true, ih,
        killedByChain_concat_iff, or_assoc]
      simp only [ih]

end Chains

/-- The pass over the edges changes the scope-end kills alone. A fact is among those of a node
afterwards exactly when it was before, or when a chain of edges that goes back through the list
leads from the node to a scope whose end killed the fact before the pass.
-/
theorem addFlowExitKills_iff_chain {analysis : Analysis E} (full : analysis.Sized)
    (inRange : analysis.graph.InRange) (mask : Mask) (sink : σ)
    : ∃ final heard,
        analysis.addFlowExitKills mask sink
          = .ok ({ analysis with scopeEndKills := final }, heard)
        ∧ ∀ node < analysis.graph.nodeCount,
            ∃ row, final.row node = .ok row
              ∧ ∀ bit,
                  row.testBit bit = true
                  ↔ analysis.scopeEndKills.testBit node bit = true
                    ∨ ∃ length position edge,
                        ExitChain analysis.graph.index analysis.graph.edges
                          (factColumn analysis.scopeEndKills bit) node length position edge := by
  obtain ⟨final, heard, passed, sized, columns⟩ :=
    addFlowExitKills_simulates full inRange mask sink
  refine ⟨final, heard, passed, fun node inside => ?_⟩
  obtain ⟨row, found, _⟩ := sized.row inside
  refine ⟨row, found, fun bit => ?_⟩
  have column := congrFun (columns bit) node
  rw [← Table.testBit_of_row found, show final.testBit node bit = _ from column]
  exact foldl_widenColumn_iff

/-- An edge from node 1 leaves the scope that ends at node 2, where fact 33 is killed. -/
def innerExit : Edge Nat :=
  { source := 1, target := 3, exits := [8] }

/-- An edge from node 0 leaves the scope that ends at node 1. -/
def outerExit : Edge Nat :=
  { source := 0, target := 3, exits := [7] }

/-- An analysis of 40 facts with the two edges in the given order. -/
def nestedExits (edges : List (Edge Nat)) : Analysis Nat :=
  {
    initial (.listed 4 [3, 2, 1, 0] edges [(7, 1), (8, 2)]) .union 40 .forward with
    scopeEndKills := (Table.filled 4 (wordsFor 40) 0).setRow 2 [0, 2]
  }

theorem addFlowExitKills_iff_chain_nestedExits
    : ∃ final heard row,
        (nestedExits [innerExit, outerExit]).addFlowExitKills .none Silent.silent
          = .ok ({ nestedExits [innerExit, outerExit] with scopeEndKills := final }, heard)
        ∧ final.row 0 = .ok row
        ∧ row.testBit 33 = true := by
  have full : (nestedExits [innerExit, outerExit]).Sized :=
    { sized_initial _ _ 40 .forward with scopeEndKills := (Table.sized_filled _ _ _).setRow _ _ }
  have inRange : (nestedExits [innerExit, outerExit]).graph.InRange :=
    GraphView.listed_inRange (by decide) (by decide) (by decide)
  obtain ⟨final, heard, passed, rows⟩ :=
    addFlowExitKills_iff_chain full inRange .none Silent.silent
  obtain ⟨row, found, facts⟩ := rows 0 (by decide)
  refine ⟨final, heard, row, passed, found, (facts 33).mpr (Or.inr ?_)⟩
  -- The chain starts with the edge that comes last.
  refine ⟨2, fun step => 1 - step, fun step => if step = 0 then outerExit else innerExit, ?_⟩
  refine ⟨by decide, ?_, ?_, rfl, ?_, 2, by decide +kernel, by decide +kernel⟩
  · intro step inside
    rcases Nat.le_one_iff_eq_zero_or_eq_one.mp (Nat.le_of_lt_succ inside) with rfl | rfl
    · rfl
    · rfl
  · intro step inside
    cases Nat.lt_one_iff.mp (Nat.lt_of_succ_lt_succ inside)
    decide
  · intro step inside
    cases Nat.lt_one_iff.mp (Nat.lt_of_succ_lt_succ inside)
    decide +kernel

/-- In the other order the outer edge comes too early to see what the inner one adds. -/
example
    : ((nestedExits [outerExit, innerExit]).addFlowExitKills .none Silent.silent).toOption.map
        (fun passed => (passed.1.scopeEndKills.testBit 0 33, passed.1.scopeEndKills.testBit 1 33))
      = some (false, true) := by
  decide +kernel

end Analysis

end Dataflow
