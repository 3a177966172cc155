import Dataflow.Analysis.Query
import Dataflow.Proofs.Analysis.Sweep
import Dataflow.Proofs.Bits.LowestBit
import Mathlib.Data.List.TakeWhile

/-! Walks over the facts of an element as walks over one list. A walk takes the positions out of
each word from the lowest up, so it comes by the facts of a row in increasing order, and the first
one past the declared width ends it. The rows of the element's nodes are read in order, and the
predicate sees their lists one after the other.
-/

namespace Dataflow.Analysis

variable {E σ : Type} [Ord E] {analysis : Analysis E}

-----------------------------------------------------------------------------------------
-- Lists of facts
-----------------------------------------------------------------------------------------

/-- Show facts to a predicate in order until it rejects one. -/
def walkFacts (accept : Nat → σ → Bool × σ) : List Nat → σ → Bool × σ
  | [], state => (true, state)
  | fact :: rest, state =>
      match accept fact state with
      | (true, state) => walkFacts accept rest state
      | (false, state) => (false, state)

/-- A walk over two lists of facts goes on to the second only if all of the first are accepted. -/
theorem walkFacts_append (accept : Nat → σ → Bool × σ) (first second : List Nat) (state : σ)
    : walkFacts accept (first ++ second) state
      = match walkFacts accept first state with
        | (true, state) => walkFacts accept second state
        | (false, state) => (false, state) := by
  induction first generalizing state with
  | nil => rfl
  | cons fact rest ih =>
      simp only [List.cons_append, walkFacts]
      split
      · exact ih _
      · rfl

/-- A predicate that accepts every fact sees the whole list. -/
theorem walkFacts_of_accepting {accept : Nat → σ → Bool × σ}
    (accepting : ∀ fact state, (accept fact state).1 = true) (facts : List Nat) (state : σ)
    : walkFacts accept facts state
      = (true, facts.foldl (fun state fact => (accept fact state).2) state) := by
  induction facts generalizing state with
  | nil => rfl
  | cons fact rest ih =>
      have accepted : accept fact state = (true, (accept fact state).2) :=
        Prod.ext (accepting fact state) rfl
      rw [walkFacts, accepted]
      exact ih (accept fact state).2

-----------------------------------------------------------------------------------------
-- Rows
-----------------------------------------------------------------------------------------

/-- The walk over a word shows its facts below the limit in order. It goes on to the next word if
they are all accepted and there is no fact past the limit. By induction on the recursion, which
takes the lowest fact out.
-/
theorem walkWord_eq (accept : Nat → σ → Bool × σ) (limit base : Nat) (word : Word) (state : σ)
    : walkWord accept limit base word state
      = match
          walkFacts accept (((Word.setPositions word).map (base + ·)).takeWhile (· < limit)) state
        with
        | (true, state) =>
            if ∀ position ∈ Word.setPositions word, base + position < limit then
              .onward state
            else
              .done true state
        | (false, state) => .done false state := by
  fun_induction walkWord accept limit base word state with
  | case1 state =>
      have none : Word.setPositions 0 = [] := by simp [Word.setPositions]
      rw [none]
      simp [walkFacts]
  | case2 word state nonzero fact past =>
      have outside : ¬base + word.ctz.toNat < limit := Nat.not_lt.mpr past
      rw [Word.setPositions_eq_cons nonzero, List.map_cons,
        List.takeWhile_cons_of_neg (by simpa using outside)]
      simp [walkFacts, outside]
  | case3 word state nonzero fact below next accepted ih =>
      have inside : base + word.ctz.toNat < limit := Nat.not_le.mp below
      rw [ih, Word.setPositions_eq_cons nonzero, List.map_cons,
        List.takeWhile_cons_of_pos (by simpa using inside), walkFacts, accepted]
      simp [inside]
  | case4 word state nonzero fact below next rejected =>
      have inside : base + word.ctz.toNat < limit := Nat.not_le.mp below
      rw [Word.setPositions_eq_cons nonzero, List.map_cons,
        List.takeWhile_cons_of_pos (by simpa using inside), walkFacts, rejected]

/-- Walking the words of a row shows its facts below the limit in order, by induction on the words.
A word with a fact past the limit is the last one with facts below it.
-/
theorem walkWords_eq_walkFacts (accept : Nat → σ → Bool × σ) (limit base : Nat) (row : Row)
    (state : σ)
    : walkWords accept limit base row state
      = walkFacts accept ((Row.bitsFrom base row).takeWhile (· < limit)) state := by
  induction row generalizing base state with
  | nil => rfl
  | cons word rest ih =>
      rw [walkWords, walkWord_eq, Row.bitsFrom]
      by_cases whole : ∀ position ∈ Word.setPositions word, base + position < limit
      · have all : ∀ fact ∈ (Word.setPositions word).map (base + ·),
            decide (fact < limit) = true := by
          simpa using whole
        rw [List.takeWhile_append_of_pos all, List.takeWhile_eq_self_iff.mpr all, walkFacts_append]
        simp only [if_pos whole]
        rcases walkFacts accept ((Word.setPositions word).map (base + ·)) state
          with ⟨accepted, seen⟩
        cases accepted with
        | false => rfl
        | true => exact ih (base + wordBits) seen
      · have cut : ((Word.setPositions word).map (base + ·)
              ++ Row.bitsFrom (base + wordBits) rest).takeWhile (· < limit)
            = ((Word.setPositions word).map (base + ·)).takeWhile (· < limit) := by
          rw [List.takeWhile_append]
          split
          case isTrue same =>
            have all := List.takeWhile_eq_self_iff.mp
              ((List.takeWhile_sublist _).eq_of_length same)
            exact absurd (by simpa using all) whole
          case isFalse => rfl
        rw [cut]
        simp only [if_neg whole]
        rcases walkFacts accept (((Word.setPositions word).map (base + ·)).takeWhile (· < limit))
          state with ⟨accepted, seen⟩
        cases accepted with
        | false => rfl
        | true => rfl

-----------------------------------------------------------------------------------------
-- Nodes
-----------------------------------------------------------------------------------------

/-- A walk over nodes is a walk over the facts that their rows list below the declared width, by
induction on the nodes.
-/
theorem walkNodes_eq_walkFacts {view : View} {nodes : List Node} {rows : List Row}
    (found : nodes.mapM (analysis.viewRow view) = .ok rows) (accept : Nat → σ → Bool × σ)
    (state : σ)
    : analysis.walkNodes view accept nodes state
      = .ok
        (walkFacts accept (rows.flatMap fun row => row.bits.takeWhile (· < analysis.bits))
          state) := by
  induction nodes generalizing rows state with
  | nil =>
      cases found
      rfl
  | cons node rest ih =>
      rw [List.mapM_cons] at found
      obtain ⟨row, here, afterRow⟩ := bind_eq_ok.mp found
      obtain ⟨others, further, last⟩ := bind_eq_ok.mp afterRow
      cases last
      rw [walkNodes, here, ok_bind, walkWords_eq_walkFacts, List.flatMap_cons, walkFacts_append]
      split
      case h_1 accepted =>
        rw [Row.bits, accepted]
        exact ih further _
      case h_2 rejected =>
        rw [Row.bits, rejected]
        rfl

section Reading

variable (full : analysis.Sized)

include full

theorem Sized.viewRow (view : View) {node : Node} (inside : node < analysis.graph.nodeCount)
    : ∃ row, analysis.viewRow view node = .ok row := by
  obtain ⟨held, foundHeld, length⟩ := full.onEntry.row inside
  cases view with
  | entry => exact ⟨held, foundHeld⟩
  | exit =>
      obtain ⟨leaving, transferred, _⟩ := full.transfer inside length
      exact ⟨leaving, bind_eq_ok.mpr ⟨held, foundHeld, transferred⟩⟩
  | gens =>
      obtain ⟨gens, foundGens, _⟩ := full.gens.row inside
      exact ⟨gens, foundGens⟩

/-- The rows of nodes of the graph can all be read, by induction on the nodes. -/
theorem Sized.viewRows (view : View) {nodes : List Node}
    (inside : ∀ node ∈ nodes, node < analysis.graph.nodeCount)
    : ∃ rows, nodes.mapM (analysis.viewRow view) = .ok rows := by
  induction nodes with
  | nil => exact ⟨[], rfl⟩
  | cons node rest ih =>
      obtain ⟨row, here⟩ := full.viewRow view (inside node List.mem_cons_self)
      obtain ⟨rows, further⟩ := ih fun later listed => inside later (List.mem_cons_of_mem node listed)
      refine ⟨row :: rows, ?_⟩
      rw [List.mapM_cons]
      exact bind_eq_ok.mpr ⟨row, here, bind_eq_ok.mpr ⟨rows, further, rfl⟩⟩

/-- A query over a graph in range always has an answer. -/
theorem Sized.walk (inRange : analysis.graph.InRange) (view : View) (element : E)
    (accept : Nat → σ → Bool × σ) (state : σ)
    : ∃ answer, analysis.walk view element accept state = .ok answer := by
  rw [Analysis.walk]
  split
  case isTrue => exact ⟨(true, state), rfl⟩
  case isFalse =>
    obtain ⟨rows, found⟩ := full.viewRows view (inRange.index element)
    exact ⟨_, walkNodes_eq_walkFacts found accept state⟩

end Reading

end Dataflow.Analysis
