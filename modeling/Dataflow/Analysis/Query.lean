import Dataflow.Analysis.Basic

/-! Walking the facts of an element. A predicate sees the facts one by one, may carry a state
from one to the next, and ends the whole walk by rejecting one. Only facts below the declared
width are shown: a row's walk ends, accepted, at the first stored position past it.
-/

namespace Dataflow.Analysis

variable {E σ : Type} [Ord E]

/-- Which row of a node a walk reads. -/
inductive View where
  /-- The facts on entry. -/
  | entry
  /-- The facts that leave the node. -/
  | exit
  /-- The facts established at the node. -/
  | gens
deriving DecidableEq, Repr

/-- The row of a node under a view. -/
def viewRow (analysis : Analysis E) (view : View) (node : Node) : Except Fault Row :=
  match view with
  | .entry => analysis.onEntry.row node
  | .exit => do analysis.transfer node (← analysis.onEntry.row node)
  | .gens => analysis.gens.row node

/-- How the walk over a word ends: it goes on with the next word, or the row is done with. -/
inductive Walked (σ : Type) where
  | onward (state : σ)
  | done (accepted : Bool) (state : σ)

/-- Show the facts of a word to a predicate, the lowest first, until it rejects one. The positions
of the word begin at `base`. A fact that is not below `limit` is not shown: it ends the walk over
the row, which is accepted.
-/
def walkWord (accept : Nat → σ → Bool × σ) (limit base : Nat) (word : Word) (state : σ)
    : Walked σ :=
  if word = 0 then
    .onward state
  else
    let fact := base + word.ctz.toNat
    if limit ≤ fact then
      .done true state
    else
      match accept fact state with
      | (true, state) => walkWord accept limit base (Word.withoutLowest word) state
      | (false, state) => .done false state
termination_by word.toNat
decreasing_by exact Word.toNat_withoutLowest_lt (by assumption)

/-- Show the facts below `limit` in the words from position `base` on to a predicate, until it
rejects one.
-/
def walkWords (accept : Nat → σ → Bool × σ) (limit : Nat) : Nat → Row → σ → Bool × σ
  | _, [], state => (true, state)
  | base, word :: rest, state =>
      match walkWord accept limit base word state with
      | .onward state => walkWords accept limit (base + wordBits) rest state
      | .done accepted state => (accepted, state)

/-- Show the facts of several nodes to a predicate, node by node, until it rejects one. The row
of a node is read only once the walk gets there.
-/
def walkNodes (analysis : Analysis E) (view : View) (accept : Nat → σ → Bool × σ)
    : List Node → σ → Except Fault (Bool × σ)
  | [], state => .ok (true, state)
  | node :: rest, state => do
      let row ← analysis.viewRow view node
      match walkWords accept analysis.bits 0 row state with
      | (true, state) => walkNodes analysis view accept rest state
      | (false, state) => return (false, state)

/-- Show the facts of an element to a predicate until it rejects one, and tell whether it
accepted all. An element that occurs nowhere has no facts.
-/
def walk (analysis : Analysis E) (view : View) (element : E)
    (accept : Nat → σ → Bool × σ) (state : σ)
    : Except Fault (Bool × σ) :=
  if analysis.bits = 0 then
    .ok (true, state)
  else
    walkNodes analysis view accept (analysis.graph.index.nodes element) state

end Dataflow.Analysis
