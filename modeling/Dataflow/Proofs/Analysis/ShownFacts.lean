import Dataflow.Proofs.Analysis.Queries
import Mathlib.Data.List.Sort

/-! What a query shows to its predicate. The facts of an element are listed node by node, and at
each node in increasing order: all those of the row below the declared width and no others, so that
a stored fact past the width ends the walk of its own row and hides nothing. The predicate is called
on the facts of this list one after the other, up to and including the first that it rejects.
-/

namespace Dataflow

-----------------------------------------------------------------------------------------
-- The facts of a row below a limit
-----------------------------------------------------------------------------------------

/-- Cutting an increasing list at a limit keeps everything below the limit. -/
theorem takeWhile_lt_eq_filter {facts : List Nat} (increasing : facts.Pairwise (· < ·))
    (limit : Nat)
    : facts.takeWhile (· < limit) = facts.filter (· < limit) := by
  induction increasing with
  | nil => rfl
  | @cons fact rest above _ ih =>
      by_cases below : fact < limit
      · rw [List.takeWhile_cons_of_pos (by simpa using below),
          List.filter_cons_of_pos (by simpa using below), ih]
      · have none : (fact :: rest).filter (· < limit) = [] := by
          apply List.filter_eq_nil_iff.mpr
          intro later listed
          rcases List.mem_cons.mp listed with rfl | listed
          · simpa using below
          · have greater := above later listed
            simp only [decide_eq_true_eq]
            omega
        rw [none, List.takeWhile_cons_of_neg (by simpa using below)]

/-- The facts that a walk takes from a row are all of its facts below the limit. Witness: both lists
increase strictly and have the same members.
-/
theorem Row.takeWhile_bits (row : Row) (limit : Nat)
    : row.bits.takeWhile (· < limit) = (List.range limit).filter row.testBit := by
  rw [takeWhile_lt_eq_filter row.pairwise_bits]
  apply (row.pairwise_bits.filter _).eq_of_mem_iff (List.pairwise_lt_range.filter _)
  intro bit
  simp only [List.mem_filter, Row.mem_bits, List.mem_range, decide_eq_true_eq]
  exact and_comm

namespace Analysis

variable {E σ : Type} [Ord E]

-----------------------------------------------------------------------------------------
-- Calls of a predicate
-----------------------------------------------------------------------------------------

/-- The state of a predicate after it has been called on facts one after the other. -/
def stateAfter (accept : Nat → σ → Bool × σ) (facts : List Nat) (state : σ) : σ :=
  facts.foldl (fun state fact => (accept fact state).2) state

/-- A predicate that also notes down the facts it is called on. -/
def noting (accept : Nat → σ → Bool × σ) (fact : Nat) (noted : σ × List Nat)
    : Bool × σ × List Nat :=
  ((accept fact noted.1).1, (accept fact noted.1).2, noted.2 ++ [fact])

/-- Called on the facts one after the other, the predicate rejects the last of them. -/
def EndsRejected (accept : Nat → σ → Bool × σ) (state : σ) (facts : List Nat) : Prop :=
  ∃ before last, facts = before ++ [last]
    ∧ (accept last (stateAfter accept before state)).1 = false

/-- What a predicate is called on, given a list of facts, and the answer that it leads to: the whole
list if no fact is rejected, else the shortest part from its start that ends with a rejected fact.
-/
inductive Shows (accept : Nat → σ → Bool × σ) (state : σ) (facts : List Nat)
    : List Nat → Bool → Prop
  | all (accepted : ∀ begun, begun <+: facts → ¬EndsRejected accept state begun)
    : Shows accept state facts facts true
  | some {shown : List Nat} (starts : shown <+: facts) (rejected : EndsRejected accept state shown)
    (shortest : ∀ begun, begun <+: facts → EndsRejected accept state begun
      → shown.length ≤ begun.length)
    : Shows accept state facts shown false

theorem not_endsRejected_nil (accept : Nat → σ → Bool × σ) (state : σ)
    : ¬EndsRejected accept state [] := by
  rintro ⟨before, last, split, _⟩
  simp at split

/-- The first of several facts is not the last, so that it only sets the state for the others. -/
theorem endsRejected_cons {accept : Nat → σ → Bool × σ} {state : σ} {fact : Nat} {rest : List Nat}
    : EndsRejected accept state (fact :: rest)
      ↔ rest = [] ∧ (accept fact state).1 = false
        ∨ EndsRejected accept (accept fact state).2 rest := by
  constructor
  · rintro ⟨before, last, split, rejected⟩
    cases before with
    | nil =>
        cases split
        exact Or.inl ⟨rfl, rejected⟩
    | cons first before =>
        cases split
        exact Or.inr ⟨before, last, rfl, rejected⟩
  · rintro (⟨rfl, rejected⟩ | ⟨before, last, rfl, rejected⟩)
    · exact ⟨[], fact, rfl, rejected⟩
    · exact ⟨fact :: before, last, rfl, rejected⟩

section FirstFact

variable {accept : Nat → σ → Bool × σ} {state : σ} {fact : Nat}

/-- After an accepted fact the calls go on with the rest of the list. -/
theorem Shows.cons (accepted : (accept fact state).1 = true) {facts shown : List Nat}
    {answer : Bool} (shows : Shows accept (accept fact state).2 facts shown answer)
    : Shows accept state (fact :: facts) (fact :: shown) answer := by
  -- A part that ends rejected goes on past the accepted fact.
  have past : ∀ begun, begun <+: fact :: facts → EndsRejected accept state begun
      → ∃ later, begun = fact :: later ∧ later <+: facts
        ∧ EndsRejected accept (accept fact state).2 later := by
    intro begun starts rejected
    cases begun with
    | nil => exact absurd rejected (not_endsRejected_nil accept state)
    | cons first later =>
        obtain ⟨rfl, inside⟩ := List.cons_prefix_cons.mp starts
        rcases endsRejected_cons.mp rejected with ⟨_, refused⟩ | onward
        · rw [accepted] at refused
          cases refused
        · exact ⟨later, rfl, inside, onward⟩
  cases shows with
  | all none =>
      refine .all fun begun starts rejected => ?_
      obtain ⟨later, _, starts, rejected⟩ := past begun starts rejected
      exact none later starts rejected
  | some starts rejected shortest =>
      refine .some (List.cons_prefix_cons.mpr ⟨rfl, starts⟩)
        (endsRejected_cons.mpr (Or.inr rejected)) fun begun starts rejected => ?_
      obtain ⟨later, rfl, starts, rejected⟩ := past begun starts rejected
      exact Nat.succ_le_succ (shortest later starts rejected)

/-- A rejected fact is the last that the predicate is called on. -/
theorem Shows.single (rejected : (accept fact state).1 = false) (facts : List Nat)
    : Shows accept state (fact :: facts) [fact] false := by
  refine .some (List.cons_prefix_cons.mpr ⟨rfl, List.nil_prefix⟩)
    (endsRejected_cons.mpr (Or.inl ⟨rfl, rejected⟩)) fun begun _ rejected => ?_
  cases begun with
  | nil => exact absurd rejected (not_endsRejected_nil accept state)
  | cons first later => exact Nat.succ_le_succ (Nat.zero_le _)

end FirstFact

/-- The answer is yes exactly if no call was rejected. -/
theorem Shows.answer_iff {accept : Nat → σ → Bool × σ} {state : σ} {facts shown : List Nat}
    {answer : Bool} (shows : Shows accept state facts shown answer)
    : answer = true ↔ ∀ called, called <+: shown → ¬EndsRejected accept state called := by
  cases shows with
  | all accepted => exact iff_of_true rfl accepted
  | some starts rejected shortest =>
      exact iff_of_false Bool.noConfusion fun none => none shown List.prefix_rfl rejected

/-- A walk over a list of facts calls the predicate on what the list shows it, by induction on the
list. The state after an accepted fact is the one in which the rest is walked.
-/
theorem walkFacts_shows (accept : Nat → σ → Bool × σ) (facts : List Nat) (state : σ)
    : ∃ shown answer,
        walkFacts accept facts state = (answer, stateAfter accept shown state)
        ∧ (∀ earlier,
            walkFacts (noting accept) facts (state, earlier)
              = (answer, stateAfter accept shown state, earlier ++ shown))
        ∧ Shows accept state facts shown answer := by
  induction facts generalizing state with
  | nil =>
      refine ⟨[], true, rfl, fun earlier => by simp [walkFacts, stateAfter], .all ?_⟩
      intro begun starts
      rw [List.prefix_nil.mp starts]
      exact not_endsRejected_nil accept state
  | cons fact rest ih =>
      cases accepted : (accept fact state).1 with
      | true =>
          obtain ⟨shown, answer, walked, noted, shows⟩ := ih (accept fact state).2
          have call : accept fact state = (true, (accept fact state).2) := Prod.ext accepted rfl
          refine ⟨fact :: shown, answer, ?_, fun earlier => ?_, shows.cons accepted⟩
          · rw [walkFacts, call]
            exact walked
          · rw [walkFacts, noting, accepted]
            exact (noted (earlier ++ [fact])).trans (by rw [List.append_assoc]; rfl)
      | false =>
          have call : accept fact state = (false, (accept fact state).2) := Prod.ext accepted rfl
          refine ⟨[fact], false, ?_, fun earlier => ?_, .single accepted rest⟩
          · rw [walkFacts, call]
            rfl
          · rw [walkFacts, noting, accepted]
            rfl

-----------------------------------------------------------------------------------------
-- The facts that a query lists
-----------------------------------------------------------------------------------------

/-- The facts that a query about an element lists, given the rows of the element's nodes. There are
none if none are declared or the element is unknown; else they are the facts of each row below the
declared width, row after row and in increasing order.
-/
def listedFacts (analysis : Analysis E) (element : E) (rows : List Row) : List Nat :=
  if analysis.bits = 0 ∨ analysis.graph.index.contains element = false then []
  else rows.flatMap fun row => (List.range analysis.bits).filter row.testBit

/-- A query walks the facts that it lists. -/
theorem walk_eq_walkFacts [Std.TransOrd E] {analysis : Analysis E} {view : View} {element : E}
    {rows : List Row}
    (found : (analysis.graph.index.nodes element).mapM (analysis.viewRow view) = .ok rows)
    (accept : Nat → σ → Bool × σ) (state : σ)
    : analysis.walk view element accept state
      = .ok (walkFacts accept (analysis.listedFacts element rows) state) := by
  rw [walk]
  by_cases none : analysis.bits = 0
  · rw [if_pos none, listedFacts, if_pos (Or.inl none)]
    rfl
  · rw [if_neg none, walkNodes_eq_walkFacts found]
    simp only [Row.takeWhile_bits]
    cases known : analysis.graph.index.contains element with
    | true =>
        have listed : ¬(analysis.bits = 0 ∨ analysis.graph.index.contains element = false) := by
          simp [none, known]
        rw [listedFacts, if_neg listed]
    | false =>
        rw [ElementIndex.nodes_of_not_contains known] at found
        cases found
        rw [listedFacts, if_pos (Or.inr known)]
        rfl

/-- A query about any element, of the facts on entry to its nodes, of those that leave them or of
those established there, reads the rows of all nodes of the element in order. It calls its
predicate, whatever state that carries, on the facts listed from these rows up to and including the
first that is rejected, and answers yes exactly if none is. Witness: a predicate that notes down its
calls.
-/
theorem walk_shows_listedFacts [Std.TransOrd E] {analysis : Analysis E} (full : analysis.Sized)
    (inRange : analysis.graph.InRange) (view : View) (element : E)
    : ∃ rows, (analysis.graph.index.nodes element).mapM (analysis.viewRow view) = .ok rows
      ∧ ∀ (σ : Type) (accept : Nat → σ → Bool × σ) (state : σ),
          ∃ shown answer,
            analysis.walk view element accept state
              = .ok (answer, stateAfter accept shown state)
            ∧ analysis.walk view element (noting accept) (state, [])
              = .ok (answer, stateAfter accept shown state, shown)
            ∧ Shows accept state (analysis.listedFacts element rows) shown answer
            ∧ (answer = true ↔ ∀ called, called <+: shown → ¬EndsRejected accept state called) := by
  obtain ⟨rows, found⟩ := full.viewRows view (inRange.index element)
  refine ⟨rows, found, fun σ accept state => ?_⟩
  obtain ⟨shown, answer, walked, noted, shows⟩ :=
    walkFacts_shows accept (analysis.listedFacts element rows) state
  refine ⟨shown, answer, ?_, ?_, shows, shows.answer_iff⟩
  · rw [walk_eq_walkFacts found, walked]
  · rw [walk_eq_walkFacts found, noted]
    rfl

/-- An analysis of 40 facts in which every stored fact holds on entry, also those past the width,
and fact 1 is killed at node 0. One element occurs at node 1, at node 0 and again at node 1.
-/
def overfull : Analysis Nat :=
  {
    initial (.listed 2 [1, 0] [] [(7, 1), (7, 0), (7, 1)]) { join := .subtract, startsFull := true }
      40 .forward with
    executionKills := (Table.filled 2 (wordsFor 40) 0).setRow 0 [2, 0]
  }

/-- A predicate that counts its calls and rejects fact 2 once it has been called 40 times. -/
def rejectsLateTwo (fact calls : Nat) : Bool × Nat :=
  (fact != 2 || calls < 40, calls + 1)

theorem walk_shows_listedFacts_overfull
    : overfull.Sized ∧ overfull.graph.InRange
      ∧ ∃ rows,
          (overfull.graph.index.nodes 7).mapM (overfull.viewRow .exit) = .ok rows
          ∧ overfull.walk .exit 7 (noting rejectsLateTwo) (0, [])
            = .ok (false, 42, List.range 40 ++ [0, 2])
          ∧ Shows rejectsLateTwo 0 (overfull.listedFacts 7 rows) (List.range 40 ++ [0, 2])
              false := by
  have full : overfull.Sized :=
    {
      sized_initial _ _ 40 .forward with
      executionKills := (Table.sized_filled _ _ _).setRow _ _
    }
  have inRange : overfull.graph.InRange :=
    GraphView.listed_inRange (by decide) (by decide) (by decide)
  have walked : overfull.walk .exit 7 (noting rejectsLateTwo) (0, [])
      = .ok (false, 42, List.range 40 ++ [0, 2]) := by decide +kernel
  obtain ⟨rows, found, calls⟩ := walk_shows_listedFacts full inRange .exit 7
  obtain ⟨shown, answer, _, noted, shows, _⟩ := calls Nat rejectsLateTwo 0
  have same := Except.ok.inj (walked.symm.trans noted)
  simp only [Prod.mk.injEq] at same
  obtain ⟨rfl, _, rfl⟩ := same
  exact ⟨full, inRange, rows, found, walked, shows⟩

end Analysis

end Dataflow
