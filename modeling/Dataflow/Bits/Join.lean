import Dataflow.Bits.Row

/-! Joining rows of facts. A join moves every word in one direction only: a union adds facts and
a subtraction removes them. The distance still open to it is `Join.room`, and a join that changes
a row spends some of it.
-/

namespace Dataflow

/-- How facts that arrive are combined with facts already held. -/
inductive Join where
  /-- Keep the facts of both sides. -/
  | union
  /-- Keep the held facts that do not arrive. -/
  | subtract
deriving DecidableEq, Repr

namespace Join

/-- The name a join is reported under. -/
def name : Join → String
  | union => "Union"
  | subtract => "Subtract"

/-- Join one word of arriving facts into a held word. -/
def word : Join → Word → Word → Word
  | union, held, arriving => held ||| arriving
  | subtract, held, arriving => held &&& Word.complement arriving

/-- Join words into held ones from the front. The words joined so far are in `joined`, and `changed`
tells whether one of them differs from what was held.
-/
def joinWords (join : Join) : Row → Row → Array Word → Bool → Array Word × Bool
  | held :: more, arriving :: rest, joined, changed =>
      let word := join.word held arriving
      join.joinWords more rest (joined.push word) (changed || word != held)
  | _, _, joined, changed => (joined, changed)

/-- Join arriving facts into a held row, and tell whether the row has changed. Both rows must have
the same number of words.
-/
def update (join : Join) (held arriving : Row) : Except Fault (Row × Bool) :=
  if held.length = arriving.length then
    let outcome := join.joinWords held arriving #[] false
    .ok (outcome.1.toList, outcome.2)
  else
    .error .rowLengthMismatch

/-- Join two rows where it does not matter whether the held one changes. -/
def rows (join : Join) (held arriving : Row) : Except Fault Row := do
  let outcome ← join.update held arriving
  return outcome.1

/-- What one fact becomes under a join. -/
def bit : Join → Bool → Bool → Bool
  | union, held, arriving => held || arriving
  | subtract, held, arriving => held && !arriving

/-- How far a word can still move under a join: the facts it lacks for a union, those it has
for a subtraction, weighted by position.
-/
def room : Join → Word → Nat
  | union, held => (~~~held).toNat
  | subtract, held => held.toNat

/-- The room of a list of words. -/
def roomOf (join : Join) : List Word → Nat
  | [] => 0
  | word :: rest => join.room word + join.roomOf rest

/-- A join acts on each position separately, by the position law of each word operation. -/
theorem getLsbD_word (join : Join) (held arriving : Word) (position : Nat)
    : (join.word held arriving).getLsbD position
      = join.bit (held.getLsbD position) (arriving.getLsbD position) := by
  cases join with
  | union => simp [word, bit]
  | subtract =>
      simp only [word, bit, Word.complement_eq_not, BitVec.getLsbD_and, BitVec.getLsbD_not]
      by_cases inside : position < 32
      · simp [inside]
      · simp [BitVec.getLsbD_of_ge held position (Nat.not_lt.mp inside)]

/-- Joining words one by one joins them all, and the flag is set exactly if they differ from the
held ones or if it was set before. By induction on the words.
-/
theorem joinWords_eq (join : Join) {held arriving : Row} (same : held.length = arriving.length)
    (joined : Array Word) (changed : Bool)
    : join.joinWords held arriving joined changed
      = (joined ++ (List.zipWith join.word held arriving).toArray,
          changed || List.zipWith join.word held arriving != held) := by
  induction held generalizing arriving joined changed with
  | nil => simp [joinWords]
  | cons word rest ih =>
      cases arriving with
      | nil => simp at same
      | cons other more =>
          rw [joinWords, ih (by simpa using same)]
          simp [List.zipWith_cons_cons, Bool.or_assoc, bne]

theorem update_of_length_eq (join : Join) {held arriving : Row}
    (same : held.length = arriving.length)
    : join.update held arriving
      = .ok (List.zipWith join.word held arriving,
          List.zipWith join.word held arriving != held) := by
  rw [update, if_pos same, joinWords_eq join same]
  simp

theorem rows_eq_ok {join : Join} {held arriving result : Row}
    : join.rows held arriving = .ok result
      ↔ held.length = arriving.length ∧ result = List.zipWith join.word held arriving := by
  by_cases same : held.length = arriving.length
  · simp [rows, update_of_length_eq join same, same, bind, Except.bind, pure, Except.pure, eq_comm]
  · simp [rows, update, same, bind, Except.bind]

/-- The flag is exact: an update joins the rows, and tells whether the joined row differs from the
held one.
-/
theorem update_eq_ok {join : Join} {held arriving result : Row} {changed : Bool}
    : join.update held arriving = .ok (result, changed)
      ↔ join.rows held arriving = .ok result ∧ changed = (result != held) := by
  rw [rows_eq_ok]
  by_cases same : held.length = arriving.length
  · rw [update_of_length_eq join same]
    simp only [Except.ok.injEq, Prod.mk.injEq, same, true_and]
    constructor
    · rintro ⟨rfl, rfl⟩
      exact ⟨rfl, rfl⟩
    · rintro ⟨rfl, rfl⟩
      exact ⟨rfl, rfl⟩
  · simp [update, same]

/-- A joined row has as many words as the held one. -/
theorem length_of_rows {join : Join} {held arriving result : Row}
    (h : join.rows held arriving = .ok result)
    : result.length = held.length := by
  obtain ⟨same, rfl⟩ := rows_eq_ok.mp h
  simp [← same]

/-- A join acts on each fact separately, by looking both words up. -/
theorem testBit_of_rows {join : Join} {held arriving result : Row}
    (h : join.rows held arriving = .ok result) (tested : Nat)
    : result.testBit tested = join.bit (held.testBit tested) (arriving.testBit tested) := by
  obtain ⟨same, rfl⟩ := rows_eq_ok.mp h
  unfold Row.testBit
  rw [List.getElem?_zipWith]
  by_cases stored : tested / wordBits < held.length
  · rw [List.getElem?_eq_getElem stored, List.getElem?_eq_getElem (same ▸ stored)]
    simp [getLsbD_word]
  · rw [List.getElem?_eq_none (by omega), List.getElem?_eq_none (by omega)]
    cases join <;> rfl

/-- A joined word has no more room than before, since it moved in the join's direction. -/
theorem room_word_le (join : Join) (held arriving : Word)
    : join.room (join.word held arriving) ≤ join.room held := by
  cases join with
  | union =>
      simp only [room, word, BitVec.not_or, BitVec.toNat_and]
      exact Nat.and_le_left
  | subtract =>
      simp only [room, word, BitVec.toNat_and]
      exact Nat.and_le_left

/-- The room of a word determines the word. -/
theorem eq_of_room_eq {join : Join} {left right : Word} (h : join.room left = join.room right)
    : left = right := by
  cases join with
  | union => exact BitVec.not_inj.mp (BitVec.eq_of_toNat_eq h)
  | subtract => exact BitVec.eq_of_toNat_eq h

theorem roomOf_append (join : Join) (first second : List Word)
    : join.roomOf (first ++ second) = join.roomOf first + join.roomOf second := by
  induction first with
  | nil => simp [roomOf]
  | cons word rest ih => simp only [List.cons_append, roomOf, ih, Nat.add_assoc]

/-- Joining rows never adds room, by induction on the words. -/
theorem roomOf_zipWith_le (join : Join) (held arriving : Row)
    : join.roomOf (List.zipWith join.word held arriving) ≤ join.roomOf held := by
  induction held generalizing arriving with
  | nil => simp
  | cons word rest ih =>
      cases arriving with
      | nil => simp [roomOf]
      | cons other more =>
          have head := join.room_word_le word other
          have tail := ih more
          simp only [roomOf, List.zipWith_cons_cons] at *
          omega

/-- A join that changes a row spends room, by induction on the words: a word of equal room is
the same word.
-/
theorem roomOf_lt_of_rows {join : Join} {held arriving result : Row}
    (h : join.rows held arriving = .ok result) (changed : result ≠ held)
    : join.roomOf result < join.roomOf held := by
  obtain ⟨same, rfl⟩ := rows_eq_ok.mp h
  clear h
  induction held generalizing arriving with
  | nil => simp at changed
  | cons word rest ih =>
      cases arriving with
      | nil => simp at same
      | cons other more =>
          have head := join.room_word_le word other
          have tail := join.roomOf_zipWith_le rest more
          simp only [List.zipWith_cons_cons, roomOf] at *
          by_cases equal : join.word word other = word
          · have further := ih (by simpa using same) (by simpa [equal] using changed)
            omega
          · have strict : join.room (join.word word other) ≠ join.room word :=
              fun rooms => equal (eq_of_room_eq rooms)
            omega

end Join

end Dataflow
