import Dataflow.Bits.Join

/-! A table keeps one row of facts per node, packed back to back in one array of words: the row
of `node` is the words from `node * width` up to `(node + 1) * width`. Writing a row replaces
those words and no others.
-/

namespace Dataflow

/-- Rows of `width` words each, packed back to back. -/
structure Table where
  width : Nat
  words : Array Word
deriving DecidableEq, Repr

namespace Table

/-- A table of `count` rows with every word equal to `word`, however many words these are. -/
def filled (count width : Nat) (word : Word) : Table :=
  { width, words := Array.replicate (count * width) word }

/-- Sizes are counted modulo `2 ^ 64`. -/
def sizeLimit : Nat :=
  0x10000000000000000

/-- The table that is allocated for `count` rows. If these have too many words to be counted, it has
fewer words than they need, and it may have none.
-/
def allocated (count width : Nat) (word : Word) : Table :=
  { width, words := Array.replicate (count * width % sizeLimit) word }

/-- Whether all words of the node's row are stored. In a table of width zero every node has a
row, the empty one.
-/
def HasRow (table : Table) (node : Nat) : Prop :=
  (node + 1) * table.width ≤ table.words.size

instance (table : Table) (node : Nat) : Decidable (table.HasRow node) :=
  inferInstanceAs (Decidable ((node + 1) * table.width ≤ table.words.size))

/-- The row of a node. -/
def row (table : Table) (node : Nat) : Except Fault Row :=
  if table.HasRow node then
    .ok (table.words.extract (node * table.width) ((node + 1) * table.width)).toList
  else
    .error .indexOutOfRange

/-- Write words into an array from position `start` on. -/
def overwrite (words : Array Word) (start : Nat) : Row → Array Word
  | [] => words
  | word :: rest => overwrite (words.setIfInBounds start word) (start + 1) rest

/-- Replace the row of a node. -/
def setRow (table : Table) (node : Nat) (row : Row) : Table :=
  { table with words := overwrite table.words (node * table.width) row }

/-- Add one fact to the row of a node. -/
def setBit (table : Table) (node bit : Nat) : Except Fault Table := do
  let row ← table.row node
  let row ← row.setBit bit
  return table.setRow node row

/-- The room of all rows of a table under a join. -/
def room (table : Table) (join : Join) : Nat :=
  join.roomOf table.words.toList

/-- Writing words that fit replaces exactly the words at their positions, by induction on the
words written.
-/
theorem toList_overwrite (words : Array Word) (start : Nat) (row : Row)
    (fits : start + row.length ≤ words.size)
    : (overwrite words start row).toList
      = words.toList.take start ++ row ++ words.toList.drop (start + row.length) := by
  induction row generalizing words start with
  | nil => simp [overwrite]
  | cons word rest ih =>
      simp only [List.length_cons] at fits
      rw [overwrite, ih _ _ (by simp only [Array.size_setIfInBounds]; omega)]
      simp only [Array.toList_setIfInBounds]
      have inside : start < words.toList.length := by
        rw [Array.length_toList]
        omega
      have kept : (words.toList.take start).set start word = words.toList.take start :=
        List.set_eq_of_length_le (List.length_take_le start words.toList)
      rw [List.take_succ_eq_append_getElem (by simpa using inside)]
      simp [List.take_set, List.drop_set, kept, Nat.add_assoc, Nat.add_comm 1]

/-- Writing words keeps the size of the array. -/
@[simp]
theorem size_overwrite (words : Array Word) (start : Nat) (row : Row)
    : (overwrite words start row).size = words.size := by
  induction row generalizing words start with
  | nil => rfl
  | cons word rest ih => simp [overwrite, ih]

/-- Replacing a row keeps the width of all rows. -/
@[simp]
theorem width_setRow (table : Table) (node : Nat) (row : Row)
    : (table.setRow node row).width = table.width :=
  rfl

/-- Replacing a row keeps the number of stored words. -/
@[simp]
theorem size_setRow (table : Table) (node : Nat) (row : Row)
    : (table.setRow node row).words.size = table.words.size := by
  simp [setRow]

/-- Replacing a row keeps which nodes have one. -/
@[simp]
theorem hasRow_setRow (table : Table) (node other : Nat) (row : Row)
    : (table.setRow node row).HasRow other ↔ table.HasRow other := by
  simp [HasRow]

/-- The row of a node is the stored words between its bounds. -/
theorem row_eq_ok_iff {table : Table} {node : Nat} {row : Row}
    : table.row node = .ok row
      ↔ table.HasRow node
        ∧ row = (table.words.toList.drop (node * table.width)).take table.width := by
  unfold Table.row
  have span : (node + 1) * table.width - node * table.width = table.width := by
    rw [Nat.add_mul]; omega
  split
  case isTrue stored => simp [stored, List.extract_eq_take_drop, span, eq_comm]
  case isFalse missing => simp [missing]

/-- A node has no row exactly when some word of it is not stored. -/
theorem row_eq_error_iff {table : Table} {node : Nat} {fault : Fault}
    : table.row node = .error fault ↔ ¬table.HasRow node ∧ fault = .indexOutOfRange := by
  unfold Table.row
  split
  case isTrue stored => simp [stored]
  case isFalse missing => simp [missing, eq_comm]

/-- Every row has the width of its table. -/
theorem length_of_row {table : Table} {node : Nat} {row : Row} (h : table.row node = .ok row)
    : row.length = table.width := by
  obtain ⟨stored, rfl⟩ := row_eq_ok_iff.mp h
  unfold HasRow at stored
  rw [Nat.add_mul] at stored
  simp only [List.length_take, List.length_drop, Array.length_toList]
  omega

/-- The stored words around a row, by splitting the array at its two bounds. -/
theorem toList_eq_of_row {table : Table} {node : Nat} {row : Row} (h : table.row node = .ok row)
    : table.words.toList
      = table.words.toList.take (node * table.width) ++ row
        ++ table.words.toList.drop (node * table.width + table.width) := by
  obtain ⟨_, rfl⟩ := row_eq_ok_iff.mp h
  rw [← List.drop_drop, List.append_assoc, List.take_append_drop, List.take_append_drop]

/-- Replacing a row trades the room of the old row for that of the new one. -/
theorem room_setRow (join : Join) {table : Table} {node : Nat} {held row : Row}
    (h : table.row node = .ok held) (same : row.length = held.length)
    : (table.setRow node row).room join + join.roomOf held
      = table.room join + join.roomOf row := by
  have width := length_of_row h
  have stored := (row_eq_ok_iff.mp h).1
  unfold HasRow at stored
  rw [Nat.add_mul] at stored
  have before := congrArg join.roomOf (toList_eq_of_row h)
  have after := congrArg join.roomOf
    (toList_overwrite table.words (node * table.width) row (by omega))
  simp only [Join.roomOf_append, same, width] at before after
  simp only [room, setRow]
  omega

/-- Reading back a replaced row gives the new row. -/
theorem row_setRow_self {table : Table} {node : Nat} {held row : Row}
    (h : table.row node = .ok held) (same : row.length = held.length)
    : (table.setRow node row).row node = .ok row := by
  have width := length_of_row h
  have stored := (row_eq_ok_iff.mp h).1
  refine row_eq_ok_iff.mpr ⟨(hasRow_setRow table node node row).mpr stored, ?_⟩
  unfold HasRow at stored
  rw [Nat.add_mul] at stored
  simp only [setRow, toList_overwrite table.words (node * table.width) row (by omega)]
  rw [List.append_assoc, List.drop_append_of_le_length (by
    rw [List.length_take, Array.length_toList]
    omega)]
  rw [List.drop_eq_nil_of_le (List.length_take_le _ _), List.nil_append, ← width, ← same,
    List.take_left]

/-- Replacing a row leaves every other row as it was, since the bounds of two rows do not
overlap.
-/
theorem row_setRow_of_ne {table : Table} {node other : Nat} {held row : Row}
    (h : table.row node = .ok held) (same : row.length = held.length) (distinct : other ≠ node)
    : (table.setRow node row).row other = table.row other := by
  have width := length_of_row h
  have stored := (row_eq_ok_iff.mp h).1
  unfold HasRow at stored
  rw [Nat.add_mul] at stored
  have count : table.words.toList.length = table.words.size := Array.length_toList
  have written := toList_overwrite table.words (node * table.width) row (by omega)
  by_cases inside : table.HasRow other
  · have left : ((table.setRow node row).words.toList.drop (other * table.width)).take table.width
        = (table.words.toList.drop (other * table.width)).take table.width := by
      apply List.ext_getElem?
      intro position
      simp only [setRow, written, List.getElem?_take, List.getElem?_drop]
      by_cases near : position < table.width
      · simp only [near, if_true]
        rcases Nat.lt_or_gt_of_ne distinct with before | after
        · have bound : (other + 1) * table.width ≤ node * table.width :=
            Nat.mul_le_mul_right _ before
          rw [Nat.add_mul] at bound
          rw [List.append_assoc, List.getElem?_append_left (by
              rw [List.length_take, count]
              omega),
            List.getElem?_take_of_lt (by omega)]
        · have bound : (node + 1) * table.width ≤ other * table.width :=
            Nat.mul_le_mul_right _ after
          rw [Nat.add_mul] at bound
          rw [List.getElem?_append_right (by
            rw [List.length_append, List.length_take, count]
            omega), List.getElem?_drop]
          congr 1
          rw [List.length_append, List.length_take, count]
          omega
      · simp [near]
    rw [row_eq_ok_iff.mpr ⟨inside, rfl⟩]
    exact row_eq_ok_iff.mpr ⟨(hasRow_setRow table node other row).mpr inside, left.symm⟩
  · rw [row_eq_error_iff.mpr ⟨inside, rfl⟩]
    exact row_eq_error_iff.mpr
      ⟨fun found => inside ((hasRow_setRow table node other row).mp found), rfl⟩

/-- Every row of a filled table repeats its word. -/
theorem row_filled {count width node : Nat} {word : Word} (inside : node < count)
    : (filled count width word).row node = .ok (List.replicate width word) := by
  have bound : (node + 1) * width ≤ count * width := Nat.mul_le_mul_right width inside
  refine row_eq_ok_iff.mpr ⟨by simpa [HasRow, filled] using bound, ?_⟩
  rw [Nat.add_mul] at bound
  simp only [filled, Array.toList_replicate, List.drop_replicate, List.take_replicate]
  congr 1
  omega

/-- Adding a fact to a row changes that row alone, and only by the fact. -/
theorem setBit_eq_ok {table result : Table} {node bit : Nat}
    (h : table.setBit node bit = .ok result)
    : ∃ held row, table.row node = .ok held ∧ held.setBit bit = .ok row
      ∧ result = table.setRow node row := by
  obtain ⟨held, stored, afterRead⟩ := bind_eq_ok.mp h
  obtain ⟨row, added, written⟩ := bind_eq_ok.mp afterRead
  cases written
  exact ⟨held, row, stored, added, rfl⟩

end Table

end Dataflow
