import Dataflow.Bits.Table

/-! Tables read fact by fact. A table with one full row per node is determined by which facts are
in which rows, so the word layout can be forgotten once an operation's effect on facts is known.
-/

namespace Dataflow

-----------------------------------------------------------------------------------------
-- Rows
-----------------------------------------------------------------------------------------

namespace Row

theorem testBit_of_length_le {row : Row} {bit : Nat} (outside : wordBits * row.length ≤ bit)
    : row.testBit bit = false := by
  have past : row.length ≤ bit / wordBits :=
    (Nat.le_div_iff_mul_le (by decide)).mpr (by rwa [Nat.mul_comm])
  simp [testBit, List.getElem?_eq_none past]

theorem testBit_word (row : Row) (index position : Nat) (inside : position < wordBits)
    : row.testBit (wordBits * index + position)
      = (row[index]?).any fun word => word.getLsbD position := by
  have quotient : (wordBits * index + position) / wordBits = index := by
    rw [Nat.mul_add_div (by decide), Nat.div_eq_of_lt inside, Nat.add_zero]
  have remainder : (wordBits * index + position) % wordBits = position := by
    rw [Nat.mul_add_mod, Nat.mod_eq_of_lt inside]
  rw [testBit, quotient, remainder]

/-- Rows of one length with the same facts are equal. Witness: position `p` of word `i` is fact
`32 * i + p` on both sides.
-/
theorem ext_testBit {left right : Row} (lengths : left.length = right.length)
    (same : ∀ bit, left.testBit bit = right.testBit bit)
    : left = right := by
  apply List.ext_getElem lengths
  intro index inLeft inRight
  apply BitVec.eq_of_getLsbD_eq
  intro position inside
  have facts := same (wordBits * index + position)
  rw [testBit_word _ _ _ inside, testBit_word _ _ _ inside, List.getElem?_eq_getElem inLeft,
    List.getElem?_eq_getElem inRight] at facts
  simpa using facts

theorem exists_testBit_ne {left right : Row} (lengths : left.length = right.length)
    (different : left ≠ right)
    : ∃ bit, left.testBit bit ≠ right.testBit bit :=
  Classical.not_forall.mp fun same => different (ext_testBit lengths same)

theorem setBit_of_lt {row : Row} {bit : Nat} (stored : bit < wordBits * row.length)
    : ∃ result, row.setBit bit = .ok result := by
  have inside : bit / wordBits < row.length := Nat.div_lt_of_lt_mul stored
  exact ⟨_, if_pos inside⟩

end Row

-----------------------------------------------------------------------------------------
-- Tables with one row per node
-----------------------------------------------------------------------------------------

namespace Table

/-- Whether a fact is in the row of a node; false where the table has no such row. -/
def testBit (table : Table) (node bit : Nat) : Bool :=
  match table.row node with
  | .ok row => row.testBit bit
  | .error _ => false

/-- The table stores one row of `width` words for each of `count` nodes, and nothing else. -/
structure Sized (table : Table) (count width : Nat) : Prop where
  width_eq : table.width = width
  size_eq : table.words.size = count * width

theorem testBit_of_row {table : Table} {node : Nat} {row : Row} (found : table.row node = .ok row)
    (bit : Nat)
    : table.testBit node bit = row.testBit bit := by
  simp [testBit, found]

theorem testBit_of_row_error {table : Table} {node : Nat} {fault : Fault}
    (missing : table.row node = .error fault) (bit : Nat)
    : table.testBit node bit = false := by
  simp [testBit, missing]

/-- A row determines the facts of its node. -/
theorem testBit_congr {left right : Table} {node : Nat} (rows : left.row node = right.row node)
    (bit : Nat)
    : left.testBit node bit = right.testBit node bit := by
  rw [testBit, testBit, rows]

theorem Sized.row {table : Table} {count width node : Nat} (sized : table.Sized count width)
    (inside : node < count)
    : ∃ row, table.row node = .ok row ∧ row.length = width := by
  have stored : table.HasRow node := by
    rw [HasRow, sized.width_eq, sized.size_eq]
    exact Nat.mul_le_mul_right width inside
  have found := row_eq_ok_iff.mpr ⟨stored, rfl⟩
  exact ⟨_, found, (length_of_row found).trans sized.width_eq⟩

/-- Nodes of tables of one width have the same row if they have the same facts. -/
theorem Sized.row_eq_row {left right : Table} {count others width node : Nat}
    (sizedLeft : left.Sized count width) (sizedRight : right.Sized others width)
    (inLeft : node < count) (inRight : node < others)
    (same : ∀ bit, left.testBit node bit = right.testBit node bit)
    : ∃ row, left.row node = .ok row ∧ right.row node = .ok row := by
  obtain ⟨leftRow, foundLeft, leftLength⟩ := sizedLeft.row inLeft
  obtain ⟨rightRow, foundRight, rightLength⟩ := sizedRight.row inRight
  have rows : leftRow = rightRow := by
    apply Row.ext_testBit (leftLength.trans rightLength.symm)
    intro bit
    rw [← testBit_of_row foundLeft, ← testBit_of_row foundRight]
    exact same bit
  exact ⟨leftRow, foundLeft, rows ▸ foundRight⟩

theorem Sized.testBit_of_le {table : Table} {count width bit : Nat}
    (sized : table.Sized count width) (outside : wordBits * width ≤ bit) (node : Nat)
    : table.testBit node bit = false := by
  cases found : table.row node with
  | error fault => exact testBit_of_row_error found bit
  | ok row =>
      rw [testBit_of_row found]
      apply Row.testBit_of_length_le
      rwa [length_of_row found, sized.width_eq]

theorem Sized.setRow {table : Table} {count width : Nat} (sized : table.Sized count width)
    (node : Nat) (row : Row)
    : (table.setRow node row).Sized count width :=
  ⟨sized.width_eq, (size_setRow table node row).trans sized.size_eq⟩

theorem sized_filled (count width : Nat) (word : Word)
    : (filled count width word).Sized count width :=
  ⟨rfl, Array.size_replicate⟩

/-- Replacing a row replaces the facts of that node and of no other. -/
theorem testBit_setRow {table : Table} {node : Nat} {held row : Row}
    (found : table.row node = .ok held) (same : row.length = held.length) (other bit : Nat)
    : (table.setRow node row).testBit other bit
      = if other = node then row.testBit bit else table.testBit other bit := by
  by_cases here : other = node
  · rw [if_pos here, here]
    exact testBit_of_row (row_setRow_self found same) bit
  · rw [if_neg here, testBit, row_setRow_of_ne found same here, testBit]

theorem Sized.setBit {table : Table} {count width node bit : Nat}
    (sized : table.Sized count width) (inside : node < count) (stored : bit < wordBits * width)
    : ∃ result, table.setBit node bit = .ok result ∧ result.Sized count width := by
  obtain ⟨held, found, length⟩ := sized.row inside
  rw [← length] at stored
  obtain ⟨row, added⟩ := Row.setBit_of_lt stored
  refine ⟨table.setRow node row, ?_, sized.setRow node row⟩
  exact bind_eq_ok.mpr ⟨held, found, bind_eq_ok.mpr ⟨row, added, rfl⟩⟩

/-- Adding a fact to the row of a node adds it there and changes nothing else. -/
theorem testBit_of_setBit {table result : Table} {node bit : Nat}
    (added : table.setBit node bit = .ok result) (other tested : Nat)
    : result.testBit other tested
      = (table.testBit other tested || decide (other = node ∧ tested = bit)) := by
  obtain ⟨held, row, found, set, rfl⟩ := setBit_eq_ok added
  rw [testBit_setRow found (Row.length_of_setBit set), Row.testBit_of_setBit set]
  by_cases here : other = node
  · simp [here, testBit_of_row found]
  · simp [here]

/-- Every node of a filled table has the facts that its word has at their positions. -/
theorem testBit_filled (count width : Nat) (word : Word) (node bit : Nat)
    : (filled count width word).testBit node bit
      = (decide (node < count) && decide (bit < wordBits * width)
        && word.getLsbD (bit % wordBits)) := by
  by_cases stored : bit < wordBits * width
  · by_cases inside : node < count
    · have index : bit / wordBits < width := Nat.div_lt_of_lt_mul stored
      rw [testBit_of_row (row_filled inside)]
      simp [Row.testBit, index, inside, stored]
    · have missing : ¬(filled count width word).HasRow node := by
        intro found
        have words : (node + 1) * width ≤ count * width := by simpa [HasRow, filled] using found
        have positive : 0 < width := Nat.pos_of_mul_pos_left (Nat.zero_lt_of_lt stored)
        exact inside (Nat.le_of_mul_le_mul_right words positive)
      rw [testBit_of_row_error (row_eq_error_iff.mpr ⟨missing, rfl⟩)]
      simp [inside]
  · rw [(sized_filled count width word).testBit_of_le (Nat.not_lt.mp stored)]
    simp [stored]

theorem testBit_filled_zero (count width node bit : Nat)
    : (filled count width 0).testBit node bit = false := by
  simp [testBit_filled]

/-- A fact that a table has is a stored fact of one of its nodes. -/
theorem Sized.lt_of_testBit {table : Table} {count width node bit : Nat}
    (sized : table.Sized count width) (present : table.testBit node bit = true)
    : node < count ∧ bit < wordBits * width := by
  have stored : bit < wordBits * width := by
    apply Nat.lt_of_not_le
    intro outside
    rw [sized.testBit_of_le outside] at present
    cases present
  refine ⟨?_, stored⟩
  cases found : table.row node with
  | error fault =>
      rw [testBit_of_row_error found] at present
      cases present
  | ok row =>
      have words := (row_eq_ok_iff.mp found).1
      rw [HasRow, sized.width_eq, sized.size_eq] at words
      exact Nat.le_of_mul_le_mul_right words
        (Nat.pos_of_mul_pos_left (Nat.zero_lt_of_lt stored))

/-- Any list of places within the rows is what some table has, by adding them one by one to the
empty table.
-/
theorem exists_testBit_iff_mem (count width : Nat) (places : List (Nat × Nat))
    (inside : ∀ place ∈ places, place.1 < count ∧ place.2 < wordBits * width)
    : ∃ table : Table, table.Sized count width
      ∧ ∀ node bit, table.testBit node bit = true ↔ (node, bit) ∈ places := by
  induction places with
  | nil =>
      refine ⟨filled count width 0, sized_filled count width 0, fun node bit => ?_⟩
      simp [testBit_filled]
  | cons place rest ih =>
      obtain ⟨table, sized, facts⟩ :=
        ih fun other listed => inside other (List.mem_cons_of_mem place listed)
      obtain ⟨within, stored⟩ := inside place List.mem_cons_self
      obtain ⟨next, added, kept⟩ := sized.setBit within stored
      refine ⟨next, kept, fun node bit => ?_⟩
      rw [testBit_of_setBit added, Bool.or_eq_true, facts, decide_eq_true_eq, List.mem_cons,
        Prod.ext_iff, or_comm]

/-- Any choice of facts is that of a table, as far as the rows have a place for them. -/
theorem exists_testBit_iff (count width : Nat) (holds : Nat → Nat → Prop)
    : ∃ table : Table, table.Sized count width
      ∧ ∀ node bit, table.testBit node bit = true
        ↔ (node < count ∧ bit < wordBits * width) ∧ holds node bit := by
  classical
  have places : ∀ node bit,
      (node, bit) ∈ ((List.range count).flatMap fun node =>
          (List.range (wordBits * width)).map fun bit => (node, bit)).filter
            (fun place => holds place.1 place.2)
        ↔ (node < count ∧ bit < wordBits * width) ∧ holds node bit := by
    intro node bit
    simp
  obtain ⟨table, sized, facts⟩ := exists_testBit_iff_mem count width _
    fun place listed => ((places place.1 place.2).mp listed).1
  exact ⟨table, sized, fun node bit => (facts node bit).trans (places node bit)⟩

/-- A stored word is a word of the row that covers its position. -/
theorem Sized.getElem?_words {table : Table} {count width node index : Nat}
    (sized : table.Sized count width) {row : Row} (found : table.row node = .ok row)
    (inside : index < width)
    : table.words.toList[node * width + index]? = row[index]? := by
  obtain ⟨_, rfl⟩ := row_eq_ok_iff.mp found
  rw [sized.width_eq, List.getElem?_take_of_lt inside, List.getElem?_drop]

/-- Tables of one size with the same facts are equal. Witness: every stored word belongs to the row
that its position divided by the width names, and rows are determined by their facts.
-/
theorem Sized.ext_testBit {left right : Table} {count width : Nat}
    (sizedLeft : left.Sized count width) (sizedRight : right.Sized count width)
    (same : ∀ node bit, left.testBit node bit = right.testBit node bit)
    : left = right := by
  have widths : left.width = right.width := sizedLeft.width_eq.trans sizedRight.width_eq.symm
  have sizes : left.words.size = right.words.size := sizedLeft.size_eq.trans sizedRight.size_eq.symm
  have words : left.words.toList = right.words.toList := by
    apply List.ext_getElem?
    intro position
    by_cases stored : position < count * width
    · have positive : 0 < width := Nat.pos_of_ne_zero fun zero => by simp [zero] at stored
      have inside : position / width < count := Nat.div_lt_of_lt_mul (by rwa [Nat.mul_comm])
      obtain ⟨row, foundLeft, foundRight⟩ :=
        sizedLeft.row_eq_row sizedRight inside inside (same (position / width))
      have split : position = position / width * width + position % width :=
        (Nat.div_add_mod' position width).symm
      rw [split, sizedLeft.getElem?_words foundLeft (Nat.mod_lt position positive),
        sizedRight.getElem?_words foundRight (Nat.mod_lt position positive)]
    · have beyondLeft : left.words.toList.length ≤ position := by
        rw [Array.length_toList, sizedLeft.size_eq]
        omega
      have beyondRight : right.words.toList.length ≤ position := by
        rw [Array.length_toList, sizedRight.size_eq]
        omega
      rw [List.getElem?_eq_none beyondLeft, List.getElem?_eq_none beyondRight]
  cases left
  cases right
  simp only [Table.mk.injEq]
  exact ⟨widths, Array.toList_inj.mp words⟩

end Table

end Dataflow
