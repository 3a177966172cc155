import Dataflow.Fault

/-! Facts packed into rows of 32-bit words, least significant word first. The view of a row is
`Row.testBit`: fact `bit` sits at position `bit % 32` of word `bit / 32`. The last word may hold
positions past the declared width; they are storage like any other.
-/

namespace Dataflow

/-- A machine word of facts. -/
abbrev Word := BitVec 32

/-- The number of facts that one word holds. -/
def wordBits : Nat := 32

/-- The number of words that hold `bits` facts. -/
def wordsFor (bits : Nat) : Nat :=
  (bits + (wordBits - 1)) / wordBits

namespace Word

/-- The positions set in a word, in increasing order. -/
def setPositions (word : Word) : List Nat :=
  (List.range wordBits).filter word.getLsbD

/-- The positions that are not set in a word. This is `~~~word`, written so that the word of all
positions is made once and not for every word.
-/
def complement (word : Word) : Word :=
  BitVec.allOnes 32 ^^^ word

@[simp]
theorem complement_eq_not (word : Word) : complement word = ~~~word :=
  BitVec.allOnes_xor

/-- The word without the lowest position that is set in it. -/
def withoutLowest (word : Word) : Word :=
  word &&& (word - 1)

theorem toNat_sub_one {word : Word} (nonzero : word ≠ 0) : (word - 1).toNat = word.toNat - 1 := by
  have positive : word.toNat ≠ 0 := fun zero => nonzero (BitVec.eq_of_toNat_eq zero)
  exact BitVec.toNat_sub_of_le (BitVec.le_def.mpr (Nat.pos_of_ne_zero positive))

/-- Taking the lowest position out makes the word smaller, since the word less one is an upper
bound.
-/
theorem toNat_withoutLowest_lt {word : Word} (nonzero : word ≠ 0)
    : (withoutLowest word).toNat < word.toNat := by
  have positive : word.toNat ≠ 0 := fun zero => nonzero (BitVec.eq_of_toNat_eq zero)
  have bound : (withoutLowest word).toNat ≤ word.toNat - 1 := by
    rw [withoutLowest, BitVec.toNat_and, toNat_sub_one nonzero]
    exact Nat.and_le_right
  omega

end Word

/-- The facts of one node, packed into words. -/
abbrev Row := List Word

namespace Row

/-- Whether a fact is in the row; false past the last word. -/
def testBit (row : Row) (bit : Nat) : Bool :=
  (row[bit / wordBits]?).any fun word => word.getLsbD (bit % wordBits)

/-- Add one fact to a row. Any position within the stored words is accepted. -/
def setBit (row : Row) (bit : Nat) : Except Fault Row :=
  if bit / wordBits < row.length then
    .ok (row.modify (bit / wordBits) (· ||| BitVec.twoPow 32 (bit % wordBits)))
  else
    .error .indexOutOfRange

/-- The facts of the words from position `base` on, in increasing order. -/
def bitsFrom (base : Nat) : Row → List Nat
  | [] => []
  | word :: rest => (Word.setPositions word).map (base + ·) ++ bitsFrom (base + wordBits) rest

/-- The facts in the row, in increasing order. -/
def bits (row : Row) : List Nat :=
  bitsFrom 0 row

/-- Setting a bit keeps the number of words. -/
theorem length_of_setBit {row result : Row} {bit : Nat} (h : row.setBit bit = .ok result)
    : result.length = row.length := by
  unfold setBit at h
  split at h
  · cases h
    simp
  · cases h

/-- Setting a bit adds exactly that fact, by comparing the two words that hold the positions. -/
theorem testBit_of_setBit {row result : Row} {bit : Nat} (h : row.setBit bit = .ok result)
    (tested : Nat)
    : result.testBit tested = (row.testBit tested || decide (tested = bit)) := by
  unfold setBit at h
  split at h
  case isFalse => cases h
  case isTrue stored =>
    cases h
    unfold testBit
    rw [List.getElem?_modify]
    by_cases sameWord : bit / wordBits = tested / wordBits
    · have sameBit : tested % wordBits = bit % wordBits ↔ tested = bit := by
        unfold wordBits at *
        omega
      have bounded : bit % wordBits < 32 := Nat.mod_lt bit (by decide)
      rw [← sameWord, List.getElem?_eq_getElem stored]
      simp [← sameBit, eq_comm, bounded]
    · have distinct : tested ≠ bit := fun same => sameWord (same ▸ rfl)
      simp [sameWord, distinct]

/-- The positions listed for a word are those set in it; no position past the word is set. -/
theorem mem_setPositions {word : Word} {position : Nat}
    : position ∈ Word.setPositions word ↔ word.getLsbD position = true := by
  simp only [Word.setPositions, List.mem_filter, List.mem_range]
  constructor
  · exact fun listed => listed.2
  · exact fun set => ⟨BitVec.lt_of_getLsbD set, set⟩

/-- The facts listed from a base are the facts of the row moved up by it, by induction on the
words.
-/
theorem mem_bitsFrom {row : Row} {base bit : Nat}
    : bit ∈ bitsFrom base row ↔ ∃ fact, bit = base + fact ∧ row.testBit fact = true := by
  induction row generalizing base with
  | nil => simp [bitsFrom, testBit]
  | cons word rest ih =>
      simp only [bitsFrom, List.mem_append, List.mem_map, mem_setPositions, ih]
      constructor
      · rintro (⟨position, set, rfl⟩ | ⟨fact, rfl, set⟩)
        · have inside : position < wordBits := BitVec.lt_of_getLsbD set
          refine ⟨position, rfl, ?_⟩
          simp [testBit, Nat.div_eq_of_lt inside, Nat.mod_eq_of_lt inside, set]
        · refine ⟨wordBits + fact, by omega, ?_⟩
          have next : (wordBits + fact) / wordBits = fact / wordBits + 1 := by
            unfold wordBits
            omega
          have same : (wordBits + fact) % wordBits = fact % wordBits := by simp
          simpa only [testBit, next, same, List.getElem?_cons_succ] using set
      · rintro ⟨fact, rfl, set⟩
        by_cases inside : fact < wordBits
        · refine .inl ⟨fact, ?_, rfl⟩
          simpa [testBit, Nat.div_eq_of_lt inside, Nat.mod_eq_of_lt inside] using set
        · obtain ⟨lower, rfl⟩ := Nat.exists_eq_add_of_le (Nat.le_of_not_lt inside)
          refine .inr ⟨lower, by omega, ?_⟩
          have next : (wordBits + lower) / wordBits = lower / wordBits + 1 := by
            unfold wordBits
            omega
          have same : (wordBits + lower) % wordBits = lower % wordBits := by simp
          simpa only [testBit, next, same, List.getElem?_cons_succ] using set

/-- The facts listed for a row are those in it. -/
theorem mem_bits {row : Row} {bit : Nat} : bit ∈ row.bits ↔ row.testBit bit = true := by
  simp [bits, mem_bitsFrom]

/-- The facts listed from a base increase strictly: those of a word stay below those of the words
after it.
-/
theorem pairwise_bitsFrom (row : Row) (base : Nat) : (bitsFrom base row).Pairwise (· < ·) := by
  induction row generalizing base with
  | nil => exact .nil
  | cons word rest ih =>
      refine List.pairwise_append.mpr ⟨?_, ih _, ?_⟩
      · exact List.pairwise_map.mpr
          ((List.pairwise_lt_range.filter _).imp fun increasing => Nat.add_lt_add_left increasing _)
      · intro low inWord high inRest
        obtain ⟨position, set, rfl⟩ := List.mem_map.mp inWord
        obtain ⟨fact, rfl, _⟩ := mem_bitsFrom.mp inRest
        have inside : position < wordBits := BitVec.lt_of_getLsbD (mem_setPositions.mp set)
        omega

/-- The facts of a row are listed in strictly increasing order. -/
theorem pairwise_bits (row : Row) : row.bits.Pairwise (· < ·) :=
  pairwise_bitsFrom row 0

end Row

end Dataflow
