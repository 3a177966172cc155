import Dataflow.Bits.Row
import Mathlib.Algebra.Group.Nat.Defs

/-! The positions of a word, from the lowest up. The number of trailing zeros of a word is its
lowest position, and the word combined with its predecessor has lost just this one, so taking the
lowest position out again and again lists all positions in increasing order.
-/

namespace Dataflow.Word

/-- Taking one from a number clears its lowest set position and sets all positions below. -/
theorem testBit_sub_one {number lowest : Nat} (set : number.testBit lowest = true)
    (clear : ∀ position < lowest, number.testBit position = false) (position : Nat)
    : (number.testBit position && (number - 1).testBit position)
      = (number.testBit position && decide (position ≠ lowest)) := by
  have rest : number % 2 ^ (lowest + 1) = 2 ^ lowest := by
    apply Nat.eq_of_testBit_eq
    intro other
    rw [Nat.testBit_mod_two_pow, Nat.testBit_two_pow]
    rcases Nat.lt_trichotomy other lowest with below | rfl | above
    · simp [clear other below, Nat.ne_of_gt below]
    · simp [set]
    · simp [Nat.not_lt.mpr above, Nat.ne_of_lt above]
  have whole := Nat.div_add_mod number (2 ^ (lowest + 1))
  rw [rest] at whole
  have less : number - 1 = 2 ^ (lowest + 1) * (number / 2 ^ (lowest + 1)) + (2 ^ lowest - 1) := by
    have := Nat.two_pow_pos lowest
    omega
  have bound : 2 ^ lowest < 2 ^ (lowest + 1) := Nat.pow_lt_pow_succ (Nat.lt_succ_self 1)
  have fits : 2 ^ lowest - 1 < 2 ^ (lowest + 1) := by omega
  rcases Nat.lt_trichotomy position lowest with below | rfl | above
  · rw [clear position below, Bool.false_and, Bool.false_and]
  · rw [less, Nat.testBit_two_pow_mul_add _ fits, if_pos (Nat.lt_succ_self _),
      Nat.testBit_two_pow_sub_one]
    simp
  · have high : ¬position < lowest + 1 := Nat.not_lt.mpr above
    have same : number.testBit position = (number - 1).testBit position := by
      rw [less, Nat.testBit_two_pow_mul_add _ fits, if_neg high]
      rw [← whole, Nat.testBit_two_pow_mul_add _ bound, if_neg high, whole]
    rw [← same, Bool.and_self, decide_eq_true (Nat.ne_of_gt above), Bool.and_true]

/-- Only the lowest position is lost, since the predecessor agrees with the word on those above. -/
theorem getLsbD_withoutLowest {word : Word} (nonzero : word ≠ 0) (position : Nat)
    : (withoutLowest word).getLsbD position
      = (word.getLsbD position && decide (position ≠ word.ctz.toNat)) := by
  rw [withoutLowest, BitVec.getLsbD_and]
  simp only [BitVec.getLsbD, toNat_sub_one nonzero]
  exact testBit_sub_one (BitVec.getLsbD_true_ctz_of_ne_zero nonzero)
    (fun _ => BitVec.getLsbD_false_of_lt_ctz) position

/-- The positions of a word are its lowest one and those that are left without it. Below the
lowest no position is set in either word, and above it the same ones are.
-/
theorem setPositions_eq_cons {word : Word} (nonzero : word ≠ 0)
    : setPositions word = word.ctz.toNat :: setPositions (withoutLowest word) := by
  have set : word.getLsbD word.ctz.toNat = true := BitVec.getLsbD_true_ctz_of_ne_zero nonzero
  have inside : word.ctz.toNat < wordBits := BitVec.lt_of_getLsbD set
  have law := getLsbD_withoutLowest nonzero
  have clear : ∀ position < word.ctz.toNat, word.getLsbD position = false :=
    fun _ => BitVec.getLsbD_false_of_lt_ctz
  generalize word.ctz.toNat = lowest at *
  obtain ⟨above, count⟩ := Nat.exists_eq_add_of_lt inside
  have split : List.range wordBits
      = List.range lowest ++ lowest :: List.range' (lowest + 1) above := by
    rw [count, List.range_eq_range', Nat.add_assoc, ← List.range'_append_1, List.range'_succ,
      ← List.range_eq_range', Nat.zero_add]
  have none : ∀ other : Word, (∀ position < lowest, other.getLsbD position = false)
      → (List.range lowest).filter other.getLsbD = [] := by
    intro other clear
    apply List.filter_eq_nil_iff.mpr
    intro position listed
    simp [clear position (List.mem_range.mp listed)]
  have cleared : (withoutLowest word).getLsbD lowest = false := by simp [law]
  rw [setPositions, setPositions, split, List.filter_append, List.filter_append, none word clear,
    none _ (fun position below => by simp [law, clear position below]),
    List.filter_cons_of_pos set, List.filter_cons_of_neg (by simp [cleared]), List.nil_append,
    List.nil_append]
  congr 1
  apply List.filter_congr
  intro position listed
  have other : position ≠ lowest := by
    have := (List.mem_range'_1.mp listed).1
    omega
  simp [law, other]

end Dataflow.Word
