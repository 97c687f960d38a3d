import PacketExpr.Proofs.Bitwise.Locality
import Mathlib.Order.Interval.Finset.Nat

/-!
# Shifts that run into themselves

A shift may write words that it has still to read.  What it has moved is then moved again, while the
bits that go from one word to the next still come from what was read before.  At each offset
`Bitwise.shiftLeftRead` and `Bitwise.shiftRightRead` tell which word is read: the new one where the
shift has already been, and the old one everywhere else.

`ShiftedLeft` and `ShiftedRight` give the words after a shift as numbers.  The file that they
describe stands on both sides of their equations.  But a left shift makes every word from words
behind it, and a right shift from words in front of it, so no word depends on itself.  The equations
have only one solution, which is the file that evaluation leaves.
-/

namespace PacketExpr

open RegisterFile (AgreeOn)

/-- The mask for the last word has all bits apart from those of the padding. -/
theorem toNat_lastWordMask (length : Nat) :
    (lastWordMask length).toNat = 2 ^ 32 - 256 ^ (paddedSize length - length) := by
  have ones : (0xFFFFFFFF : UInt32) &&& lastWordMask length = lastWordMask length :=
    UInt32.neg_one_and
  have cleared := toNat_and_lastWordMask 0xFFFFFFFF length
  have padding_lt : paddedSize length - length < 4 := by
    simp only [paddedSize]
    omega
  rw [ones] at cleared
  rw [cleared]
  generalize paddedSize length - length = padding at padding_lt
  obtain rfl | rfl | rfl | rfl : padding = 0 ∨ padding = 1 ∨ padding = 2 ∨ padding = 3 := by omega
  all_goals rfl

namespace Bitwise

variable {expression : Bitwise} {amount offset : Nat} {before first second : RegisterFile}

/-- The file after a left shift.  Each word of the destination has the bits of the word that is read
for it, and below them those that leave the word that is read behind it. -/
structure ShiftedLeft (expression : Bitwise) (amount : Nat) (before after : RegisterFile) :
    Prop where
  frame : AgreeOn expression.writtenExtentᶜ after before
  words : ∀ offset < wordCount expression.length,
    (after.word (expression.destination.word + offset)).toNat =
      (expression.shiftLeftRead before after offset).toNat * 2 ^ amount % 2 ^ 32 |||
        if offset + 1 = wordCount expression.length then 0
        else (expression.shiftLeftRead before after (offset + 1)).toNat / 2 ^ (32 - amount)

/-- The file after a right shift.  Each word of the destination has the bits of the word that is
read for it, and above them those that leave the word that is read in front of it. -/
structure ShiftedRight (expression : Bitwise) (amount : Nat) (before after : RegisterFile) :
    Prop where
  frame : AgreeOn expression.writtenExtentᶜ after before
  words : ∀ offset < wordCount expression.length,
    (after.word (expression.destination.word + offset)).toNat =
      ((if offset = 0 then 0
        else (expression.shiftRightRead before after (offset - 1)).toNat * 2 ^ (32 - amount) %
          2 ^ 32) |||
        (expression.shiftRightRead before after offset).toNat / 2 ^ amount) &&&
        (valueMask expression.length offset).toNat

theorem agreeOn_run_self (fits : expression.fits before = true) :
    AgreeOn expression.writtenExtentᶜ (expression.run before) before := by
  have agree := agreeOn_eval_self expression before
  rwa [eval_of_fits fits] at agree

/-- The words of a left shift follow from those that it reads, whatever it has overwritten. -/
theorem shiftedLeft_run (isShift : expression.transform = .shiftLeft amount)
    (amount_lt : amount < 32) (fits : expression.fits before = true) :
    expression.ShiftedLeft amount before (expression.run before) where
  frame := agreeOn_run_self fits
  words := by
    intro offset offset_lt
    have inside := fits_iff.mp fits _ expression.destination_mem_registers
    rw [word_run_shiftLeft isShift inside offset_lt, UInt32.toNat_or, toNat_shiftLeft _ amount_lt]
    congr 1
    split
    · rfl
    · rw [toNat_carryLeft]

/-- The words of a right shift follow from those that it reads, whatever it has overwritten. -/
theorem shiftedRight_run (isShift : expression.transform = .shiftRight amount)
    (amount_lt : amount < 32) (fits : expression.fits before = true) :
    expression.ShiftedRight amount before (expression.run before) where
  frame := agreeOn_run_self fits
  words := by
    intro offset offset_lt
    have inside := fits_iff.mp fits _ expression.destination_mem_registers
    rw [word_run_shiftRight isShift inside offset_lt, UInt32.toNat_and, UInt32.toNat_or,
      toNat_shiftRight _ amount_lt]
    congr 2
    split
    · rfl
    · rw [toNat_carryRight]

/-- The equations of a left shift have one solution.  They are solved from the last word to the
first, in the order in which the shift writes them. -/
theorem ShiftedLeft.unique (shifted : expression.ShiftedLeft amount before first)
    (other : expression.ShiftedLeft amount before second) : first = second := by
  apply eq_of_agreeOn_of_words shifted.frame other.frame
  intro offset
  induction offset using Nat.strong_decreasing_induction with
  | base =>
      refine ⟨wordCount expression.length, ?_⟩
      intro offset behind offset_lt
      omega
  | step offset ih =>
      intro offset_lt
      have sameRead : ∀ position, offset ≤ position →
          expression.shiftLeftRead before first position =
            expression.shiftLeftRead before second position := by
        intro position position_ge
        apply shiftLeftRead_congr rfl
        intro later later_gt later_lt
        exact ih later (by omega) later_lt
      apply UInt32.toNat_inj.mp
      rw [shifted.words offset offset_lt, other.words offset offset_lt,
        sameRead offset (Nat.le_refl _), sameRead (offset + 1) (Nat.le_succ _)]

/-- The equations of a right shift have one solution.  They are solved from the first word to the
last, in the order in which the shift writes them. -/
theorem ShiftedRight.unique (shifted : expression.ShiftedRight amount before first)
    (other : expression.ShiftedRight amount before second) : first = second := by
  apply eq_of_agreeOn_of_words shifted.frame other.frame
  intro offset
  induction offset using Nat.strong_induction_on with
  | _ offset ih =>
      intro offset_lt
      have sameRead : ∀ position ≤ offset,
          expression.shiftRightRead before first position =
            expression.shiftRightRead before second position := by
        intro position position_le
        apply shiftRightRead_congr id rfl
        intro earlier earlier_lt
        exact ih earlier (by omega) (by omega)
      apply UInt32.toNat_inj.mp
      rw [shifted.words offset offset_lt, other.words offset offset_lt,
        sameRead offset (Nat.le_refl _), sameRead (offset - 1) (Nat.sub_le ..)]

/-- Wherever source and destination lie, a shift leaves the one file whose words follow from those
that are read in the order of the shift, and whose other words are as before. -/
theorem eval_eq_iff_shifted {layout : Layout} {table : AttributeTable}
    (accepted : ofTable layout table = .ok expression) (fits : expression.fits before = true) :
    (lastWordMask expression.length).toNat =
        2 ^ 32 - 256 ^ (paddedSize expression.length - expression.length) ∧
    (∀ amount, expression.transform = .shiftLeft amount → ∀ after,
      expression.eval before = after ↔ expression.ShiftedLeft amount before after) ∧
    ∀ amount, expression.transform = .shiftRight amount → ∀ after,
      expression.eval before = after ↔ expression.ShiftedRight amount before after := by
  refine ⟨toNat_lastWordMask _, ?_, ?_⟩
  · intro amount isShift after
    have amount_lt := wellPlaced_amount_lt accepted (by rw [isShift]; rfl)
    have shifted := shiftedLeft_run isShift amount_lt fits
    rw [eval_of_fits fits]
    constructor
    · rintro rfl
      exact shifted
    · exact shifted.unique
  · intro amount isShift after
    have amount_lt := wellPlaced_amount_lt accepted (by rw [isShift]; rfl)
    have shifted := shiftedRight_run isShift amount_lt fits
    rw [eval_of_fits fits]
    constructor
    · rintro rfl
      exact shifted
    · exact shifted.unique

/-- Eleven bytes are shifted left into the word in front of them, and right into the word behind
them, so that each shift reads the two words that it wrote before. -/
theorem eval_eq_iff_shifted_overlapping :
    let left : Bitwise := ⟨⟨5⟩, ⟨4⟩, 11, .shiftLeft 5⟩
    let right : Bitwise := ⟨⟨4⟩, ⟨5⟩, 11, .shiftRight 5⟩
    let file : RegisterFile :=
      ⟨#[0, 0, 0, 0, 0x01234567, 0x89ABCDEF, 0x76543210, 0x11111111]⟩
    left.ShiftedLeft 5 file (left.eval file) ∧ right.ShiftedRight 5 file (right.eval file) ∧
      ((left.eval file).word 4).toNat =
        ((left.eval file).word 5).toNat * 2 ^ 5 % 2 ^ 32 |||
          ((left.eval file).word 6).toNat / 2 ^ 27 := by
  intro left right file
  have leftAccepted : ofTable ⟨8, by decide, by decide⟩
      ⟨#[none, some [0, 0, 0, 9], some [0, 0, 0, 8], some [0, 0, 0, 11], none, none,
        some [0, 0, 0, 1], some [0, 8, 0, 1, 0, 0, 0, 5]]⟩ = .ok left := by
    decide +kernel
  have rightAccepted : ofTable ⟨8, by decide, by decide⟩
      ⟨#[none, some [0, 0, 0, 8], some [0, 0, 0, 9], some [0, 0, 0, 11], none, none,
        some [0, 0, 0, 2], some [0, 8, 0, 1, 0, 0, 0, 5]]⟩ = .ok right := by
    decide +kernel
  have leftFits : left.fits file = true := by decide
  have rightFits : right.fits file = true := by decide
  have shiftedLeft := ((eval_eq_iff_shifted leftAccepted leftFits).2.1 5 rfl _).mp rfl
  have shiftedRight := ((eval_eq_iff_shifted rightAccepted rightFits).2.2 5 rfl _).mp rfl
  have first := shiftedLeft.words 0 (by decide)
  refine ⟨shiftedLeft, shiftedRight, first.trans ?_⟩
  decide +kernel

end Bitwise

end PacketExpr
