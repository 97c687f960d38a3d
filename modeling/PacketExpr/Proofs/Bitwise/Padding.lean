import PacketExpr.Proofs.Bitwise.Boolean
import PacketExpr.Proofs.Bitwise.Shift
import Mathlib.Order.Interval.Finset.Nat

/-!
# Padding does not reach values

The padding of a partial last word is no part of a value.  Two register files hold the same value if
they differ at most in what pads it, and then evaluation leaves the same value in both of them.
This holds wherever the destination overlaps the registers that are read: what evaluation reads back
of its own results has been made of values too.

The proofs compare two evaluations word by word, each in its own order, and show for every word that
all words written before it are the same.
-/

namespace PacketExpr

section

variable {length offset : Nat} {word : UInt32}

theorem and_xor_and (first second flip mask : UInt32) :
    ((first &&& second) ^^^ flip) &&& mask =
      ((first &&& mask) &&& (second &&& mask)) ^^^ (flip &&& mask) := by
  apply UInt32.toBitVec_inj.mp
  ext bit
  simp
  grind

theorem or_and_mask (first second mask : UInt32) :
    (first ||| second) &&& mask = (first &&& mask) ||| (second &&& mask) := by
  apply UInt32.toBitVec_inj.mp
  ext bit
  simp
  grind

/-- All of the bits of a word count, unless it is the last one. -/
theorem and_valueMask_of_ne (word : UInt32) (notLast : offset + 1 ≠ wordCount length) :
    word &&& Bitwise.valueMask length offset = word := by
  rw [Bitwise.valueMask, if_neg notLast]
  exact UInt32.and_neg_one

/-- Only the last word of a value has padding, so the others are kept as a whole. -/
theorem eq_of_and_valueMask_eq {other : UInt32} (notLast : offset + 1 ≠ wordCount length)
    (same : word &&& Bitwise.valueMask length offset = other &&& Bitwise.valueMask length offset) :
    word = other := by
  rwa [and_valueMask_of_ne _ notLast, and_valueMask_of_ne _ notLast] at same

/-- Without its padding, the last word is rounded down to whole bytes of the value. -/
theorem toNat_and_valueMask (word : UInt32) (isLast : offset + 1 = wordCount length) :
    (word &&& Bitwise.valueMask length offset).toNat =
      word.toNat / 256 ^ (paddedSize length - length) * 256 ^ (paddedSize length - length) := by
  rw [Bitwise.valueMask, if_pos isLast, toNat_and_lastWordMask]

/-- What a right shift leaves of the value comes from the value, not from the padding behind it. -/
theorem shiftRight_and_valueMask_congr {amount : Nat} (amount_lt : amount < 32) {other : UInt32}
    (same : word &&& Bitwise.valueMask length offset = other &&& Bitwise.valueMask length offset) :
    (word >>> UInt32.ofNat amount) &&& Bitwise.valueMask length offset =
      (other >>> UInt32.ofNat amount) &&& Bitwise.valueMask length offset := by
  by_cases isLast : offset + 1 = wordCount length
  · have weight_pos : 0 < 256 ^ (paddedSize length - length) := Nat.pow_pos (by decide)
    have sameValue := congrArg UInt32.toNat same
    rw [toNat_and_valueMask _ isLast, toNat_and_valueMask _ isLast] at sameValue
    have sameQuotient := Nat.eq_of_mul_eq_mul_right weight_pos sameValue
    apply UInt32.toNat_inj.mp
    rw [toNat_and_valueMask _ isLast, toNat_and_valueMask _ isLast, toNat_shiftRight _ amount_lt,
      toNat_shiftRight _ amount_lt, Nat.div_right_comm, sameQuotient, Nat.div_right_comm]
  · rw [eq_of_and_valueMask_eq isLast same]

/-- A left shift moves no bit of the value into the padding. -/
theorem shiftLeft_and_valueMask {amount : Nat} (amount_lt : amount < 32) (word : UInt32)
    (length offset : Nat) :
    ((word &&& Bitwise.valueMask length offset) <<< UInt32.ofNat amount) &&&
        Bitwise.valueMask length offset =
      (word &&& Bitwise.valueMask length offset) <<< UInt32.ofNat amount := by
  by_cases isLast : offset + 1 = wordCount length
  · have divides : 256 ^ (paddedSize length - length) ∣ 2 ^ 32 := by
      have weight : 256 ^ (paddedSize length - length) =
          2 ^ (8 * (paddedSize length - length)) := (pow_mul 2 8 _).symm
      rw [weight]
      apply Nat.pow_dvd_pow
      simp only [paddedSize]
      omega
    apply UInt32.toNat_inj.mp
    rw [toNat_and_valueMask _ isLast, toNat_shiftLeft _ amount_lt, toNat_and_valueMask _ isLast]
    apply Nat.div_mul_cancel
    rw [Nat.dvd_mod_iff divides]
    exact Dvd.dvd.mul_right (Nat.dvd_mul_left ..) _
  · rw [and_valueMask_of_ne word isLast, and_valueMask_of_ne _ isLast]

end

namespace RegisterFile

/-- Two files hold the same value of `size` bytes at a register, whatever pads its last word. -/
def SameValue (first second : RegisterFile) (register : Register) (size : Nat) : Prop :=
  ∀ offset < wordCount size,
    first.word (register.word + offset) &&& Bitwise.valueMask size offset =
      second.word (register.word + offset) &&& Bitwise.valueMask size offset

variable {first second file : RegisterFile} {register : Register} {size : Nat}

theorem bytesAt_eq_iff_sameValue :
    first.bytesAt register size = second.bytesAt register size ↔
      first.SameValue second register size := by
  have weight_pos : 0 < 256 ^ (paddedSize size - size) := Nat.pow_pos (by decide)
  have number (file : RegisterFile) :
      bigEndian (fun offset => file.word (register.word + offset) &&&
        Bitwise.valueMask size offset) (wordCount size) =
          Bytes.toNat (file.bytesAt register size) * 256 ^ (paddedSize size - size) := by
    rw [toNat_bytesAt, ← bigEndian_valueMask]
  constructor
  · intro sameBytes
    apply eq_of_bigEndian_eq
    rw [number, number, sameBytes]
  · intro sameValue
    apply Bytes.eq_of_toNat_eq
    · simp
    · apply Nat.eq_of_mul_eq_mul_right weight_pos
      rw [← number, ← number]
      exact bigEndian_congr sameValue

/-- Words without a bit outside of the value have zero bytes behind it. -/
theorem padding_eq_zero
    (clear : ∀ offset < wordCount size, file.word (register.word + offset) &&&
      Bitwise.valueMask size offset = file.word (register.word + offset)) :
    (file.bytesAt register (paddedSize size)).drop size =
      List.replicate (paddedSize size - size) 0 := by
  have value_lt := Bytes.toNat_lt (file.bytesAt register size)
  rw [length_bytesAt] at value_lt
  have denotes : bigEndian (fun offset => file.word (register.word + offset)) (wordCount size) =
      Bytes.toNat (file.bytesAt register size) * 256 ^ (paddedSize size - size) := by
    rw [toNat_bytesAt, ← bigEndian_valueMask]
    apply bigEndian_congr
    intro offset offset_lt
    exact (clear offset offset_lt).symm
  exact Bitwise.padding_bytesAt_eq (bytesAt_paddedSize_eq value_lt denotes)

end RegisterFile

namespace Bitwise

variable {expression : Bitwise} {first second : RegisterFile} {amount : Nat}

/-- The registers that evaluation reads. -/
def reads (expression : Bitwise) : List Register :=
  expression.source :: expression.transform.registers

/-- What an operand gives in some turn is the same up to the padding, be it read before it is
overwritten or after. -/
theorem operandRead_and_valueMask {after otherAfter : RegisterFile} {operand : Operand}
    {offset : Nat} (same : ∀ place ∈ operand.register?,
      first.SameValue second place expression.length)
    (offset_lt : offset < wordCount expression.length)
    (written : ∀ earlier < offset, after.word (expression.destination.word + earlier) =
      otherAfter.word (expression.destination.word + earlier)) :
    expression.operandRead first after operand offset &&& valueMask expression.length offset =
      expression.operandRead second otherAfter operand offset &&&
        valueMask expression.length offset := by
  cases operand with
  | immediate value => rfl
  | register place =>
      exact RegisterFile.view_word_congr (· &&& valueMask expression.length offset)
        (same place rfl offset offset_lt) written

/-- A boolean transform works on each bit by itself, so no bit of the padding comes into the
value. -/
theorem sameValue_run_boolean {mask xor : Operand}
    (isBoolean : expression.transform = .boolean mask xor) (packed : expression.Packed)
    (length_le : expression.length ≤ 255) (fits : expression.fits first = true)
    (fitsSecond : expression.fits second = true)
    (same : ∀ place ∈ expression.reads, first.SameValue second place expression.length) :
    (expression.run first).SameValue (expression.run second) expression.destination
      expression.length := by
  have sameSource : ∀ place ∈ (Operand.register expression.source).register?,
      first.SameValue second place expression.length := by
    rintro _ ⟨rfl⟩
    exact same _ List.mem_cons_self
  have sameOperand {operand : Operand} (operand_mem : operand ∈ [mask, xor]) :
      ∀ place ∈ operand.register?, first.SameValue second place expression.length := by
    intro place isRegister
    apply same
    simp only [reads, isBoolean]
    exact List.mem_cons_of_mem _
      (Transform.mem_registers_iff.mpr ⟨operand, operand_mem, isRegister⟩)
  intro offset
  induction offset using Nat.strong_induction_on with
  | _ offset ih =>
      intro offset_lt
      have written : ∀ earlier < offset,
          (expression.run first).word (expression.destination.word + earlier) =
            (expression.run second).word (expression.destination.word + earlier) := by
        intro earlier earlier_lt
        exact eq_of_and_valueMask_eq (by omega) (ih earlier earlier_lt (by omega))
      have inside := fits_iff.mp fits _ expression.destination_mem_registers
      have insideSecond := fits_iff.mp fitsSecond _ expression.destination_mem_registers
      rw [word_run_boolean isBoolean packed length_le inside offset_lt,
        word_run_boolean isBoolean packed length_le insideSecond offset_lt, and_xor_and,
        and_xor_and, operandRead_and_valueMask sameSource offset_lt written,
        operandRead_and_valueMask (sameOperand (by simp)) offset_lt written,
        operandRead_and_valueMask (sameOperand (by simp)) offset_lt written]

/-- A word of a left shift depends on the value and on the words behind it, which are written first;
so the induction is on what lies behind a word. -/
theorem word_run_shiftLeft_eq (isShift : expression.transform = .shiftLeft amount)
    (fits : expression.fits first = true) (fitsSecond : expression.fits second = true)
    (same : first.SameValue second expression.source expression.length) :
    ∀ offset < wordCount expression.length,
      (expression.run first).word (expression.destination.word + offset) =
        (expression.run second).word (expression.destination.word + offset) := by
  have inside := fits_iff.mp fits _ expression.destination_mem_registers
  have insideSecond := fits_iff.mp fitsSecond _ expression.destination_mem_registers
  intro offset
  induction offset using Nat.strong_decreasing_induction with
  | base =>
      refine ⟨wordCount expression.length, ?_⟩
      intro offset behind offset_lt
      omega
  | step offset ih =>
      intro offset_lt
      have sameRead : ∀ position, offset ≤ position → position < wordCount expression.length →
          expression.shiftLeftRead first (expression.run first) position =
            expression.shiftLeftRead second (expression.run second) position := by
        intro position position_ge position_lt
        apply shiftLeftRead_congr (same position position_lt)
        intro later later_gt later_lt
        exact ih later (by omega) later_lt
      rw [word_run_shiftLeft isShift inside offset_lt,
        word_run_shiftLeft isShift insideSecond offset_lt,
        sameRead offset (Nat.le_refl _) offset_lt]
      by_cases isLast : offset + 1 = wordCount expression.length
      · rw [if_pos isLast, if_pos isLast]
      · rw [if_neg isLast, if_neg isLast, sameRead (offset + 1) (Nat.le_succ _) (by omega)]

/-- A word of a right shift depends on the value and on the words in front, which are written
first. -/
theorem word_run_shiftRight_eq (amount_lt : amount < 32)
    (isShift : expression.transform = .shiftRight amount)
    (fits : expression.fits first = true) (fitsSecond : expression.fits second = true)
    (same : first.SameValue second expression.source expression.length) :
    ∀ offset < wordCount expression.length,
      (expression.run first).word (expression.destination.word + offset) =
        (expression.run second).word (expression.destination.word + offset) := by
  have inside := fits_iff.mp fits _ expression.destination_mem_registers
  have insideSecond := fits_iff.mp fitsSecond _ expression.destination_mem_registers
  intro offset
  induction offset using Nat.strong_induction_on with
  | _ offset ih =>
      intro offset_lt
      have sameRead : ∀ position ≤ offset,
          expression.shiftRightRead first (expression.run first) position &&&
              valueMask expression.length position =
            expression.shiftRightRead second (expression.run second) position &&&
              valueMask expression.length position := by
        intro position position_le
        apply shiftRightRead_congr (· &&& valueMask expression.length position)
          (same position (by omega))
        intro earlier earlier_lt
        exact ih earlier (by omega) (by omega)
      rw [word_run_shiftRight isShift inside offset_lt,
        word_run_shiftRight isShift insideSecond offset_lt, or_and_mask, or_and_mask,
        shiftRight_and_valueMask_congr amount_lt (sameRead offset (Nat.le_refl _))]
      by_cases isFirst : offset = 0
      · rw [if_pos isFirst, if_pos isFirst]
      · have notLast : offset - 1 + 1 ≠ wordCount expression.length := by omega
        have readBefore := eq_of_and_valueMask_eq notLast (sameRead (offset - 1) (Nat.sub_le ..))
        rw [if_neg isFirst, if_neg isFirst, readBefore]

/-- Whatever the transform, the value that is written depends on the values that are read and not on
their padding. -/
theorem sameValue_run {layout : Layout} (placed : expression.WellPlaced layout)
    (packed : expression.Packed) (fits : expression.fits first = true)
    (fitsSecond : expression.fits second = true)
    (same : ∀ place ∈ expression.reads, first.SameValue second place expression.length) :
    (expression.run first).SameValue (expression.run second) expression.destination
      expression.length := by
  have sameSource := same expression.source List.mem_cons_self
  cases transform_eq : expression.transform with
  | boolean mask xor =>
      exact sameValue_run_boolean transform_eq packed placed.length_le fits fitsSecond same
  | shiftLeft amount =>
      intro offset offset_lt
      rw [word_run_shiftLeft_eq transform_eq fits fitsSecond sameSource offset offset_lt]
  | shiftRight amount =>
      have amount_lt := placed.amount amount (by rw [transform_eq]; rfl)
      intro offset offset_lt
      rw [word_run_shiftRight_eq amount_lt transform_eq fits fitsSecond sameSource offset offset_lt]

/-- A shift leaves no bit behind the value. -/
theorem word_run_and_valueMask {layout : Layout} (placed : expression.WellPlaced layout)
    (isAmount : expression.transform.amount? = some amount) {file : RegisterFile}
    (fits : expression.fits file = true) {offset : Nat}
    (offset_lt : offset < wordCount expression.length) :
    (expression.run file).word (expression.destination.word + offset) &&&
        valueMask expression.length offset =
      (expression.run file).word (expression.destination.word + offset) := by
  have amount_lt := placed.amount amount isAmount
  have inside := fits_iff.mp fits _ expression.destination_mem_registers
  cases transform_eq : expression.transform with
  | boolean mask xor =>
      rw [transform_eq] at isAmount
      cases isAmount
  | shiftLeft shift =>
      rw [transform_eq] at isAmount
      cases isAmount
      by_cases isLast : offset + 1 = wordCount expression.length
      · rw [word_run_shiftLeft transform_eq inside offset_lt, if_pos isLast, UInt32.or_zero]
        exact shiftLeft_and_valueMask amount_lt _ _ _
      · exact and_valueMask_of_ne _ isLast
  | shiftRight shift =>
      rw [word_run_shiftRight transform_eq inside offset_lt, UInt32.and_assoc, UInt32.and_self]

/-- Evaluation leaves the same value in two files in which the registers that it reads hold the same
values, however the files differ elsewhere; and a shift leaves zero bytes behind the value. -/
theorem eval_ignores_padding {layout : Layout} {table : AttributeTable}
    (accepted : ofTable layout table = .ok expression)
    (sameCapacity : first.capacity = second.capacity) (fits : expression.fits first = true)
    (agree : ∀ place ∈ expression.reads,
      first.bytesAt place expression.length = second.bytesAt place expression.length) :
    let length := expression.length
    let destination := expression.destination
    (expression.eval first).bytesAt destination length =
        (expression.eval second).bytesAt destination length ∧
      (expression.transform.operation ≠ .boolean → ∀ file ∈ [first, second],
        ((expression.eval file).bytesAt destination (paddedSize length)).drop length =
          List.replicate (paddedSize length - length) 0) := by
  intro length destination
  have describes := ofTable_eq_ok_iff.mp accepted
  have placed := describes.wellPlaced
  have fitsSecond : expression.fits second = true := fits_congr sameCapacity.symm fits
  constructor
  · rw [eval_of_fits fits, eval_of_fits fitsSecond, RegisterFile.bytesAt_eq_iff_sameValue]
    apply sameValue_run placed describes.packed fits fitsSecond
    intro place place_mem
    exact RegisterFile.bytesAt_eq_iff_sameValue.mp (agree place place_mem)
  · intro isShift file file_mem
    have fitsFile : expression.fits file = true := by
      simp only [List.mem_cons, List.not_mem_nil, or_false] at file_mem
      rcases file_mem with rfl | rfl
      · exact fits
      · exact fitsSecond
    rw [eval_of_fits fitsFile]
    apply RegisterFile.padding_eq_zero
    intro offset offset_lt
    cases transform_eq : expression.transform with
    | boolean mask xor => simp [transform_eq, Transform.operation] at isShift
    | shiftLeft amount =>
        exact word_run_and_valueMask placed (by rw [transform_eq]; rfl) fitsFile offset_lt
    | shiftRight amount =>
        exact word_run_and_valueMask placed (by rw [transform_eq]; rfl) fitsFile offset_lt

/-- Seven bytes, shifted one word down over themselves against the order of the turns, in two files
that differ in the verdict, in the old destination and in all padding. -/
theorem eval_ignores_padding_overlapping :
    let shift : Bitwise := ⟨⟨5⟩, ⟨4⟩, 7, .shiftLeft 5⟩
    let first : RegisterFile := ⟨#[0, 0, 0, 0, 0x11111111, 0x01234567, 0x89ABCD00, 0]⟩
    let second : RegisterFile := ⟨#[9, 0, 0, 0, 0x22222222, 0x01234567, 0x89ABCDFF, 7]⟩
    first.bytesAt ⟨5⟩ 7 = second.bytesAt ⟨5⟩ 7 ∧
      (shift.eval first).bytesAt ⟨4⟩ 7 = (shift.eval second).bytesAt ⟨4⟩ 7 ∧
      ((shift.eval second).bytesAt ⟨4⟩ 8).drop 7 = [0] := by
  intro shift first second
  have accepted : ofTable ⟨8, by decide, by decide⟩
      ⟨#[none, some [0, 0, 0, 9], some [0, 0, 0, 8], some [0, 0, 0, 7], none, none,
        some [0, 0, 0, 1], some [0, 8, 0, 1, 0, 0, 0, 5]]⟩ = .ok shift := by
    decide +kernel
  have sameSource : first.bytesAt ⟨5⟩ 7 = second.bytesAt ⟨5⟩ 7 := by decide
  have agree : ∀ place ∈ shift.reads, first.bytesAt place 7 = second.bytesAt place 7 := by
    intro place place_mem
    rw [List.mem_singleton.mp place_mem]
    exact sameSource
  have sameCapacity : first.capacity = second.capacity := rfl
  have fits : shift.fits first = true := by decide
  rcases eval_ignores_padding accepted sameCapacity fits agree with ⟨sameResult, cleared⟩
  have padding := cleared (by decide) second (by simp)
  have size : paddedSize shift.length = 8 := by decide
  rw [size] at padding
  exact ⟨sameSource, sameResult, padding⟩

end Bitwise

end PacketExpr
