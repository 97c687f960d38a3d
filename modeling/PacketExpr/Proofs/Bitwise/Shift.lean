import PacketExpr.Proofs.Bitwise.Carry
import PacketExpr.Proofs.Bitwise.Placement
import PacketExpr.Proofs.Bitwise.Trace
import PacketExpr.Proofs.Register.Value

/-!
# Shifts of values

A left shift multiplies the value of the source by a power of two, as far as the length allows, and
a right shift divides it.  This holds in place, for registers that do not overlap, and for those
overlaps in which no word is written before it is read: left shifts work from the last word to the
first and may move a value up, right shifts work the other way and may move it down.

The padding of a partial last word takes no part in this: whatever it was in the source, it is zero
in the destination.
-/

namespace PacketExpr

/-- The words of a value have room for its bytes and for those of the padding. -/
theorem two_pow_words_eq (length : Nat) :
    2 ^ (32 * wordCount length) = 256 ^ length * 256 ^ (paddedSize length - length) := by
  have bits : 32 * wordCount length = 8 * paddedSize length := by
    rw [paddedSize_eq_wordCount]
    omega
  rw [← pow_add, Nat.add_sub_cancel' (le_paddedSize length), bits, pow_mul]
  rfl

theorem two_pow_bytes_eq (length : Nat) : 2 ^ (8 * length) = 256 ^ length := by
  rw [pow_mul]
  rfl

namespace Bitwise

variable {expression : Bitwise} {amount : Nat}

theorem wellPlaced_amount_lt {layout : Layout} {table : AttributeTable}
    (accepted : ofTable layout table = .ok expression)
    (isAmount : expression.transform.amount? = some amount) : amount < 32 :=
  (wellPlaced_of_ofTable accepted).amount amount isAmount

/-- Where a destination overlaps its source from behind or not at all, a left shift reads no word
that it has written. -/
theorem shiftLeftRead_eq_of_safe {before after : RegisterFile} {offset : Nat}
    (safe : expression.source.word ≤ expression.destination.word ∨
      expression.destination.word + wordCount expression.length ≤ expression.source.word) :
    expression.shiftLeftRead before after offset =
      before.word (expression.source.word + offset) &&& valueMask expression.length offset := by
  simp only [shiftLeftRead]
  rw [if_neg]
  omega

/-- Where a destination overlaps its source from the front or not at all, a right shift reads no
word that it has written. -/
theorem shiftRightRead_eq_of_safe {before after : RegisterFile} {offset : Nat}
    (safe : expression.destination.word ≤ expression.source.word ∨
      expression.source.word + wordCount expression.length ≤ expression.destination.word)
    (offset_lt : offset < wordCount expression.length) :
    expression.shiftRightRead before after offset =
      before.word (expression.source.word + offset) := by
  simp only [shiftRightRead]
  rw [if_neg]
  omega

/-- The words that a left shift writes are the product, cut to the size of the value, in front of
the padding. -/
theorem bigEndian_run_shiftLeft (amount_lt : amount < 32)
    (isShift : expression.transform = .shiftLeft amount) {file : RegisterFile}
    (fits : expression.fits file = true)
    (safe : expression.source.word ≤ expression.destination.word ∨
      expression.destination.word + wordCount expression.length ≤ expression.source.word) :
    bigEndian (fun offset => (expression.run file).word (expression.destination.word + offset))
        (wordCount expression.length) =
      Bytes.toNat (file.bytesAt expression.source expression.length) * 2 ^ amount %
          2 ^ (8 * expression.length) *
        256 ^ (paddedSize expression.length - expression.length) := by
  let read := expression.shiftLeftRead file (expression.run file)
  have shifted : bigEndian
      (fun offset => (expression.run file).word (expression.destination.word + offset))
      (wordCount expression.length) =
        bigEndian read (wordCount expression.length) * 2 ^ amount %
          2 ^ (32 * wordCount expression.length) := by
    apply bigEndian_shiftLeft amount_lt
    intro offset offset_lt
    have inside := fits_iff.mp fits _ expression.destination_mem_registers
    exact word_run_shiftLeft isShift inside offset_lt
  have masked : bigEndian read (wordCount expression.length) =
        Bytes.toNat (file.bytesAt expression.source expression.length) *
          256 ^ (paddedSize expression.length - expression.length) := by
    rw [RegisterFile.toNat_bytesAt, ← bigEndian_valueMask]
    apply bigEndian_congr
    intro offset _
    exact shiftLeftRead_eq_of_safe safe
  rw [shifted, masked, two_pow_words_eq, two_pow_bytes_eq, Nat.mul_right_comm,
    Nat.mul_mod_mul_right]

/-- The words that a right shift writes are the quotient in front of the padding; the bits that get
into the padding are masked there. -/
theorem bigEndian_run_shiftRight (amount_lt : amount < 32)
    (isShift : expression.transform = .shiftRight amount) {file : RegisterFile}
    (fits : expression.fits file = true)
    (safe : expression.destination.word ≤ expression.source.word ∨
      expression.source.word + wordCount expression.length ≤ expression.destination.word) :
    bigEndian (fun offset => (expression.run file).word (expression.destination.word + offset))
        (wordCount expression.length) =
      Bytes.toNat (file.bytesAt expression.source expression.length) / 2 ^ amount *
        256 ^ (paddedSize expression.length - expression.length) := by
  let read := expression.shiftRightRead file (expression.run file)
  let unmasked (offset : Nat) : UInt32 :=
    (if offset = 0 then 0 else carryRight (read (offset - 1)) amount) |||
      (read offset >>> UInt32.ofNat amount)
  have written : bigEndian
      (fun offset => (expression.run file).word (expression.destination.word + offset))
      (wordCount expression.length) =
        bigEndian (fun offset => unmasked offset &&& valueMask expression.length offset)
          (wordCount expression.length) := by
    apply bigEndian_congr
    intro offset offset_lt
    have inside := fits_iff.mp fits _ expression.destination_mem_registers
    exact word_run_shiftRight isShift inside offset_lt
  have shifted : bigEndian unmasked (wordCount expression.length) =
      bigEndian read (wordCount expression.length) / 2 ^ amount :=
    bigEndian_shiftRight amount_lt (fun _ _ => rfl)
  have source : bigEndian read (wordCount expression.length) =
      bigEndian (fun offset => file.word (expression.source.word + offset))
        (wordCount expression.length) := by
    apply bigEndian_congr
    intro offset offset_lt
    exact shiftRightRead_eq_of_safe safe offset_lt
  rw [written, bigEndian_valueMask, shifted, source, RegisterFile.toNat_bytesAt,
    Nat.div_div_eq_div_mul, Nat.div_div_eq_div_mul, Nat.mul_comm (2 ^ amount)]

theorem padding_bytesAt_eq {file : RegisterFile} {register : Register} {size number : Nat}
    (padded : file.bytesAt register (paddedSize size) =
      Bytes.ofNat size number ++ List.replicate (paddedSize size - size) 0) :
    (file.bytesAt register (paddedSize size)).drop size =
      List.replicate (paddedSize size - size) 0 := by
  rw [padded, List.drop_left' (Bytes.length_ofNat size number)]

/-- A left shift multiplies the value by a power of two and drops what leaves its bytes; the padding
becomes zero and nothing else changes. -/
theorem eval_shiftLeft {layout : Layout} {table : AttributeTable}
    (accepted : ofTable layout table = .ok expression)
    (isShift : expression.transform = .shiftLeft amount) {file : RegisterFile}
    (fits : expression.fits file = true)
    (safe : expression.source.word ≤ expression.destination.word ∨
      expression.destination.word + wordCount expression.length ≤ expression.source.word) :
    let length := expression.length
    let value := Bytes.toNat (file.bytesAt expression.source length)
    let after := expression.eval file
    after.bytesAt expression.destination length =
        Bytes.ofNat length (value * 2 ^ amount % 2 ^ (8 * length)) ∧
      (after.bytesAt expression.destination (paddedSize length)).drop length =
        List.replicate (paddedSize length - length) 0 ∧
      ∀ position, (position < expression.destination.word ∨
          expression.destination.word + wordCount length ≤ position) →
        after.word position = file.word position := by
  intro length value after
  have amount_lt := wellPlaced_amount_lt accepted (by rw [isShift]; rfl)
  have shifted_lt : value * 2 ^ amount % 2 ^ (8 * length) < 256 ^ length := by
    rw [two_pow_bytes_eq]
    exact Nat.mod_lt _ (Nat.pow_pos (by decide))
  have padded := RegisterFile.bytesAt_paddedSize_eq shifted_lt
    (bigEndian_run_shiftLeft amount_lt isShift fits safe)
  rw [← eval_of_fits fits] at padded
  refine ⟨RegisterFile.bytesAt_eq_ofNat padded, padding_bytesAt_eq padded, ?_⟩
  intro position outside
  exact word_eval_of_outside expression file outside

/-- Seven bytes, shifted one word up over themselves; the last byte of the file is padding. -/
theorem eval_shiftLeft_upward :
    let shift : Bitwise := ⟨⟨4⟩, ⟨5⟩, 7, .shiftLeft 5⟩
    let file : RegisterFile := ⟨#[0, 0, 0, 0, 0x01234567, 0x89ABCDEF, 0, 0]⟩
    shift.fits file = true ∧ shift.source.word ≤ shift.destination.word ∧
      (shift.eval file).bytesAt shift.destination 7 =
        Bytes.ofNat 7 (0x0123456789ABCD * 2 ^ 5 % 2 ^ 56) := by
  intro shift file
  have accepted : ofTable ⟨8, by decide, by decide⟩
      ⟨#[none, some [0, 0, 0, 8], some [0, 0, 0, 9], some [0, 0, 0, 7], none, none,
        some [0, 0, 0, 1], some [0, 8, 0, 1, 0, 0, 0, 5]]⟩ = .ok shift := by
    decide +kernel
  have fits : shift.fits file = true := by decide
  have upward : shift.source.word ≤ shift.destination.word := by decide
  have value : Bytes.toNat (file.bytesAt ⟨4⟩ 7) = 0x0123456789ABCD := by decide
  refine ⟨fits, upward, ?_⟩
  rw [← value]
  exact (eval_shiftLeft accepted rfl fits (Or.inl upward)).1

/-- A right shift divides the value by a power of two and drops the rest; the padding becomes zero
and nothing else changes. -/
theorem eval_shiftRight {layout : Layout} {table : AttributeTable}
    (accepted : ofTable layout table = .ok expression)
    (isShift : expression.transform = .shiftRight amount) {file : RegisterFile}
    (fits : expression.fits file = true)
    (safe : expression.destination.word ≤ expression.source.word ∨
      expression.source.word + wordCount expression.length ≤ expression.destination.word) :
    let length := expression.length
    let value := Bytes.toNat (file.bytesAt expression.source length)
    let after := expression.eval file
    after.bytesAt expression.destination length = Bytes.ofNat length (value / 2 ^ amount) ∧
      (after.bytesAt expression.destination (paddedSize length)).drop length =
        List.replicate (paddedSize length - length) 0 ∧
      ∀ position, (position < expression.destination.word ∨
          expression.destination.word + wordCount length ≤ position) →
        after.word position = file.word position := by
  intro length value after
  have amount_lt := wellPlaced_amount_lt accepted (by rw [isShift]; rfl)
  have shifted_lt : value / 2 ^ amount < 256 ^ length := by
    apply Nat.lt_of_le_of_lt (Nat.div_le_self value (2 ^ amount))
    have value_lt := Bytes.toNat_lt (file.bytesAt expression.source length)
    rwa [RegisterFile.length_bytesAt] at value_lt
  have padded := RegisterFile.bytesAt_paddedSize_eq shifted_lt
    (bigEndian_run_shiftRight amount_lt isShift fits safe)
  rw [← eval_of_fits fits] at padded
  refine ⟨RegisterFile.bytesAt_eq_ofNat padded, padding_bytesAt_eq padded, ?_⟩
  intro position outside
  exact word_eval_of_outside expression file outside

/-- Seven bytes, shifted one word down over themselves; the last byte of the file is padding. -/
theorem eval_shiftRight_downward :
    let shift : Bitwise := ⟨⟨5⟩, ⟨4⟩, 7, .shiftRight 5⟩
    let file : RegisterFile := ⟨#[0, 0, 0, 0, 0, 0x01234567, 0x89ABCDEF, 0]⟩
    shift.fits file = true ∧ shift.destination.word ≤ shift.source.word ∧
      (shift.eval file).bytesAt shift.destination 7 =
        Bytes.ofNat 7 (0x0123456789ABCD / 2 ^ 5) := by
  intro shift file
  have accepted : ofTable ⟨8, by decide, by decide⟩
      ⟨#[none, some [0, 0, 0, 9], some [0, 0, 0, 8], some [0, 0, 0, 7], none, none,
        some [0, 0, 0, 2], some [0, 8, 0, 1, 0, 0, 0, 5]]⟩ = .ok shift := by
    decide +kernel
  have fits : shift.fits file = true := by decide
  have downward : shift.destination.word ≤ shift.source.word := by decide
  have value : Bytes.toNat (file.bytesAt ⟨5⟩ 7) = 0x0123456789ABCD := by decide
  refine ⟨fits, downward, ?_⟩
  rw [← value]
  exact (eval_shiftRight accepted rfl fits (Or.inl downward)).1

end Bitwise

end PacketExpr
