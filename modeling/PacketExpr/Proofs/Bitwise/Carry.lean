import PacketExpr.Bitwise.Eval
import PacketExpr.Proofs.Bytes.Number

/-!
# Shifts of numbers in words

A shift of a number that is spread over words moves bits from one word into the next.  Each word of
the result is the sum of what stays in its word and of the carry, and together these words denote
the number times, or divided by, a power of two.

A value that ends inside its last word is the number of the words divided by the weight of the
padding, and clearing the padding of the words multiplies it again.
-/

namespace PacketExpr

variable {word carry : UInt32} {amount : Nat}

/-- Cutting a shifted number to a width cuts the number to what is left of the width. -/
theorem mul_two_pow_mod_two_pow (number : Nat) {width : Nat} (amount_le : amount ≤ width) :
    number * 2 ^ amount % 2 ^ width = 2 ^ amount * (number % 2 ^ (width - amount)) := by
  have split : 2 ^ width = 2 ^ amount * 2 ^ (width - amount) := by
    rw [← pow_add, Nat.add_sub_cancel' amount_le]
  rw [split, Nat.mul_comm number, Nat.mul_mod_mul_left]

theorem toNat_shiftLeft (word : UInt32) (amount_lt : amount < 32) :
    (word <<< UInt32.ofNat amount).toNat = word.toNat * 2 ^ amount % 2 ^ 32 := by
  have small : (UInt32.ofNat amount).toNat % 32 = amount := by
    rw [UInt32.toNat_ofNat']
    omega
  rw [UInt32.toNat_shiftLeft, small, Nat.shiftLeft_eq]

theorem toNat_shiftRight (word : UInt32) (amount_lt : amount < 32) :
    (word >>> UInt32.ofNat amount).toNat = word.toNat / 2 ^ amount := by
  have small : (UInt32.ofNat amount).toNat % 32 = amount := by
    rw [UInt32.toNat_ofNat']
    omega
  rw [UInt32.toNat_shiftRight, small, Nat.shiftRight_eq_div_pow]

/-- The bits that leave a word to the left are its highest ones; of a shift by no bits there are
none. -/
theorem toNat_carryLeft (word : UInt32) (amount : Nat) :
    (carryLeft word amount).toNat = word.toNat / 2 ^ (32 - amount) := by
  have word_lt : word.toNat < 2 ^ 32 := word.toNat_lt
  rw [carryLeft]
  split
  · rename_i none_moved
    rw [none_moved, Nat.sub_zero, Nat.div_eq_of_lt word_lt]
    rfl
  · exact toNat_shiftRight word (by omega)

/-- The bits that leave a word to the right are its lowest ones, at the top of the next word. -/
theorem toNat_carryRight (word : UInt32) (amount : Nat) :
    (carryRight word amount).toNat = word.toNat * 2 ^ (32 - amount) % 2 ^ 32 := by
  rw [carryRight]
  split
  · rename_i none_moved
    rw [none_moved, Nat.sub_zero, Nat.mul_mod_left]
    rfl
  · exact toNat_shiftLeft word (by omega)

theorem toNat_carryLeft_lt (word : UInt32) (amount_lt : amount < 32) :
    (carryLeft word amount).toNat < 2 ^ amount := by
  have word_lt : word.toNat < 2 ^ amount * 2 ^ (32 - amount) := by
    rw [← pow_add, Nat.add_sub_cancel' (Nat.le_of_lt amount_lt)]
    exact word.toNat_lt
  rw [toNat_carryLeft]
  exact (Nat.div_lt_iff_lt_mul (Nat.two_pow_pos _)).mpr word_lt

/-- The carry fills the bits that a left shift has cleared, so it is added. -/
theorem toNat_shiftLeft_or (amount_lt : amount < 32) (carry_lt : carry.toNat < 2 ^ amount) :
    ((word <<< UInt32.ofNat amount) ||| carry).toNat =
      word.toNat * 2 ^ amount % 2 ^ 32 + carry.toNat := by
  rw [UInt32.toNat_or, toNat_shiftLeft word amount_lt,
    mul_two_pow_mod_two_pow _ (Nat.le_of_lt amount_lt), ← Nat.two_pow_add_eq_or_of_lt carry_lt]

/-- The carry stands above the bits that a right shift leaves, so it is added. -/
theorem toNat_carryRight_or (before word : UInt32) (amount_lt : amount < 32) :
    (carryRight before amount ||| (word >>> UInt32.ofNat amount)).toNat =
      before.toNat * 2 ^ (32 - amount) % 2 ^ 32 + word.toNat / 2 ^ amount := by
  have rest_lt : word.toNat / 2 ^ amount < 2 ^ (32 - amount) := by
    rw [Nat.div_lt_iff_lt_mul (Nat.two_pow_pos _), ← pow_add,
      Nat.sub_add_cancel (Nat.le_of_lt amount_lt)]
    exact word.toNat_lt
  rw [UInt32.toNat_or, toNat_carryRight, toNat_shiftRight word amount_lt,
    mul_two_pow_mod_two_pow _ (Nat.sub_le ..), ← Nat.two_pow_add_eq_or_of_lt rest_lt]

/-- Words that hold what a left shift leaves in them, and the carry from the word behind, denote the
number shifted and cut to size.  Up to any word in front of the end they denote the number so far,
shifted and with the carry of the next word taken in. -/
theorem bigEndian_shiftLeft {read written : Nat → UInt32} {count : Nat} (amount_lt : amount < 32)
    (shifts : ∀ index < count, written index =
      (read index <<< UInt32.ofNat amount) |||
        (if index + 1 = count then 0 else carryLeft (read (index + 1)) amount)) :
    bigEndian written count = bigEndian read count * 2 ^ amount % 2 ^ (32 * count) := by
  let carry (index : Nat) : Nat :=
    if index = count then 0 else (read index).toNat / 2 ^ (32 - amount)
  have word_eq : ∀ index < count, (written index).toNat =
      (read index).toNat * 2 ^ amount % 2 ^ 32 + carry (index + 1) := by
    intro index index_lt
    rw [shifts index index_lt]
    simp only [carry]
    split
    · have nothing_lt : (0 : UInt32).toNat < 2 ^ amount := Nat.two_pow_pos amount
      rw [toNat_shiftLeft_or amount_lt nothing_lt]
      rfl
    · rw [toNat_shiftLeft_or amount_lt (toNat_carryLeft_lt _ amount_lt), toNat_carryLeft]
  have partly : ∀ index ≤ count, bigEndian written index =
      (bigEndian read index * 2 ^ amount + carry index) % 2 ^ (32 * index) := by
    intro index
    induction index with
    | zero => simp [bigEndian, Nat.mod_one]
    | succ index ih =>
        intro index_lt
        have digit_lt := (written index).toNat_lt
        rw [word_eq index (by omega)] at digit_lt
        have whole : (read index).toNat * 2 ^ amount =
            carry index * 2 ^ 32 + (read index).toNat * 2 ^ amount % 2 ^ 32 := by
          have split : 2 ^ 32 = 2 ^ (32 - amount) * 2 ^ amount := by
            rw [← pow_add, Nat.sub_add_cancel (Nat.le_of_lt amount_lt)]
          have quotient : (read index).toNat * 2 ^ amount / 2 ^ 32 = carry index := by
            simp only [carry, if_neg (show index ≠ count by omega)]
            rw [split, Nat.mul_div_mul_right _ _ (Nat.two_pow_pos amount)]
          rw [← quotient, Nat.mul_comm (_ / _), Nat.div_add_mod]
        have shifted : bigEndian read (index + 1) * 2 ^ amount + carry (index + 1) =
            2 ^ 32 * (bigEndian read index * 2 ^ amount + carry index) +
              ((read index).toNat * 2 ^ amount % 2 ^ 32 + carry (index + 1)) := by
          conv_lhs => rw [bigEndian, Nat.add_mul, whole]
          ring
        have size : 2 ^ (32 * (index + 1)) = 2 ^ 32 * 2 ^ (32 * index) := by
          rw [← pow_add]
          congr 1
          omega
        rw [bigEndian, ih (by omega), word_eq index (by omega), shifted, size, Nat.mod_mul,
          Nat.mul_add_mod, Nat.mod_eq_of_lt digit_lt, Nat.mul_add_div (by decide),
          Nat.div_eq_of_lt digit_lt]
        simp only [Nat.add_zero]
        rw [Nat.add_comm, Nat.mul_comm (2 ^ 32)]
  have done := partly count (Nat.le_refl count)
  simpa [carry] using done

/-- Words that hold the carry from the word in front, and what a right shift leaves in them, denote
the number shifted.  The bits that leave the words so far are the lowest ones of their number, so
they go on in the word that is added. -/
theorem bigEndian_shiftRight {read written : Nat → UInt32} {count : Nat} (amount_lt : amount < 32)
    (shifts : ∀ index < count, written index =
      (if index = 0 then 0 else carryRight (read (index - 1)) amount) |||
        (read index >>> UInt32.ofNat amount)) :
    bigEndian written count = bigEndian read count / 2 ^ amount := by
  induction count with
  | zero => simp [bigEndian]
  | succ count ih =>
      have split : 2 ^ 32 = 2 ^ amount * 2 ^ (32 - amount) := by
        rw [← pow_add, Nat.add_sub_cancel' (Nat.le_of_lt amount_lt)]
      have word_eq : (written count).toNat =
          bigEndian read count % 2 ^ amount * 2 ^ (32 - amount) +
            (read count).toNat / 2 ^ amount := by
        rw [shifts count (by omega)]
        cases count with
        | zero => simp [bigEndian, toNat_shiftRight _ amount_lt]
        | succ count =>
            have low : bigEndian read (count + 1) % 2 ^ amount =
                (read count).toNat % 2 ^ amount := by
              rw [bigEndian, split, Nat.mul_left_comm, Nat.mul_add_mod]
            rw [if_neg (Nat.succ_ne_zero count), Nat.add_sub_cancel,
              toNat_carryRight_or _ _ amount_lt, low,
              mul_two_pow_mod_two_pow _ (Nat.sub_le ..),
              Nat.sub_sub_self (Nat.le_of_lt amount_lt), Nat.mul_comm (2 ^ _)]
      have quotient : bigEndian read (count + 1) / 2 ^ amount =
          bigEndian read count * 2 ^ (32 - amount) + (read count).toNat / 2 ^ amount := by
        rw [bigEndian, split, Nat.mul_left_comm, Nat.mul_add_div (Nat.two_pow_pos amount)]
      have parts := Nat.div_add_mod (bigEndian read count) (2 ^ amount)
      rw [quotient, bigEndian, word_eq, ih (fun index index_lt => shifts index (by omega))]
      conv_rhs => rw [← parts]
      rw [split]
      ring

/-- Masking all but the lowest bits is dividing by their weight and multiplying by it again. -/
theorem and_ones_mul_two_pow {number : Nat} (number_lt : number < 2 ^ 32) (low : Nat) :
    number &&& (2 ^ 32 - 1) * 2 ^ low % 2 ^ 32 = number / 2 ^ low * 2 ^ low := by
  apply Nat.eq_of_testBit_eq
  intro bit
  rw [Nat.testBit_and, Nat.testBit_mod_two_pow, Nat.testBit_mul_two_pow,
    Nat.testBit_two_pow_sub_one, Nat.testBit_mul_two_pow, Nat.testBit_div_two_pow]
  by_cases kept : low ≤ bit
  · rw [Nat.sub_add_cancel kept]
    by_cases bit_lt : bit < 32
    · simp [kept, bit_lt, show bit - low < 32 by omega]
    · have beyond : number.testBit bit = false := by
        apply Nat.testBit_lt_two_pow
        exact Nat.lt_of_lt_of_le number_lt (Nat.pow_le_pow_right (by decide) (by omega))
      simp [beyond]
  · simp [kept]

/-- The mask of the last word clears the bytes of the padding and keeps the others. -/
theorem toNat_and_lastWordMask (word : UInt32) (length : Nat) :
    (word &&& lastWordMask length).toNat =
      word.toNat / 256 ^ (paddedSize length - length) * 256 ^ (paddedSize length - length) := by
  have word_lt : word.toNat < 2 ^ 32 := word.toNat_lt
  rw [UInt32.toNat_and, lastWordMask]
  split
  · have none_padded : paddedSize length - length = 0 := by
      simp only [paddedSize]
      omega
    have ones : (0xFFFFFFFF : UInt32).toNat = 2 ^ 32 - 1 := rfl
    rw [none_padded, ones, Nat.and_two_pow_sub_one_eq_mod, Nat.mod_eq_of_lt word_lt, Nat.pow_zero,
      Nat.div_one, Nat.mul_one]
  · have padded : paddedSize length - length = 4 - length % 4 := by
      simp only [paddedSize]
      omega
    have weight : 256 ^ (4 - length % 4) = 2 ^ (8 * (4 - length % 4)) :=
      (pow_mul 2 8 (4 - length % 4)).symm
    have ones : (0xFFFFFFFF : UInt32).toNat = 2 ^ 32 - 1 := rfl
    rw [padded, weight, toNat_shiftLeft _ (show 8 * (4 - length % 4) < 32 by omega), ones,
      and_ones_mul_two_pow word_lt]

/-- Clearing the padding of the last word clears the lowest bytes of the number. -/
theorem bigEndian_valueMask (word : Nat → UInt32) (length : Nat) :
    bigEndian (fun index => word index &&& Bitwise.valueMask length index) (wordCount length) =
      bigEndian word (wordCount length) / 256 ^ (paddedSize length - length) *
        256 ^ (paddedSize length - length) := by
  cases count_eq : wordCount length with
  | zero => simp [bigEndian]
  | succ count =>
      have untouched : ∀ index < count,
          word index &&& Bitwise.valueMask length index = word index := by
        intro index index_lt
        rw [Bitwise.valueMask, if_neg (by omega)]
        apply UInt32.toNat_inj.mp
        have ones : (0xFFFFFFFF : UInt32).toNat = 2 ^ 32 - 1 := rfl
        rw [UInt32.toNat_and, ones, Nat.and_two_pow_sub_one_eq_mod,
          Nat.mod_eq_of_lt (word index).toNat_lt]
      have split : 2 ^ 32 = 256 ^ (paddedSize length - length) *
          256 ^ (4 - (paddedSize length - length)) := by
        have padding_le : paddedSize length - length ≤ 4 := by
          simp only [paddedSize]
          omega
        rw [← pow_add, Nat.add_sub_cancel' padding_le]
        rfl
      rw [bigEndian, bigEndian, bigEndian_congr untouched, Bitwise.valueMask,
        if_pos count_eq.symm, toNat_and_lastWordMask, split, Nat.mul_left_comm,
        Nat.mul_add_div (Nat.pow_pos (by decide))]
      ring

end PacketExpr
