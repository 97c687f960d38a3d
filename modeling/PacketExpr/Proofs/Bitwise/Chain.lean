import PacketExpr.Proofs.Bitwise.Guarded
import PacketExpr.Proofs.Bitwise.Padding

/-!
# Chains of shifts

Shifts that follow one another on the same value in place act on its number exactly: a chain of
left shifts multiplies it by the power of two to the sum of the amounts, cut to the size of the
value, and a chain of right shifts divides it.  Nothing that one shift has dropped comes back in a
later one, because each of them leaves zero bytes behind the value and ignores what has been there
before.

So shifting right and back again clears the lowest bits of the value, and shifting left and back
again cuts off its highest bits, by as many bits as the amounts sum up to, however many these are.
-/

namespace PacketExpr

/-- Dividing and multiplying again clears the lowest bits. -/
theorem testBit_div_mul_two_pow {number width : Nat} (number_lt : number < 2 ^ width)
    (amount bit : Nat) :
    (number / 2 ^ amount * 2 ^ amount % 2 ^ width).testBit bit =
      (decide (amount ≤ bit) && number.testBit bit) := by
  have shrinks : number / 2 ^ amount * 2 ^ amount < 2 ^ width :=
    Nat.lt_of_le_of_lt (Nat.div_mul_le_self ..) number_lt
  rw [Nat.mod_eq_of_lt shrinks, Nat.testBit_mul_two_pow, Nat.testBit_div_two_pow]
  by_cases kept : amount ≤ bit
  · rw [Nat.sub_add_cancel kept]
  · simp [kept]

/-- Multiplying, cutting to size and dividing again cuts off the highest bits. -/
theorem mul_mod_div_two_pow (number amount width : Nat) :
    number * 2 ^ amount % 2 ^ width / 2 ^ amount = number % 2 ^ (width - amount) := by
  by_cases amount_le : amount ≤ width
  · rw [mul_two_pow_mod_two_pow number amount_le]
    exact Nat.mul_div_cancel_left _ (Nat.two_pow_pos amount)
  · have all_lost : number * 2 ^ amount % 2 ^ width = 0 := by
      apply Nat.mod_eq_zero_of_dvd
      exact Dvd.dvd.mul_left (Nat.pow_dvd_pow 2 (by omega)) number
    have none_kept : width - amount = 0 := by omega
    rw [all_lost, none_kept, Nat.zero_div, Nat.pow_zero, Nat.mod_one]

/-- The number that the bytes of a value at a register denote. -/
def RegisterFile.numberAt (file : RegisterFile) (register : Register) (size : Nat) : Nat :=
  Bytes.toNat (file.bytesAt register size)

theorem RegisterFile.numberAt_lt (file : RegisterFile) (register : Register) (size : Nat) :
    file.numberAt register size < 2 ^ (8 * size) := by
  have value_lt := Bytes.toNat_lt (file.bytesAt register size)
  rwa [length_bytesAt, ← two_pow_bytes_eq] at value_lt

namespace Bitwise

variable {expression : Bitwise} {chain : List Bitwise} {register : Register}
  {length amount : Nat} {file : RegisterFile}

/-- An accepted shift, in place, of `length` bytes at a register. -/
structure ShiftsInPlace (register : Register) (length : Nat) (expression : Bitwise) : Prop where
  accepted : ∃ layout table, ofTable layout table = .ok expression
  source : expression.source = register
  destination : expression.destination = register
  length : expression.length = length
  isShift : ∃ amount, expression.transform.amount? = some amount

/-- By how many bits the shifts of a chain move the value, all together. -/
def totalAmount (chain : List Bitwise) : Nat :=
  (chain.filterMap fun expression => expression.transform.amount?).sum

theorem totalAmount_cons (isAmount : expression.transform.amount? = some amount) :
    totalAmount (expression :: chain) = amount + totalAmount chain := by
  simp [totalAmount, isAmount]

theorem evalAll_append (first second : List Bitwise) (file : RegisterFile) :
    evalAll (first ++ second) file = evalAll second (evalAll first file) :=
  List.foldl_append

@[simp]
theorem capacity_evalAll (chain : List Bitwise) (file : RegisterFile) :
    (evalAll chain file).capacity = file.capacity := by
  induction chain generalizing file with
  | nil => rfl
  | cons expression chain ih => exact (ih _).trans (capacity_eval expression file)

theorem ShiftsInPlace.wellPlaced (shifts : expression.ShiftsInPlace register length) :
    ∃ layout, expression.WellPlaced layout := by
  rcases shifts.accepted with ⟨layout, table, accepted⟩
  exact ⟨layout, wellPlaced_of_ofTable accepted⟩

theorem ShiftsInPlace.amount_lt (shifts : expression.ShiftsInPlace register length)
    (isAmount : expression.transform.amount? = some amount) : amount < 32 := by
  rcases shifts.wellPlaced with ⟨layout, placed⟩
  exact placed.amount amount isAmount

theorem ShiftsInPlace.fits (shifts : expression.ShiftsInPlace register length)
    (room : register.word + wordCount length ≤ file.capacity) : expression.fits file = true := by
  have noOperands : expression.transform.registers = [] := by
    rcases shifts.isShift with ⟨amount, isAmount⟩
    cases transform_eq : expression.transform with
    | boolean mask xor =>
        rw [transform_eq] at isAmount
        cases isAmount
    | shiftLeft amount => rfl
    | shiftRight amount => rfl
  rw [fits_iff, registers, noOperands, shifts.source, shifts.destination, shifts.length]
  simpa using room

/-- The words of a number with cleared padding hold the number. -/
theorem numberAt_eq {number : Nat}
    (denotes : bigEndian (fun offset => file.word (register.word + offset)) (wordCount length) =
      number * 256 ^ (paddedSize length - length)) : file.numberAt register length = number := by
  rw [RegisterFile.numberAt, RegisterFile.toNat_bytesAt, denotes]
  exact Nat.mul_div_cancel _ (Nat.pow_pos (by decide))

theorem ShiftsInPlace.numberAt_eval_shiftLeft (shifts : expression.ShiftsInPlace register length)
    (isLeft : expression.transform = .shiftLeft amount)
    (room : register.word + wordCount length ≤ file.capacity) :
    (expression.eval file).numberAt register length =
      file.numberAt register length * 2 ^ amount % 2 ^ (8 * length) := by
  have amount_lt : amount < 32 := shifts.amount_lt (by rw [isLeft]; rfl)
  have fits := shifts.fits room
  have denotes := bigEndian_run_shiftLeft amount_lt isLeft fits
    (Or.inl (Nat.le_of_eq (by rw [shifts.source, shifts.destination])))
  rw [shifts.source, shifts.destination, shifts.length] at denotes
  rw [eval_of_fits fits]
  exact numberAt_eq denotes

theorem ShiftsInPlace.numberAt_eval_shiftRight (shifts : expression.ShiftsInPlace register length)
    (isRight : expression.transform = .shiftRight amount)
    (room : register.word + wordCount length ≤ file.capacity) :
    (expression.eval file).numberAt register length =
      file.numberAt register length / 2 ^ amount := by
  have amount_lt : amount < 32 := shifts.amount_lt (by rw [isRight]; rfl)
  have fits := shifts.fits room
  have denotes := bigEndian_run_shiftRight amount_lt isRight fits
    (Or.inl (Nat.le_of_eq (by rw [shifts.source, shifts.destination])))
  rw [shifts.source, shifts.destination, shifts.length] at denotes
  rw [eval_of_fits fits]
  exact numberAt_eq denotes

/-- A shift leaves zero bytes behind the value, whatever has been there before. -/
theorem ShiftsInPlace.padding_eval (shifts : expression.ShiftsInPlace register length)
    (room : register.word + wordCount length ≤ file.capacity) :
    ((expression.eval file).bytesAt register (paddedSize length)).drop length =
      List.replicate (paddedSize length - length) 0 := by
  rcases shifts.wellPlaced with ⟨layout, placed⟩
  rcases shifts.isShift with ⟨amount, isAmount⟩
  have fits := shifts.fits room
  rw [eval_of_fits fits]
  apply RegisterFile.padding_eq_zero
  intro offset offset_lt
  have clear := word_run_and_valueMask placed isAmount fits (shifts.length ▸ offset_lt)
  rwa [shifts.destination, shifts.length] at clear

/-- Left shifts one after the other multiply, since cutting a product to size does not depend on
whether its factors were cut before. -/
theorem numberAt_evalAll_shiftLeft
    (inPlace : ∀ expression ∈ chain, expression.ShiftsInPlace register length)
    (left : ∀ expression ∈ chain, ∃ amount, expression.transform = .shiftLeft amount)
    (room : register.word + wordCount length ≤ file.capacity) :
    (evalAll chain file).numberAt register length =
      file.numberAt register length * 2 ^ totalAmount chain % 2 ^ (8 * length) := by
  induction chain generalizing file with
  | nil => simpa [totalAmount, evalAll] using (Nat.mod_eq_of_lt (file.numberAt_lt ..)).symm
  | cons expression chain ih =>
      rcases List.forall_mem_cons.mp inPlace with ⟨shifts, inPlaceLater⟩
      rcases List.forall_mem_cons.mp left with ⟨⟨amount, isLeft⟩, leftLater⟩
      have isAmount : expression.transform.amount? = some amount := by rw [isLeft]; rfl
      have roomLater : register.word + wordCount length ≤ (expression.eval file).capacity := by
        simpa using room
      calc (evalAll (expression :: chain) file).numberAt register length
        _ = (expression.eval file).numberAt register length * 2 ^ totalAmount chain %
              2 ^ (8 * length) := ih inPlaceLater leftLater roomLater
        _ = file.numberAt register length * 2 ^ amount * 2 ^ totalAmount chain %
              2 ^ (8 * length) := by
            rw [shifts.numberAt_eval_shiftLeft isLeft room, Nat.mod_mul_mod]
        _ = file.numberAt register length * 2 ^ totalAmount (expression :: chain) %
              2 ^ (8 * length) := by
            rw [totalAmount_cons isAmount, pow_add, Nat.mul_assoc]

/-- Right shifts one after the other divide by the product of their divisors. -/
theorem numberAt_evalAll_shiftRight
    (inPlace : ∀ expression ∈ chain, expression.ShiftsInPlace register length)
    (right : ∀ expression ∈ chain, ∃ amount, expression.transform = .shiftRight amount)
    (room : register.word + wordCount length ≤ file.capacity) :
    (evalAll chain file).numberAt register length =
      file.numberAt register length / 2 ^ totalAmount chain := by
  induction chain generalizing file with
  | nil => simp [totalAmount, evalAll]
  | cons expression chain ih =>
      rcases List.forall_mem_cons.mp inPlace with ⟨shifts, inPlaceLater⟩
      rcases List.forall_mem_cons.mp right with ⟨⟨amount, isRight⟩, rightLater⟩
      have isAmount : expression.transform.amount? = some amount := by rw [isRight]; rfl
      have roomLater : register.word + wordCount length ≤ (expression.eval file).capacity := by
        simpa using room
      calc (evalAll (expression :: chain) file).numberAt register length
        _ = (expression.eval file).numberAt register length / 2 ^ totalAmount chain :=
            ih inPlaceLater rightLater roomLater
        _ = file.numberAt register length / 2 ^ amount / 2 ^ totalAmount chain := by
            rw [shifts.numberAt_eval_shiftRight isRight room]
        _ = file.numberAt register length / 2 ^ totalAmount (expression :: chain) := by
            rw [totalAmount_cons isAmount, pow_add, Nat.div_div_eq_div_mul]

/-- The last shift of a chain leaves zero bytes behind the value; the ones before it have kept the
file as large as it was. -/
theorem padding_evalAll
    (inPlace : ∀ expression ∈ chain, expression.ShiftsInPlace register length)
    (nonempty : chain ≠ []) (room : register.word + wordCount length ≤ file.capacity) :
    ((evalAll chain file).bytesAt register (paddedSize length)).drop length =
      List.replicate (paddedSize length - length) 0 := by
  rcases List.eq_nil_or_concat' chain with rfl | ⟨front, last, rfl⟩
  · exact absurd rfl nonempty
  · rw [evalAll_append]
    apply (inPlace last (by simp)).padding_eval
    simpa using room

/-- A chain of left shifts in place multiplies the number of a value by the power of two to the sum
of the amounts, cut to the size of the value, and a chain of right shifts divides it.  Shifting
right and back again clears exactly the lowest bits, shifting left and back again cuts off the
highest ones.  Behind the value there are zero bytes from the first shift on. -/
theorem evalAll_shiftsInPlace (room : register.word + wordCount length ≤ file.capacity) :
    let value := file.numberAt register length
    let after (chain : List Bitwise) := evalAll chain file
    (∀ chain : List Bitwise, (∀ shift ∈ chain, shift.ShiftsInPlace register length) →
      ((∀ shift ∈ chain, ∃ amount, shift.transform = .shiftLeft amount) →
        (after chain).numberAt register length =
          value * 2 ^ totalAmount chain % 2 ^ (8 * length)) ∧
      ((∀ shift ∈ chain, ∃ amount, shift.transform = .shiftRight amount) →
        (after chain).numberAt register length = value / 2 ^ totalAmount chain) ∧
      (chain ≠ [] → ((after chain).bytesAt register (paddedSize length)).drop length =
        List.replicate (paddedSize length - length) 0)) ∧
    ∀ lefts rights : List Bitwise,
      (∀ shift ∈ lefts, shift.ShiftsInPlace register length ∧
        ∃ amount, shift.transform = .shiftLeft amount) →
      (∀ shift ∈ rights, shift.ShiftsInPlace register length ∧
        ∃ amount, shift.transform = .shiftRight amount) →
      totalAmount lefts = totalAmount rights →
        (∀ bit, ((after (rights ++ lefts)).numberAt register length).testBit bit =
          (decide (totalAmount rights ≤ bit) && value.testBit bit)) ∧
        (after (lefts ++ rights)).numberAt register length =
          value % 2 ^ (8 * length - totalAmount lefts) := by
  intro value after
  constructor
  · intro chain inPlace
    exact ⟨fun left => numberAt_evalAll_shiftLeft inPlace left room,
      fun right => numberAt_evalAll_shiftRight inPlace right room,
      fun nonempty => padding_evalAll inPlace nonempty room⟩
  · intro lefts rights left right sameTotal
    have inPlaceLeft : ∀ shift ∈ lefts, shift.ShiftsInPlace register length :=
      fun shift shift_mem => (left shift shift_mem).1
    have isLeft : ∀ shift ∈ lefts, ∃ amount, shift.transform = .shiftLeft amount :=
      fun shift shift_mem => (left shift shift_mem).2
    have inPlaceRight : ∀ shift ∈ rights, shift.ShiftsInPlace register length :=
      fun shift shift_mem => (right shift shift_mem).1
    have isRight : ∀ shift ∈ rights, ∃ amount, shift.transform = .shiftRight amount :=
      fun shift shift_mem => (right shift shift_mem).2
    constructor
    · intro bit
      have back : (after (rights ++ lefts)).numberAt register length =
          value / 2 ^ totalAmount rights * 2 ^ totalAmount rights % 2 ^ (8 * length) := by
        simp only [after, evalAll_append]
        rw [numberAt_evalAll_shiftLeft inPlaceLeft isLeft (by simpa using room),
          numberAt_evalAll_shiftRight inPlaceRight isRight room, sameTotal]
      rw [back]
      exact testBit_div_mul_two_pow (file.numberAt_lt ..) ..
    · have back : (after (lefts ++ rights)).numberAt register length =
          value * 2 ^ totalAmount lefts % 2 ^ (8 * length) / 2 ^ totalAmount lefts := by
        simp only [after, evalAll_append]
        rw [numberAt_evalAll_shiftRight inPlaceRight isRight (by simpa using room),
          numberAt_evalAll_shiftLeft inPlaceLeft isLeft room, sameTotal]
      rw [back]
      exact mul_mod_div_two_pow ..

/-- Every shift in place by less than a word is accepted where the value has room. -/
theorem shiftsInPlace_of_holds {layout : Layout} {transform : Transform}
    (holds : layout.Holds register length) (length_le : length ≤ 255)
    (isAmount : transform.amount? = some amount) (amount_lt : amount < 32) :
    ShiftsInPlace register length ⟨register, register, length, transform⟩ := by
  have noOperands : transform.immediates = [] ∧ transform.registers = [] := by
    cases transform with
    | boolean mask xor => cases isAmount
    | shiftLeft amount => exact ⟨rfl, rfl⟩
    | shiftRight amount => exact ⟨rfl, rfl⟩
  have placed : WellPlaced layout ⟨register, register, length, transform⟩ :=
    { length_pos := holds.size_pos
      length_le := length_le
      registers := by
        simpa [registers, noOperands.2] using ⟨holds.behindVerdict, holds.inFile⟩
      immediates := by simp [noOperands.1]
      amount := by
        rintro _ isOther
        rw [isAmount] at isOther
        cases isOther
        exact amount_lt }
  have packed : Packed ⟨register, register, length, transform⟩ := by
    simp [Packed, noOperands.1]
  exact ⟨⟨_, _, ofTable_eq_ok_iff.mpr (describes_table placed packed)⟩, rfl, rfl, rfl, amount,
    isAmount⟩

/-- Seven bytes with a byte of padding behind them, shifted by 33 bits in two steps. -/
theorem evalAll_shiftsInPlace_twice :
    let left (amount : Nat) : Bitwise := ⟨⟨4⟩, ⟨4⟩, 7, .shiftLeft amount⟩
    let right (amount : Nat) : Bitwise := ⟨⟨4⟩, ⟨4⟩, 7, .shiftRight amount⟩
    let file : RegisterFile := ⟨#[0, 0, 0, 0, 0x01234567, 0x89ABCDFF]⟩
    let after (chain : List Bitwise) : Nat := (evalAll chain file).numberAt ⟨4⟩ 7
    after [left 31, left 2] = 0x0123456789ABCD * 2 ^ 33 % 2 ^ 56 ∧
      after [right 31, right 2] = 0x0123456789ABCD / 2 ^ 33 ∧
      ((evalAll [right 31, left 2] file).bytesAt ⟨4⟩ 8).drop 7 = [0] ∧
      (∀ bit, (after [right 31, right 2, left 2, left 31]).testBit bit =
        (decide (33 ≤ bit) && Nat.testBit 0x0123456789ABCD bit)) ∧
      after [left 2, left 31, right 31, right 2] = 0x0123456789ABCD % 2 ^ 23 := by
  intro left right file after
  have holds : Layout.standard.Holds ⟨4⟩ 7 := ⟨by decide, by decide, by decide⟩
  have leftShifts (amount : Nat) (amount_lt : amount < 32) : (left amount).ShiftsInPlace ⟨4⟩ 7 :=
    shiftsInPlace_of_holds holds (by decide) rfl amount_lt
  have rightShifts (amount : Nat) (amount_lt : amount < 32) : (right amount).ShiftsInPlace ⟨4⟩ 7 :=
    shiftsInPlace_of_holds holds (by decide) rfl amount_lt
  have value : file.numberAt ⟨4⟩ 7 = 0x0123456789ABCD := by decide
  rcases evalAll_shiftsInPlace (show 4 + wordCount 7 ≤ file.capacity by decide)
    with ⟨chains, backAndForth⟩
  rw [value] at chains backAndForth
  have back := backAndForth [left 2, left 31] [right 31, right 2]
    (by simp [leftShifts, left]) (by simp [rightShifts, right]) rfl
  refine ⟨?_, ?_, ?_, back.1, back.2⟩
  · exact (chains [left 31, left 2] (by simp [leftShifts])).1 (by simp [left])
  · exact (chains [right 31, right 2] (by simp [rightShifts])).2.1 (by simp [right])
  · exact (chains [right 31, left 2] (by simp [leftShifts, rightShifts])).2.2 (by simp)

end Bitwise

end PacketExpr
