import PacketExpr.Proofs.Bitwise.RoundTrip
import PacketExpr.Proofs.Bitwise.Trace
import PacketExpr.Proofs.Register.Value

/-!
# Boolean transforms of values

A boolean transform goes from the first word of the destination to the last.  The source and the
registers of the operands may lie anywhere, and the destination may overlap each of them in a
different way.  `Bitwise.operandRead` tells which word is read at each offset: the new one where the
transform has already been, and the old one everywhere else.

If the destination begins inside none of the registers that are read, every word is read before it
is written.  Then each byte of the value is masked and flipped by the bytes of the operands.
-/

namespace PacketExpr

/-- The bytes of an operand of `size` bytes. -/
def Operand.bytesAt (operand : Operand) (file : RegisterFile) (size : Nat) : Bytes :=
  match operand with
  | immediate value => value.bytes
  | register place => file.bytesAt place size

namespace Bitwise

/-- The word that a boolean transform takes from an operand at an offset, told from the files before
and after: words of the destination in front of that offset have been written already. -/
def operandRead (expression : Bitwise) (before after : RegisterFile) (operand : Operand)
    (offset : Nat) : UInt32 :=
  match operand with
  | .immediate value => Bytes.wordAt value.bytes offset
  | .register place =>
      let position := place.word + offset
      if expression.destination.word ≤ position ∧
          position < expression.destination.word + offset then
        after.word position
      else
        before.word position

variable {expression : Bitwise} {mask xor : Operand} {file : RegisterFile}

/-- What an operand gives in some turn can be told from the files before and after, because the
words in front have their new values by then and keep them. -/
theorem word_booleanTrace (mask xor operand : Operand) (file : RegisterFile)
    (packs : ∀ immediate ∈ operand.immediate?,
      Immediate.ofBytes? immediate.bytes = some immediate)
    (length_le : expression.length ≤ 255) {turn : Nat}
    (turn_lt : turn < wordCount expression.length) :
    operand.word (expression.booleanTrace mask xor file turn) turn =
      expression.operandRead file
        (expression.booleanTrace mask xor file (wordCount expression.length)) operand turn := by
  cases operand with
  | immediate value =>
      apply Immediate.word_eq_wordAt (packs value rfl)
      simp only [wordCount] at turn_lt
      omega
  | register place =>
      exact (sweep_booleanTrace mask xor file).word_eq_ite_of_forward (Nat.le_of_lt turn_lt)
        (place.word + turn)

/-- Every word of the destination holds what the transform makes of the words that it reads. -/
theorem word_run_boolean (isBoolean : expression.transform = .boolean mask xor)
    (packed : expression.Packed) (length_le : expression.length ≤ 255)
    (inside : expression.destination.word + wordCount expression.length ≤ file.capacity)
    {offset : Nat} (offset_lt : offset < wordCount expression.length) :
    (expression.run file).word (expression.destination.word + offset) =
      (expression.operandRead file (expression.run file) (.register expression.source) offset &&&
        expression.operandRead file (expression.run file) mask offset) ^^^
        expression.operandRead file (expression.run file) xor offset := by
  have run_eq : expression.run file =
      expression.booleanTrace mask xor file (wordCount expression.length) := by
    simp only [run, isBoolean, booleanTrace]
  have packs {operand : Operand} (operand_mem : operand ∈ [mask, xor]) :
      ∀ immediate ∈ operand.immediate?, Immediate.ofBytes? immediate.bytes = some immediate := by
    intro immediate isImmediate
    apply packed
    rw [isBoolean]
    exact Transform.mem_immediates_iff.mpr ⟨operand, operand_mem, isImmediate⟩
  have readMask := word_booleanTrace mask xor mask file (packs (by simp)) length_le offset_lt
  have readXor := word_booleanTrace mask xor xor file (packs (by simp)) length_le offset_lt
  have readSource := word_booleanTrace mask xor (.register expression.source) file
    (by rintro _ ⟨⟩) length_le offset_lt
  rw [run_eq, ← readMask, ← readXor, ← readSource]
  exact (sweep_booleanTrace mask xor file).word_place offset_lt
    (Nat.lt_of_lt_of_le (Nat.add_lt_add_left offset_lt _) inside)
    (booleanTrace_succ mask xor file offset)

/-- The destination does not begin inside a register, so no word of it is written before it is
read. -/
def ReadFirst (expression : Bitwise) (place : Register) : Prop :=
  ¬(place.word < expression.destination.word ∧
    expression.destination.word < place.word + wordCount expression.length)

/-- If an operand is read before it is overwritten, the words that are read hold its bytes as they
were. -/
theorem leading_operandRead (before after : RegisterFile) (operand : Operand)
    (readFirst : ∀ place ∈ operand.register?, expression.ReadFirst place)
    (sameSize : ∀ immediate ∈ operand.immediate?, immediate.size = expression.length) :
    Bytes.leading (expression.operandRead before after operand) expression.length =
      operand.bytesAt before expression.length := by
  cases operand with
  | immediate value =>
      rw [← sameSize value rfl, ← Immediate.length_bytes]
      exact Bytes.leading_wordAt value.bytes
  | register place =>
      have safe := readFirst place rfl
      apply Bytes.leading_congr
      intro offset offset_lt
      simp only [ReadFirst] at safe
      simp only [operandRead]
      rw [if_neg]
      omega

/-- The bytes that a boolean transform leaves in the destination, if every word of the destination
that is read is read before it is written. -/
theorem bytesAt_run_boolean {layout : Layout} (isBoolean : expression.transform = .boolean mask xor)
    (placed : expression.WellPlaced layout) (packed : expression.Packed)
    (fits : expression.fits file = true)
    (readFirst : ∀ place ∈ expression.registers, expression.ReadFirst place) :
    (expression.run file).bytesAt expression.destination expression.length =
      List.zipWith (· ^^^ ·)
        (List.zipWith (· &&& ·) (file.bytesAt expression.source expression.length)
          (mask.bytesAt file expression.length))
        (xor.bytesAt file expression.length) := by
  let read := expression.operandRead file (expression.run file)
  have written : (expression.run file).bytesAt expression.destination expression.length =
      Bytes.leading (fun offset => (read (.register expression.source) offset &&&
        read mask offset) ^^^ read xor offset) expression.length := by
    apply Bytes.leading_congr
    intro offset offset_lt
    exact word_run_boolean isBoolean packed placed.length_le
      (fits_iff.mp fits _ expression.destination_mem_registers) offset_lt
  have operandBytes {operand : Operand} (operand_mem : operand ∈ [mask, xor]) :
      Bytes.leading (read operand) expression.length =
        operand.bytesAt file expression.length := by
    have operand_mem' : operand ∈ expression.transform.operands := by
      rw [isBoolean]
      exact operand_mem
    apply leading_operandRead
    · intro place isRegister
      exact readFirst place (operand_mem_registers operand_mem' isRegister)
    · intro immediate isImmediate
      exact placed.immediates immediate
        (Transform.mem_immediates_iff.mpr ⟨operand, operand_mem', isImmediate⟩)
  have sourceBytes : Bytes.leading (read (.register expression.source)) expression.length =
      file.bytesAt expression.source expression.length := by
    apply leading_operandRead file (expression.run file) (.register expression.source)
    · rintro _ ⟨rfl⟩
      exact readFirst _ expression.source_mem_registers
    · exact nofun
  rw [written, Bytes.leading_zipWith Bytes.ofWord_xor, Bytes.leading_zipWith Bytes.ofWord_and,
    sourceBytes, operandBytes (by simp), operandBytes (by simp)]

/-- A boolean transform masks and flips, word by word, what it reads, and changes nothing outside of
the destination.  Where no register that it reads is overwritten too early, these are the bytes of
the value, the mask and the flipped bits as they were before. -/
theorem eval_boolean {layout : Layout} {table : AttributeTable}
    (accepted : ofTable layout table = .ok expression)
    (isBoolean : expression.transform = .boolean mask xor) (fits : expression.fits file = true) :
    let length := expression.length
    let destination := expression.destination.word
    let after := expression.eval file
    let read := expression.operandRead file after
    after.capacity = file.capacity ∧
      (∀ offset < wordCount length, after.word (destination + offset) =
        (read (.register expression.source) offset &&& read mask offset) ^^^ read xor offset) ∧
      (∀ position, (position < destination ∨ destination + wordCount length ≤ position) →
        after.word position = file.word position) ∧
      ((∀ place ∈ expression.registers, expression.ReadFirst place) →
        after.bytesAt expression.destination length =
          List.zipWith (· ^^^ ·)
            (List.zipWith (· &&& ·) (file.bytesAt expression.source length)
              (mask.bytesAt file length))
            (xor.bytesAt file length)) := by
  intro length destination after read
  have describes := ofTable_eq_ok_iff.mp accepted
  have placed := describes.wellPlaced
  have ran : after = expression.run file := eval_of_fits fits
  refine ⟨capacity_eval expression file, ?_, ?_, ?_⟩
  · intro offset offset_lt
    simp only [read, ran]
    exact word_run_boolean isBoolean describes.packed placed.length_le
      (fits_iff.mp fits _ expression.destination_mem_registers) offset_lt
  · intro position outside
    exact word_eval_of_outside expression file outside
  · intro readFirst
    rw [ran]
    exact bytesAt_run_boolean isBoolean placed describes.packed fits readFirst

/-- Seven bytes, masked one word up over themselves, so that the second word is made of the first
one that was written; and the same in place, where no word is overwritten too early. -/
theorem eval_boolean_overlapping :
    let mask : Immediate := ⟨Vector.ofFn fun position =>
      Bytes.wordAt [0xFF, 0, 0xFF, 0, 0x0F, 0xF0, 0xFF] position, 7, by decide, by decide⟩
    let transform : Transform := .boolean (.immediate mask) (.register ⟨6⟩)
    let upward : Bitwise := ⟨⟨4⟩, ⟨5⟩, 7, transform⟩
    let inPlace : Bitwise := ⟨⟨4⟩, ⟨4⟩, 7, transform⟩
    let file : RegisterFile := ⟨#[0, 0, 0, 0, 0x01234567, 0x89ABCDEF, 0x11111111, 0x22222222]⟩
    (upward.eval file).word 5 = 0x10115411 ∧
      (upward.eval file).word 6 = ((upward.eval file).word 5 &&& 0x0FF0FF00) ^^^ 0x22222222 ∧
      (inPlace.eval file).bytesAt ⟨4⟩ 7 = [0x10, 0x11, 0x54, 0x11, 0x2B, 0x82, 0xEF] := by
  intro mask transform upward inPlace file
  have upwardAccepted : ofTable ⟨8, by decide, by decide⟩
      ⟨#[none, some [0, 0, 0, 8], some [0, 0, 0, 9], some [0, 0, 0, 7],
        some [0, 11, 0, 1, 0xFF, 0, 0xFF, 0, 0x0F, 0xF0, 0xFF, 0], none, none, none, none,
        some [0, 0, 0, 10]]⟩ = .ok upward := by
    decide +kernel
  have inPlaceAccepted : ofTable ⟨8, by decide, by decide⟩
      ⟨#[none, some [0, 0, 0, 1], some [0, 0, 0, 1], some [0, 0, 0, 7],
        some [0, 11, 0, 1, 0xFF, 0, 0xFF, 0, 0x0F, 0xF0, 0xFF, 0], none, none, none, none,
        some [0, 0, 0, 10]]⟩ = .ok inPlace := by
    decide +kernel
  have words := (eval_boolean upwardAccepted rfl (by decide : upward.fits file = true)).2.1
  have bytes := (eval_boolean inPlaceAccepted rfl (by decide : inPlace.fits file = true)).2.2.2
  have readFirst : ∀ place ∈ inPlace.registers, inPlace.ReadFirst place := by
    simp [inPlace, transform, registers, Transform.registers, Operand.register?, ReadFirst]
  have maskWord : Bytes.wordAt mask.bytes 1 = 0x0FF0FF00 := by decide +kernel
  have second : (upward.eval file).word 6 =
      ((upward.eval file).word 5 &&& Bytes.wordAt mask.bytes 1) ^^^ 0x22222222 :=
    words 1 (by decide)
  rw [maskWord] at second
  refine ⟨?_, second, ?_⟩
  · exact (words 0 (by decide)).trans (by decide +kernel)
  · exact (bytes readFirst).trans (by decide +kernel)

end Bitwise

end PacketExpr
