import PacketExpr.Proofs.Bitwise.Locality
import PacketExpr.Proofs.Offload.Eligible

/-!
# Evaluating twice

An expression that writes none of the words that it reads computes the same result again, so it can
be evaluated twice.  This follows from what evaluation depends on, whatever the expression does.

An expression that masks a value in place reads its own result.  The mask keeps what the flips of
the first evaluation have set, and the second evaluation flips it back.  So both together are one
evaluation if and only if no bit that is kept is flipped, and if there is such a bit, it shows in
every register file that is large enough.
-/

namespace PacketExpr

namespace Bytes

/-- Clearing bits of the bytes clears them in the word that the bytes make. -/
theorem firstWord_zipWith_and {first second : Bytes} (sameLength : first.length = second.length) :
    firstWord (List.zipWith (· &&& ·) first second) = firstWord first &&& firstWord second := by
  have padding : List.zipWith (· &&& ·) (List.replicate (4 - second.length) (0 : UInt8))
      (List.replicate (4 - second.length) 0) = List.replicate (4 - second.length) 0 := by
    simp
  have sameFront : (first.take 4).length = (second.take 4).length := by
    rw [List.length_take, List.length_take, sameLength]
  have sameBytes : ofWord (firstWord (List.zipWith (· &&& ·) first second)) =
      ofWord (firstWord first &&& firstWord second) := by
    rw [ofWord_and, ofWord_firstWord, ofWord_firstWord, ofWord_firstWord, List.length_zipWith,
      sameLength, Nat.min_self, List.zipWith_append sameFront, padding, List.take_zipWith]
  rw [← firstWord_ofWord (firstWord (List.zipWith _ first second)), sameBytes, firstWord_ofWord]

theorem wordAt_zipWith_and {first second : Bytes} (sameLength : first.length = second.length)
    (index : Nat) :
    wordAt (List.zipWith (· &&& ·) first second) index =
      wordAt first index &&& wordAt second index := by
  have sameRest : (first.drop (4 * index)).length = (second.drop (4 * index)).length := by
    rw [List.length_drop, List.length_drop, sameLength]
  rw [wordAt, List.drop_zipWith, firstWord_zipWith_and sameRest]
  rfl

/-- The words of a byte string are zero if and only if its bytes are. -/
theorem forall_wordAt_eq_zero_iff {bytes : Bytes} :
    (∀ index < wordCount bytes.length, wordAt bytes index = 0) ↔ ∀ byte ∈ bytes, byte = 0 := by
  constructor
  · intro zeroWords
    have zeroWord : ofWord 0 = List.replicate 4 0 := rfl
    have replicated : leading (wordAt bytes) bytes.length = List.replicate bytes.length 0 := by
      apply take_ofWords_eq_replicate zeroWord
      · intro other other_mem
        rcases List.mem_map.mp other_mem with ⟨index, index_mem, rfl⟩
        exact zeroWords index (List.mem_range.mp index_mem)
      · simp only [List.length_map, List.length_range, wordCount]
        omega
    rw [leading_wordAt] at replicated
    exact (List.eq_replicate_iff.mp replicated).2
  · intro zeroBytes index _
    rw [List.eq_replicate_iff.mpr ⟨rfl, zeroBytes⟩]
    exact wordAt_replicate_zero ..

end Bytes

/-- Masking and flipping the bits of a word twice flips back what the mask keeps. -/
theorem and_xor_twice_eq_iff {word mask flip : UInt32} :
    (((word &&& mask) ^^^ flip) &&& mask) ^^^ flip = (word &&& mask) ^^^ flip ↔
      mask &&& flip = 0 := by
  have twice : (((word &&& mask) ^^^ flip) &&& mask) ^^^ flip =
      ((word &&& mask) ^^^ flip) ^^^ (mask &&& flip) := by
    apply UInt32.toBitVec_inj.mp
    ext bit
    simp
    grind
  rw [twice]
  constructor
  · intro same
    rw [← UInt32.xor_right_inj, UInt32.xor_zero]
    exact same
  · intro noneFlipped
    rw [noneFlipped, UInt32.xor_zero]

namespace Bitwise

variable {expression : Bitwise} {mask xor : Immediate} {file : RegisterFile}

/-- What is written has no part in a second evaluation if it is not read. -/
theorem eval_eval_of_apart
    (apart : ∀ position ∈ expression.readExtent, position ∉ expression.writtenExtent)
    (file : RegisterFile) : expression.eval (expression.eval file) = expression.eval file := by
  by_cases fits : expression.fits file = true
  · have agree := agreeOn_eval_self expression file
    have fitsAgain := fits_congr agree.capacity fits
    have unwritten : expression.readExtent ⊆ expression.writtenExtentᶜ := apart
    have twice := agreeOn_run unwritten agree
    rw [Set.compl_union_self, ← eval_of_fits fits, ← eval_of_fits fitsAgain] at twice
    apply RegisterFile.eq_of_word_eq twice.capacity
    intro position
    exact twice.words (Set.mem_univ position)
  · have unchanged : expression.eval file = file := if_neg fits
    rw [unchanged, unchanged]

/-- In place, each word is masked and flipped by itself. -/
theorem word_run_inPlace {layout : Layout} (placed : expression.WellPlaced layout)
    (packed : expression.Packed) (inPlace : expression.source = expression.destination)
    (isMask : expression.transform = .boolean (.immediate mask) (.immediate xor))
    (fits : expression.fits file = true) {offset : Nat}
    (offset_lt : offset < wordCount expression.length) :
    (expression.run file).word (expression.destination.word + offset) =
      (file.word (expression.destination.word + offset) &&& Bytes.wordAt mask.bytes offset) ^^^
        Bytes.wordAt xor.bytes offset := by
  have inside := fits_iff.mp fits _ expression.destination_mem_registers
  rw [word_run_boolean isMask packed placed.length_le inside offset_lt]
  simp [operandRead, inPlace]

/-- In a file that is large enough, a second evaluation in place shows every kept bit that is
flipped. -/
theorem eval_eval_eq_iff_of_inPlace {layout : Layout} (placed : expression.WellPlaced layout)
    (packed : expression.Packed) (inPlace : expression.source = expression.destination)
    (isMask : expression.transform = .boolean (.immediate mask) (.immediate xor))
    (fits : expression.fits file = true) :
    expression.eval (expression.eval file) = expression.eval file ↔
      ∀ byte ∈ List.zipWith (· &&& ·) mask.bytes xor.bytes, byte = 0 := by
  have fitsAgain : expression.fits (expression.eval file) = true :=
    fits_congr (capacity_eval expression file) fits
  have once {offset : Nat} (offset_lt : offset < wordCount expression.length) :=
    word_run_inPlace placed packed inPlace isMask fits offset_lt
  have twice {offset : Nat} (offset_lt : offset < wordCount expression.length) :=
    word_run_inPlace placed packed inPlace isMask fitsAgain offset_lt
  simp only [← eval_of_fits fits] at once
  simp only [← eval_of_fits fitsAgain] at twice
  have length_mask : mask.bytes.length = expression.length := by
    rw [Immediate.length_bytes, (placed.mask_sizes isMask).1]
  have length_xor : xor.bytes.length = expression.length := by
    rw [Immediate.length_bytes, (placed.mask_sizes isMask).2]
  have sameLength : mask.bytes.length = xor.bytes.length := length_mask.trans length_xor.symm
  rw [← Bytes.forall_wordAt_eq_zero_iff, List.length_zipWith, length_mask, length_xor, Nat.min_self]
  constructor
  · intro same offset offset_lt
    have again := twice offset_lt
    rw [same, once offset_lt] at again
    rw [Bytes.wordAt_zipWith_and sameLength]
    exact and_xor_twice_eq_iff.mp again.symm
  · intro noneFlipped
    apply eq_of_agreeOn_of_words (agreeOn_eval_self expression (expression.eval file))
      ⟨rfl, Set.eqOn_refl _ _⟩
    intro offset offset_lt
    rw [twice offset_lt, once offset_lt, and_xor_twice_eq_iff,
      ← Bytes.wordAt_zipWith_and sameLength]
    exact noneFlipped offset offset_lt

/-- An expression that does not write what it reads can be evaluated twice.  One that masks a value
in place can be if and only if it flips no bit that it keeps; otherwise every file that is large
enough changes again.  The smallest file that is large enough shows a flipped bit already. -/
theorem eval_idempotent {layout : Layout} {table : AttributeTable}
    (accepted : ofTable layout table = .ok expression) :
    ((∀ position ∈ expression.readExtent, position ∉ expression.writtenExtent) →
      ∀ file, expression.eval (expression.eval file) = expression.eval file) ∧
    ∀ mask xor : Immediate, expression.source = expression.destination →
      expression.transform = .boolean (.immediate mask) (.immediate xor) →
        ((∀ file, expression.eval (expression.eval file) = expression.eval file) ↔
          ∀ byte ∈ List.zipWith (· &&& ·) mask.bytes xor.bytes, byte = 0) ∧
        ∀ file, expression.fits file = true →
          (expression.eval (expression.eval file) = expression.eval file ↔
            ∀ byte ∈ List.zipWith (· &&& ·) mask.bytes xor.bytes, byte = 0) := by
  have describes := ofTable_eq_ok_iff.mp accepted
  refine ⟨eval_eval_of_apart, ?_⟩
  intro mask xor inPlace isMask
  have inFile {file : RegisterFile} (fits : expression.fits file = true) :=
    eval_eval_eq_iff_of_inPlace describes.wellPlaced describes.packed inPlace isMask fits
  refine ⟨⟨?_, ?_⟩, fun file => inFile⟩
  · intro idempotent
    have fits : expression.fits (RegisterFile.blank expression.span) = true := by
      simp [Bitwise.fits]
    exact (inFile fits).mp (idempotent _)
  · intro noneFlipped file
    by_cases fits : expression.fits file = true
    · exact (inFile fits).mpr noneFlipped
    · have unchanged : expression.eval file = file := if_neg fits
      rw [unchanged, unchanged]

/-- Seven bytes that are shifted elsewhere; a mask in place that flips only what it clears; and one
that flips a bit which it keeps, in the last byte. -/
theorem eval_idempotent_mask :
    let shift : Bitwise := ⟨⟨4⟩, ⟨6⟩, 7, .shiftRight 5⟩
    let mask : Immediate := ⟨Vector.ofFn fun position =>
      Bytes.wordAt [0xFF, 0, 0xF0, 0x0F, 0xFF] position, 5, by decide, by decide⟩
    let flips : Immediate := ⟨Vector.ofFn fun position =>
      Bytes.wordAt [0, 0xFF, 0x0F, 0xF0, 0] position, 5, by decide, by decide⟩
    let last : Immediate := ⟨Vector.ofFn fun position =>
      Bytes.wordAt [0, 0, 0, 0, 1] position, 5, by decide, by decide⟩
    let apart : Bitwise := ⟨⟨4⟩, ⟨4⟩, 5, .boolean (.immediate mask) (.immediate flips)⟩
    let meeting : Bitwise := ⟨⟨4⟩, ⟨4⟩, 5, .boolean (.immediate mask) (.immediate last)⟩
    (∀ file, shift.eval (shift.eval file) = shift.eval file) ∧
      (∀ file, apart.eval (apart.eval file) = apart.eval file) ∧
      meeting.eval (meeting.eval (RegisterFile.blank 8)) ≠ meeting.eval (RegisterFile.blank 8) := by
  intro shift mask flips last apart meeting
  have shiftAccepted : ofTable ⟨8, by decide, by decide⟩
      ⟨#[none, some [0, 0, 0, 8], some [0, 0, 0, 10], some [0, 0, 0, 7], none, none,
        some [0, 0, 0, 2], some [0, 8, 0, 1, 0, 0, 0, 5]]⟩ = .ok shift := by
    decide +kernel
  have apartAccepted : ofTable ⟨8, by decide, by decide⟩
      ⟨#[none, some [0, 0, 0, 1], some [0, 0, 0, 1], some [0, 0, 0, 5],
        some [0, 9, 0, 1, 0xFF, 0, 0xF0, 0x0F, 0xFF],
        some [0, 9, 0, 1, 0, 0xFF, 0x0F, 0xF0, 0]]⟩ = .ok apart := by
    decide +kernel
  have meetingAccepted : ofTable ⟨8, by decide, by decide⟩
      ⟨#[none, some [0, 0, 0, 1], some [0, 0, 0, 1], some [0, 0, 0, 5],
        some [0, 9, 0, 1, 0xFF, 0, 0xF0, 0x0F, 0xFF],
        some [0, 9, 0, 1, 0, 0, 0, 0, 1]]⟩ = .ok meeting := by
    decide +kernel
  have inFront : ∀ place ∈ shift.reads,
      place.word + wordCount shift.length ≤ shift.destination.word := by decide
  have disjoint : ∀ position ∈ shift.readExtent, position ∉ shift.writtenExtent := by
    rintro position ⟨place, place_mem, _, ends⟩ ⟨starts, _⟩
    exact absurd starts (Nat.not_le.mpr (ends.trans_le (inFront place place_mem)))
  have noneFlipped : ∀ byte ∈ List.zipWith (· &&& ·) mask.bytes flips.bytes, byte = 0 := by
    decide +kernel
  have lastFlipped : ¬∀ byte ∈ List.zipWith (· &&& ·) mask.bytes last.bytes, byte = 0 := by
    decide +kernel
  refine ⟨(eval_idempotent shiftAccepted).1 disjoint,
    ((eval_idempotent apartAccepted).2 mask flips rfl rfl).1.mpr noneFlipped, ?_⟩
  intro same
  have inFile := ((eval_idempotent meetingAccepted).2 mask last rfl rfl).2
  exact lastFlipped ((inFile (RegisterFile.blank 8) (by decide)).mp same)

end Bitwise

end PacketExpr
