import PacketExpr.Offload
import PacketExpr.Proofs.Bitwise.Boolean

/-!
# What hardware can do

An expression that hardware can run keeps, in place, those bits of a register that an immediate mask
has, and flips none.  So evaluating it in software puts the mask on the value, byte by byte.

What `Bitwise.offload` asks for is stated once, as an equivalence, and so is what it records; the
histories of contexts are built on that.
-/

namespace PacketExpr

namespace Bytes

/-- Keeps the bits of a value that a mask has. -/
def masked (value mask : Bytes) : Bytes := List.zipWith (· &&& ·) value mask

@[simp]
theorem length_masked (value mask : Bytes) :
    (value.masked mask).length = min value.length mask.length := List.length_zipWith

theorem zipWith_xor_replicate_zero {value : Bytes} {size : Nat} (sameSize : value.length = size) :
    List.zipWith (· ^^^ ·) value (List.replicate size 0) = value := by
  induction value generalizing size with
  | nil => rfl
  | cons byte value ih =>
      rw [← sameSize, List.length_cons, List.replicate_succ, List.zipWith_cons_cons, ih rfl,
        UInt8.xor_zero]

end Bytes

namespace OffloadContext

variable {context : OffloadContext} {register : Register} {entry : OffloadEntry}

@[simp]
theorem length?_set_self : (context.set register entry).length? register = entry.length := by
  simp [length?, set]

@[simp]
theorem mask?_set_self : (context.set register entry).mask? register = entry.mask := by
  simp [mask?, set]

end OffloadContext

namespace Bitwise

variable {expression : Bitwise} {mask : Bytes}

/-- Hardware can run exactly what keeps the bits of an immediate in place and flips none. -/
theorem offloadMask_eq_ok_iff :
    expression.offloadMask = .ok mask ↔
      expression.source = expression.destination ∧
        ∃ kept flipped : Immediate, flipped.isZero = true ∧ mask = kept.bytes ∧
          expression.transform = .boolean (.immediate kept) (.immediate flipped) := by
  constructor
  · intro eligible
    simp only [offloadMask] at eligible
    split at eligible
    · cases eligible
    · cases eligible
    · next maskOperand xorOperand transform_eq =>
        rw [ite_error_eq_ok_iff, not_ne_iff] at eligible
        rcases eligible with ⟨inPlace, eligible⟩
        refine ⟨inPlace, ?_⟩
        cases xorOperand with
        | register place => cases eligible
        | immediate flipped =>
            simp only at eligible
            split at eligible
            · next zero =>
                cases maskOperand with
                | register place => cases eligible
                | immediate kept =>
                    cases eligible
                    exact ⟨kept, flipped, zero, rfl, transform_eq⟩
            · cases eligible
  · rintro ⟨inPlace, kept, flipped, zero, rfl, transform_eq⟩
    simp only [offloadMask, transform_eq, inPlace, ne_eq, not_true_eq_false, if_false, zero,
      if_true]

/-- An expression is offloaded if hardware can run it and the size of the field is not known to be
another one; then its mask is recorded, with its length. -/
theorem offload_eq_ok_iff {context after : OffloadContext} {entry : MaskEntry} :
    expression.offload context = .ok (entry, after) ↔
      ∃ mask, expression.offloadMask = .ok mask ∧
        (∀ length ∈ context.length? expression.destination, length = expression.length) ∧
        entry = ⟨expression.destination, mask, expression.length⟩ ∧
        after = context.set expression.destination ⟨some expression.length, some mask⟩ := by
  have wholeField : ¬(context.length? expression.destination).any (· ≠ expression.length) = true ↔
      ∀ length ∈ context.length? expression.destination, length = expression.length := by
    cases context.length? expression.destination with
    | none => simp
    | some length => simp
  simp only [offload, bind_eq_ok_iff, ite_error_eq_ok_iff, wholeField]
  constructor
  · rintro ⟨mask, eligible, sameField, ⟨rfl, rfl⟩⟩
    exact ⟨mask, eligible, sameField, rfl, rfl⟩
  · rintro ⟨mask, eligible, sameField, rfl, rfl⟩
    exact ⟨mask, eligible, sameField, rfl⟩

variable {layout : Layout}

/-- What can be offloaded names one register only. -/
theorem eq_destination_of_offloadMask (eligible : expression.offloadMask = .ok mask)
    {place : Register} (place_mem : place ∈ expression.registers) :
    place = expression.destination := by
  rcases offloadMask_eq_ok_iff.mp eligible with ⟨inPlace, kept, flipped, _, _, transform_eq⟩
  simpa [registers, transform_eq, Transform.registers, Operand.register?, inPlace] using place_mem

/-- An eligible expression has room in a file as soon as its destination has. -/
theorem fits_of_offloadMask {file : RegisterFile} (eligible : expression.offloadMask = .ok mask)
    (room : expression.destination.word + wordCount expression.length ≤ file.capacity) :
    expression.fits file = true := by
  rw [fits_iff]
  intro place place_mem
  rwa [eq_destination_of_offloadMask eligible place_mem]

theorem length_of_offloadMask (eligible : expression.offloadMask = .ok mask)
    (placed : expression.WellPlaced layout) : mask.length = expression.length := by
  rcases offloadMask_eq_ok_iff.mp eligible with ⟨_, kept, flipped, _, rfl, transform_eq⟩
  rw [Immediate.length_bytes, (placed.mask_sizes transform_eq).1]

/-- Software does to the value of an eligible expression what hardware does. -/
theorem bytesAt_eval_of_offloadMask {file : RegisterFile}
    (eligible : expression.offloadMask = .ok mask) (placed : expression.WellPlaced layout)
    (packed : expression.Packed) (fits : expression.fits file = true) :
    (expression.eval file).bytesAt expression.destination expression.length =
      (file.bytesAt expression.destination expression.length).masked mask := by
  have sameLength := length_of_offloadMask eligible placed
  rcases offloadMask_eq_ok_iff.mp eligible with
    ⟨inPlace, kept, flipped, zero, mask_eq, transform_eq⟩
  have readFirst : ∀ place ∈ expression.registers, expression.ReadFirst place := by
    intro place place_mem overlap
    rw [eq_destination_of_offloadMask eligible place_mem] at overlap
    exact Nat.lt_irrefl _ overlap.1
  have noFlips : flipped.bytes = List.replicate expression.length 0 := by
    rw [← (placed.mask_sizes transform_eq).2]
    exact Immediate.bytes_of_isZero zero
  have written := bytesAt_run_boolean transform_eq placed packed fits readFirst
  simp only [Operand.bytesAt, inPlace, noFlips, ← mask_eq] at written
  rw [eval_of_fits fits, written]
  apply Bytes.zipWith_xor_replicate_zero
  simp [sameLength]

/-- Keeps the bits of an immediate in the value at a place and flips those of another one. -/
def maskInPlace (place : Register) (kept flipped : Immediate) : Bitwise :=
  ⟨place, place, kept.size, .boolean (.immediate kept) (.immediate flipped)⟩

variable {place : Register} {kept flipped : Immediate}

theorem registers_maskInPlace (place : Register) (kept flipped : Immediate) :
    (maskInPlace place kept flipped).registers = [place, place] := rfl

/-- Masking in place needs room for one value, and two immediates of its size. -/
theorem wellPlaced_maskInPlace (holds : layout.Holds place kept.size)
    (sameSize : flipped.size = kept.size) :
    (maskInPlace place kept flipped).WellPlaced layout where
  length_pos := kept.size_pos
  length_le := kept.size_le
  registers := by
    simp only [registers_maskInPlace, List.mem_cons, List.not_mem_nil, or_false, or_self, forall_eq]
    exact ⟨holds.behindVerdict, holds.inFile⟩
  immediates := by
    simp [maskInPlace, Transform.immediates, Operand.immediate?, sameSize]
  amount := nofun

theorem packed_maskInPlace (place : Register)
    (packsKept : Immediate.ofBytes? kept.bytes = some kept)
    (packsFlipped : Immediate.ofBytes? flipped.bytes = some flipped) :
    (maskInPlace place kept flipped).Packed := by
  simp [Packed, maskInPlace, Transform.immediates, Operand.immediate?, packsKept, packsFlipped]

/-- Without flips hardware can mask in place. -/
theorem offloadMask_maskInPlace (place : Register) (kept : Immediate)
    (noFlips : flipped.isZero = true) :
    (maskInPlace place kept flipped).offloadMask = .ok kept.bytes :=
  offloadMask_eq_ok_iff.mpr ⟨rfl, kept, flipped, noFlips, rfl, rfl⟩

theorem fits_maskInPlace_iff {file : RegisterFile} :
    (maskInPlace place kept flipped).fits file = true ↔
      place.word + wordCount kept.size ≤ file.capacity := by
  simp only [fits_iff, registers_maskInPlace, List.mem_cons, List.not_mem_nil, or_false, or_self,
    forall_eq]
  rfl

/-- For an expression with packed immediates of its own length, no bit is flipped if and only if all
of the bytes to flip are zero. -/
theorem exists_offloadMask_iff (placed : expression.WellPlaced layout)
    (packed : expression.Packed) :
    (∃ mask, expression.offloadMask = .ok mask) ↔
      expression.source = expression.destination ∧
        ∃ kept flipped : Immediate,
          expression.transform = .boolean (.immediate kept) (.immediate flipped) ∧
            flipped.bytes = List.replicate expression.length 0 := by
  have zero_iff {kept flipped : Immediate}
      (transform_eq : expression.transform = .boolean (.immediate kept) (.immediate flipped)) :
      flipped.isZero = true ↔ flipped.bytes = List.replicate expression.length 0 := by
    have flipped_mem : flipped ∈ expression.transform.immediates := by
      simp [transform_eq, Transform.immediates, Operand.immediate?]
    rw [Immediate.isZero_iff (packed flipped flipped_mem), placed.immediates flipped flipped_mem]
  constructor
  · rintro ⟨mask, eligible⟩
    rcases offloadMask_eq_ok_iff.mp eligible with ⟨inPlace, kept, flipped, zero, _, transform_eq⟩
    exact ⟨inPlace, kept, flipped, transform_eq, (zero_iff transform_eq).mp zero⟩
  · rintro ⟨inPlace, kept, flipped, transform_eq, zeroBytes⟩
    have zero := (zero_iff transform_eq).mpr zeroBytes
    exact ⟨kept.bytes, offloadMask_eq_ok_iff.mpr
      ⟨inPlace, kept, flipped, zero, rfl, transform_eq⟩⟩

/-- An accepted expression is offloaded exactly if it masks a register in place with an immediate,
flips none of its bits, and works on the whole field as far as the size of the field is known.  Then
its mask is recorded with its length.  Software does to the bytes of the value what that mask does,
and changes nothing else. -/
theorem offload_exact {table : AttributeTable} (accepted : ofTable layout table = .ok expression)
    (context : OffloadContext) :
    let length := expression.length
    let destination := expression.destination
    ((∃ entry after, expression.offload context = .ok (entry, after)) ↔
      expression.source = destination ∧
        (∃ kept flipped : Immediate,
          expression.transform = .boolean (.immediate kept) (.immediate flipped) ∧
            flipped.bytes = List.replicate length 0) ∧
        (context.length? destination = none ∨ context.length? destination = some length)) ∧
    ∀ entry after, expression.offload context = .ok (entry, after) →
      (∃ (kept : Immediate) (xor : Operand), expression.transform = .boolean (.immediate kept) xor ∧
        entry = ⟨destination, kept.bytes, length⟩) ∧
      entry.mask.length = length ∧
      after.entry? destination = some ⟨some length, some entry.mask⟩ ∧
      ∀ file : RegisterFile, expression.fits file = true →
        (expression.eval file).bytesAt destination length =
            (file.bytesAt destination length).masked entry.mask ∧
          ∀ position, (position < destination.word ∨
              destination.word + wordCount length ≤ position) →
            (expression.eval file).word position = file.word position := by
  intro length destination
  have describes := ofTable_eq_ok_iff.mp accepted
  have placed := describes.wellPlaced
  have sameField_iff : (∀ size ∈ context.length? destination, size = length) ↔
      context.length? destination = none ∨ context.length? destination = some length := by
    cases context.length? destination with
    | none => simp
    | some size => simp
  constructor
  · have masksInPlace_iff := exists_offloadMask_iff placed describes.packed
    constructor
    · rintro ⟨entry, after, offloaded⟩
      rcases offload_eq_ok_iff.mp offloaded with ⟨mask, eligible, sameField, _, _⟩
      rcases masksInPlace_iff.mp ⟨mask, eligible⟩ with ⟨inPlace, masks⟩
      exact ⟨inPlace, masks, sameField_iff.mp sameField⟩
    · rintro ⟨inPlace, masks, sameField⟩
      rcases masksInPlace_iff.mpr ⟨inPlace, masks⟩ with ⟨mask, eligible⟩
      have offloaded := offload_eq_ok_iff.mpr
        ⟨mask, eligible, sameField_iff.mpr sameField, rfl, rfl⟩
      exact ⟨_, _, offloaded⟩
  · intro entry after offloaded
    rcases offload_eq_ok_iff.mp offloaded with ⟨mask, eligible, _, rfl, rfl⟩
    rcases offloadMask_eq_ok_iff.mp eligible with ⟨_, kept, flipped, _, mask_eq, transform_eq⟩
    refine ⟨⟨kept, _, transform_eq, by rw [mask_eq]⟩, length_of_offloadMask eligible placed,
      if_pos rfl, ?_⟩
    intro file fits
    refine ⟨bytesAt_eval_of_offloadMask eligible placed describes.packed fits, ?_⟩
    intro position outside
    exact word_eval_of_outside expression file outside

/-- Three bytes that are masked in place, once where the size of the field is known to be theirs and
once where it is known to be another one. -/
theorem offload_exact_partial_word :
    let kept : Immediate := ⟨Vector.ofFn fun position =>
      Bytes.wordAt [0xFF, 0x0F, 0xFF] position, 3, by decide, by decide⟩
    let flipped : Immediate := ⟨Vector.replicate 64 0, 3, by decide, by decide⟩
    let expression := maskInPlace ⟨4⟩ kept flipped
    let file : RegisterFile := ⟨#[0, 0, 0, 0, 0x12345678]⟩
    (∃ entry after, expression.offload (.setLength .empty ⟨4⟩ 3) = .ok (entry, after) ∧
      after.entry? ⟨4⟩ = some ⟨some 3, some [0xFF, 0x0F, 0xFF]⟩ ∧
      (expression.eval file).bytesAt ⟨4⟩ 3 = [0x12, 0x04, 0x56]) ∧
      ¬∃ entry after, expression.offload (.setLength .empty ⟨4⟩ 4) = .ok (entry, after) := by
  intro kept flipped expression file
  have accepted : ofTable ⟨8, by decide, by decide⟩
      ⟨#[none, some [0, 0, 0, 1], some [0, 0, 0, 1], some [0, 0, 0, 3],
        some [0, 7, 0, 1, 0xFF, 0x0F, 0xFF, 0], some [0, 7, 0, 1, 0, 0, 0, 0]]⟩ =
        .ok expression := by
    decide +kernel
  have zeroBytes : flipped.bytes = List.replicate 3 0 := by decide +kernel
  have keptBytes : kept.bytes = [0xFF, 0x0F, 0xFF] := by decide +kernel
  constructor
  · rcases offload_exact accepted (.setLength .empty ⟨4⟩ 3) with ⟨exact_iff, records⟩
    rcases exact_iff.mpr ⟨rfl, ⟨kept, flipped, rfl, zeroBytes⟩, Or.inr rfl⟩
      with ⟨entry, after, offloaded⟩
    rcases records entry after offloaded with ⟨⟨_, _, transform_eq, rfl⟩, _, recorded, software⟩
    cases transform_eq
    have masked := (software file (by decide)).1
    rw [keptBytes] at recorded masked
    have value : (file.bytesAt ⟨4⟩ 3).masked [0xFF, 0x0F, 0xFF] = [0x12, 0x04, 0x56] := by decide
    exact ⟨_, after, offloaded, recorded, masked.trans value⟩
  · intro offloaded
    rcases (offload_exact accepted (.setLength .empty ⟨4⟩ 4)).1.mp offloaded
      with ⟨_, _, absent | same⟩
    · cases absent
    · cases same

end Bitwise

end PacketExpr
