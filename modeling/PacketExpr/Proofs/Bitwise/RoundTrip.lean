import PacketExpr.Proofs.Attribute.Session
import PacketExpr.Proofs.Bitwise.Encoding
import PacketExpr.Proofs.Immediate.Decoding

/-!
# Writing and reading expressions

An expression that has been accepted in some layout is read back from its encoding as it was: with
the same registers, length and operation, and with operands in the form that they had.  This holds
in every layout with room for its span.

Together with `Bitwise.emits_put` this says what dumping does in every session of a writer: it adds
the encoding if there is room for it, and fails without touching what is there if not.
-/

namespace PacketExpr

namespace Layout

/-- The number under which a register is written names the register again. -/
theorem Holds.wordOfNumber?_eq {layout : Layout} {register : Register} {size : Nat}
    (holds : layout.Holds register size) :
    wordOfNumber? register.number.toNat = some register.word := by
  have inFile := holds.inFile
  have le_maxWords := layout.le_maxWords
  have size_pos := holds.size_pos
  apply wordOfNumber?_number (Or.inr holds.behindVerdict)
  simp only [wordCount] at inFile
  omega

end Layout

namespace Bitwise

/-- Every immediate of the expression is what its bytes pack into. -/
def Packed (expression : Bitwise) : Prop :=
  ∀ immediate ∈ expression.transform.immediates,
    Immediate.ofBytes? immediate.bytes = some immediate

/-- An immediate that a table describes came out of a value, so its bytes are packed as it is. -/
theorem DescribesOperand.packs {layout : Layout} {table : AttributeTable} {length : Nat}
    {value register : Field} {operand : Operand} {immediate : Immediate}
    (describes : DescribesOperand layout table length value register operand)
    (isImmediate : operand.immediate? = some immediate) :
    Immediate.ofBytes? immediate.bytes = some immediate := by
  cases operand with
  | immediate other =>
      cases isImmediate
      rcases describes with ⟨_, _, _, decoded, _⟩
      exact Immediate.packs_of_decode decoded
  | register place => cases isImmediate

theorem Describes.packed {layout : Layout} {table : AttributeTable} {expression : Bitwise}
    (describes : Describes layout table expression) : expression.Packed := by
  intro immediate immediate_mem
  rcases Transform.mem_immediates_iff.mp immediate_mem with ⟨operand, operand_mem, isImmediate⟩
  rcases describes.operand operand_mem with ⟨_, _, describesOperand⟩
  exact describesOperand.packs isImmediate

/-- The immediate of an operand is what its bytes pack into, and it has the length of the
expression. -/
theorem Packed.operand {layout : Layout} {expression : Bitwise} (packed : expression.Packed)
    (placed : expression.WellPlaced layout) {operand : Operand}
    (operand_mem : operand ∈ expression.transform.operands) :
    ∀ immediate ∈ operand.immediate?, Immediate.ofBytes? immediate.bytes = some immediate ∧
      immediate.size = expression.length := by
  intro immediate isImmediate
  have immediate_mem : immediate ∈ expression.transform.immediates :=
    Transform.mem_immediates_iff.mpr ⟨operand, operand_mem, isImmediate⟩
  exact ⟨packed immediate immediate_mem, placed.immediates immediate immediate_mem⟩

/-- There is room for the value of an operand at its register. -/
theorem WellPlaced.operand {layout : Layout} {expression : Bitwise}
    (placed : expression.WellPlaced layout) {operand : Operand}
    (operand_mem : operand ∈ expression.transform.operands) :
    ∀ place ∈ operand.register?, layout.Holds place expression.length :=
  fun _ isRegister => placed.holds (operand_mem_registers operand_mem isRegister)

/-- The table of the attributes of an expression. -/
def table (expression : Bitwise) : AttributeTable :=
  AttributeTable.holding schema expression.attributes

theorem operandAttribute_taken {value register : Field}
    (isNested : schema.policy? value.kind = some .nested)
    (isWord : schema.policy? register.kind = some .word) (operand : Operand) :
    ∃ field : Field, field.Takes (operandAttribute value register operand) := by
  cases operand with
  | immediate immediate => exact ⟨value, .value immediate.bytes isNested⟩
  | register place => exact ⟨register, .word place.number isWord⟩

theorem transformAttributes_taken (transform : Transform) :
    ∀ attr ∈ transformAttributes transform, ∃ field : Field, field.Takes attr := by
  cases transform with
  | boolean mask xor =>
      simp only [transformAttributes, List.forall_mem_cons, List.not_mem_nil, false_implies,
        implies_true, and_true]
      exact ⟨operandAttribute_taken rfl rfl mask, operandAttribute_taken rfl rfl xor⟩
  | shiftLeft amount => exact List.forall_mem_singleton.mpr ⟨.data, .value _ rfl⟩
  | shiftRight amount => exact List.forall_mem_singleton.mpr ⟨.data, .value _ rfl⟩

/-- An expression is written as a list of fields, whatever form its operands have. -/
theorem isFieldList_attributes (expression : Bitwise) : IsFieldList expression.attributes where
  taken := by
    intro attr attr_mem
    rcases List.mem_append.mp attr_mem with header_mem | transform_mem
    · simp only [List.mem_cons, List.not_mem_nil, or_false] at header_mem
      rcases header_mem with rfl | rfl | rfl | rfl
      · exact ⟨.source, .word _ rfl⟩
      · exact ⟨.destination, .word _ rfl⟩
      · exact ⟨.length, .word _ rfl⟩
      · exact ⟨.operation, .word _ rfl⟩
    · exact transformAttributes_taken expression.transform attr transform_mem
  distinct := by
    rcases expression with ⟨source, destination, length, transform⟩
    cases transform with
    | boolean mask xor =>
        cases mask <;> cases xor <;>
          simp [attributes, transformAttributes, operandAttribute, Field.kind]
    | shiftLeft amount => simp [attributes, transformAttributes, Field.kind]
    | shiftRight amount => simp [attributes, transformAttributes, Field.kind]

theorem parse_encoding {layout : Layout} {expression : Bitwise}
    (placed : expression.WellPlaced layout) :
    AttributeTable.parse schema expression.encoding = .ok expression.table := by
  apply expression.isFieldList_attributes.parse_encodeAll
  exact Nat.le_trans (length_encoding_le placed) (by decide)

theorem describesOperation_table (expression : Bitwise) :
    DescribesOperation expression.table expression.transform.operation :=
  Or.inl (expression.isFieldList_attributes.word?_of_word (by simp [attributes]))

/-- The amount is a word in the field for the data, and none of the operands is present beside
it. -/
theorem describesAmount_table {expression : Bitwise} {amount : Nat} (amount_lt : amount < 32)
    (same : transformAttributes expression.transform =
      [Field.data.value (Bytes.ofWord (UInt32.ofNat amount))]) :
    DescribesAmount expression.table amount := by
  have amountWord : (UInt32.ofNat amount).toNat = amount :=
    UInt32.toNat_ofNat_of_lt' (Nat.lt_trans amount_lt (by decide))
  have value_mem : Field.data.value (Bytes.ofWord (UInt32.ofNat amount)) ∈
      expression.attributes := by
    simp [attributes, same]
  have decoded := Immediate.decode_encode (Immediate.ofBytes?_ofWord (UInt32.ofNat amount))
  have found := expression.isFieldList_attributes.get?_of_value value_mem
  refine ⟨?_, _, _, found, decoded, rfl, ?_, amount_lt⟩
  rotate_left
  · rw [Immediate.word_ofWord, amountWord]
  intro field field_mem
  apply AttributeTable.get?_holding_of_absent
  simp only [List.mem_cons, List.not_mem_nil, or_false] at field_mem
  rcases field_mem with rfl | rfl | rfl | rfl <;> simp [attributes, same, Field.kind]

/-- The only attribute for an operand describes it. -/
theorem describesOperand_table {layout : Layout} {expression : Bitwise} {value register : Field}
    {operand : Operand}
    (operand_mem : operandAttribute value register operand ∈ expression.attributes)
    (alone : ∀ attr ∈ expression.attributes, attr.kind = value.kind ∨ attr.kind = register.kind →
      attr = operandAttribute value register operand)
    (different : value.kind ≠ register.kind)
    (holds : ∀ place ∈ operand.register?, layout.Holds place expression.length)
    (packs : ∀ immediate ∈ operand.immediate?,
      Immediate.ofBytes? immediate.bytes = some immediate ∧ immediate.size = expression.length) :
    DescribesOperand layout expression.table expression.length value register operand := by
  have listed := expression.isFieldList_attributes
  cases operand with
  | immediate immediate =>
      have noRegister : expression.table.get? register.kind = none := by
        apply AttributeTable.get?_holding_of_absent
        intro attr attr_mem sameKind
        rw [alone attr attr_mem (Or.inr sameKind), operandAttribute, Field.kind_value] at sameKind
        exact different sameKind
      rcases packs immediate rfl with ⟨packs, sameSize⟩
      exact ⟨noRegister, _, listed.get?_of_value operand_mem, Immediate.decode_encode packs,
        sameSize⟩
  | register place =>
      have noValue : expression.table.get? value.kind = none := by
        apply AttributeTable.get?_holding_of_absent
        intro attr attr_mem sameKind
        rw [alone attr attr_mem (Or.inl sameKind), operandAttribute, Field.kind_word] at sameKind
        exact different sameKind.symm
      have holds := holds place rfl
      exact ⟨noValue, _, listed.word?_of_word operand_mem, holds.wordOfNumber?_eq, holds⟩

/-- Each operand is in one of its two fields, and the field for the data is not used. -/
theorem describesBoolean_table {layout : Layout} {source destination : Register} {length : Nat}
    {mask xor : Operand}
    (placed : WellPlaced layout ⟨source, destination, length, .boolean mask xor⟩)
    (packed : Packed ⟨source, destination, length, .boolean mask xor⟩) :
    DescribesTransform layout (table ⟨source, destination, length, .boolean mask xor⟩) length
      (.boolean mask xor) := by
  have maskOperand : mask ∈ (Transform.boolean mask xor).operands := List.mem_cons_self
  have xorOperand : xor ∈ (Transform.boolean mask xor).operands :=
    List.mem_cons_of_mem _ (List.mem_singleton_self xor)
  refine ⟨?_, ?_, ?_⟩
  · apply AttributeTable.get?_holding_of_absent
    cases mask <;> cases xor <;>
      simp [attributes, transformAttributes, operandAttribute, Field.kind]
  · refine describesOperand_table (by simp [attributes, transformAttributes]) ?_ (by decide)
      (placed.operand maskOperand) (packed.operand placed maskOperand)
    cases mask <;> cases xor <;>
      simp [attributes, transformAttributes, operandAttribute, Field.kind]
  · refine describesOperand_table (by simp [attributes, transformAttributes]) ?_ (by decide)
      (placed.operand xorOperand) (packed.operand placed xorOperand)
    cases mask <;> cases xor <;>
      simp [attributes, transformAttributes, operandAttribute, Field.kind]

theorem describesTransform_table {layout : Layout} {expression : Bitwise}
    (placed : expression.WellPlaced layout) (packed : expression.Packed) :
    DescribesTransform layout expression.table expression.length expression.transform := by
  rcases expression with ⟨source, destination, length, transform⟩
  cases transform with
  | boolean mask xor => exact describesBoolean_table placed packed
  | shiftLeft amount => exact describesAmount_table (placed.amount amount rfl) rfl
  | shiftRight amount => exact describesAmount_table (placed.amount amount rfl) rfl

/-- The attributes of a well placed expression describe it. -/
theorem describes_table {layout : Layout} {expression : Bitwise}
    (placed : expression.WellPlaced layout) (packed : expression.Packed) :
    Describes layout expression.table expression := by
  have listed := expression.isFieldList_attributes
  have holdsSource : layout.Holds expression.source expression.length :=
    placed.holds expression.source_mem_registers
  have holdsDestination : layout.Holds expression.destination expression.length :=
    placed.holds expression.destination_mem_registers
  have lengthWord : (UInt32.ofNat expression.length).toNat = expression.length :=
    UInt32.toNat_ofNat_of_lt' (Nat.lt_of_le_of_lt placed.length_le (by decide))
  exact ⟨⟨_, listed.word?_of_word (by simp [attributes]), holdsSource.wordOfNumber?_eq⟩,
    ⟨_, listed.word?_of_word (by simp [attributes]), holdsDestination.wordOfNumber?_eq⟩,
    ⟨_, listed.word?_of_word (by simp [attributes]), lengthWord⟩,
    placed.length_le, holdsSource, holdsDestination, describesOperation_table expression,
    describesTransform_table placed packed⟩

/-- A packed expression is read back from its encoding in every layout in which it is well
placed. -/
theorem decode_encoding {layout : Layout} {expression : Bitwise}
    (placed : expression.WellPlaced layout) (packed : expression.Packed) :
    decode layout expression.encoding = .ok expression :=
  decode_eq_ok_iff.mpr ⟨_, parse_encoding placed, describes_table placed packed⟩

/-- Dumping an accepted expression is undone by decoding, in every layout with room for its span.
It takes exactly the bytes that the size of the expression asks for: if a writer has room for them
they are added, the same ones in every case, and if not the writer keeps what it had. -/
theorem dump_decode {layout : Layout} {message : Bytes} {expression : Bitwise}
    (accepted : decode layout message = .ok expression) :
    expression.encoding.length = expression.encodedSize ∧
      (∀ other : Layout, expression.span ≤ other.words →
        decode other expression.encoding = .ok expression) ∧
      ∀ (limit : Nat) (session : Session), Session.Reachable limit session →
        let before := session.writer
        (before.bytes.length + expression.encodedSize ≤ limit →
          expression.dump.run before = .ok () (before.append expression.encoding)) ∧
        (limit < before.bytes.length + expression.encodedSize →
          ∃ left, expression.dump.run before = .error (.encodingFailure .noSpace) left ∧
            left.bytes.take before.bytes.length = before.bytes ∧ left.bytes.length ≤ limit) := by
  rcases decode_eq_ok_iff.mp accepted with ⟨_, _, describes⟩
  have placed := describes.wellPlaced
  have encodedLength := length_encoding placed
  have emits := emits_put expression
  refine ⟨encodedLength, ?_, ?_⟩
  · intro other room
    exact decode_encoding (placed.of_span_le room) describes.packed
  · intro limit session reachable before
    have valid := reachable.valid
    have limit_eq : before.limit = limit := valid.limit_eq
    rw [← encodedLength, ← limit_eq]
    constructor
    · intro room
      exact dump_eq_ok expression valid.sound room
    · intro tooLong
      rcases emits.fails before valid.sound tooLong with ⟨left, failed, later⟩
      refine ⟨left, ?_, ?_, ?_⟩
      · simp only [dump, EStateM.adaptExcept, EStateM.run, failed]
      · exact (List.prefix_iff_eq_take.mp later.bytes).symm
      · rw [← later.limit]
        exact later.length_le

/-- A mask of five bytes next to a register: the message takes 56 bytes, so a budget of 55 is too
small, and it is read back in the largest layout. -/
theorem dump_decode_mask :
    decode ⟨1024, by decide, by decide⟩ striped.encoding = .ok striped ∧
      striped.dump.run (Writer.blank 56) = .ok () ⟨striped.encoding, 56⟩ ∧
      ∃ left, striped.dump.run (Writer.blank 55) = .error (.encodingFailure .noSpace) left := by
  rcases dump_decode decode_stripedMessage with ⟨_, readBack, dumped⟩
  have enough := (dumped 56 ⟨Writer.blank 56, []⟩ .blank).1
  have tooLittle := (dumped 55 ⟨Writer.blank 55, []⟩ .blank).2
  refine ⟨readBack _ (by decide), enough (by decide), ?_⟩
  rcases tooLittle (by decide) with ⟨left, failed, _⟩
  exact ⟨left, failed⟩

end Bitwise

end PacketExpr
