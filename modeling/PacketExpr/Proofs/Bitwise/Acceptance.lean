import PacketExpr.Proofs.Bitwise.RoundTrip

/-!
# Which messages are accepted

A message is accepted if its attributes can be read under the schema and the fields of their table
keep some rules.  `Bitwise.Acceptable` states these rules for the fields alone, without the
expression that they make, and `Bitwise.decode_eq_ok_iff_acceptable` says that no other rules exist:
whatever keeps them is accepted, and only that.  The expression is then the one that the fields
describe.
-/

namespace PacketExpr

theorem Bytes.toNat_firstWord {bytes : Bytes} (oneWord : bytes.length = 4) :
    (firstWord bytes).toNat = toNat bytes := by
  have whole : ofWord (firstWord bytes) = bytes := by
    rw [ofWord_firstWord, oneWord, List.take_of_length_le (by omega)]
    simp
  rw [← toNat_ofWord, whole]

/-- The first word of a decoded value of four bytes is the number that they denote. -/
theorem Immediate.toNat_word_zero {nested : Bytes} {value : Immediate}
    (decoded : decode nested = .ok value) (oneWord : value.size = 4) :
    (value.word 0).toNat = Bytes.toNat value.bytes := by
  have fourBytes : value.bytes.length = 4 := by
    rw [length_bytes, oneWord]
  rw [word_eq_wordAt (packs_of_decode decoded) (by decide)]
  exact Bytes.toNat_firstWord fourBytes

theorem Attribute.exists_of_lastPayload? {kind : Nat} {attributes : List Attribute}
    {payload : Bytes} (found : lastPayload? kind attributes = some payload) :
    ∃ attr ∈ attributes, attr.kind = kind ∧ attr.payload = payload := by
  simp only [lastPayload?, Option.map_eq_some_iff] at found
  rcases found with ⟨attr, isLast, samePayload⟩
  have attr_mem := List.mem_of_getLast? isLast
  simp only [List.mem_filter, decide_eq_true_eq] at attr_mem
  exact ⟨attr, attr_mem.1, attr_mem.2, samePayload⟩

namespace AttributeTable

variable {schema : Schema} {table : AttributeTable} {bytes payload : Bytes} {kind : Nat}

/-- Whatever a table holds of a kind is admitted by the policy of the kind. -/
theorem admits_of_parse {policy : Policy} (parsed : parse schema bytes = .ok table)
    (covers : schema.policy? kind = some policy) (found : table.get? kind = some payload) :
    policy.admits payload = true := by
  rcases parse_eq_ok_iff.mp parsed with ⟨_, pass, rfl⟩
  rw [get?_holding, covers] at found
  rcases Attribute.exists_of_lastPayload? found with ⟨attr, attr_mem, rfl, rfl⟩
  exact pass attr attr_mem policy covers

theorem has_of_word? {number : UInt32} (found : table.word? kind = some number) :
    table.has kind = true := by
  simp only [word?, Option.bind_eq_some_iff] at found
  rcases found with ⟨payload, present, _⟩
  exact has_eq_true_iff.mpr ⟨payload, present⟩

/-- Under a schema that asks for a word, a kind without a word is missing. -/
theorem word?_eq_none_iff_of_parse (parsed : parse schema bytes = .ok table)
    (covers : schema.policy? kind = some .word) :
    table.word? kind = none ↔ table.has kind = false := by
  rw [has_eq_false_iff]
  constructor
  · intro noWord
    cases found : table.get? kind with
    | none => rfl
    | some payload =>
        have fourBytes := admits_of_parse parsed covers found
        simp only [Policy.admits, beq_iff_eq] at fourBytes
        simp [word?, found, Bytes.toWord?, fourBytes] at noWord
  · intro missing
    simp [word?, missing]

end AttributeTable

namespace Bitwise

/-- A field names a register behind the verdict with room for `length` bytes inside the file. -/
def NamesPlace (layout : Layout) (table : AttributeTable) (field : Field) (length : Nat) : Prop :=
  ∃ number register, table.word? field.kind = some number ∧ layout.resolve number = .ok register ∧
    4 ≤ register.word ∧ register.word + wordCount length ≤ layout.words

/-- A field holds a plain value of `length` bytes. -/
def HoldsValue (table : AttributeTable) (field : Field) (length : Nat) : Prop :=
  ∃ nested value, table.get? field.kind = some nested ∧
    Immediate.decode nested = .ok value ∧ value.size = length

/-- Exactly one of two fields is present, and it gives an operand of `length` bytes. -/
structure AcceptableOperand (layout : Layout) (table : AttributeTable) (length : Nat)
    (value register : Field) : Prop where
  exclusive : table.has value.kind ≠ table.has register.kind
  value_of_has : table.has value.kind = true → HoldsValue table value length
  register_of_has : table.has register.kind = true → NamesPlace layout table register length

structure AcceptableBoolean (layout : Layout) (table : AttributeTable) (length : Nat) : Prop where
  noData : table.has Field.data.kind = false
  mask : AcceptableOperand layout table length .mask .maskRegister
  xor : AcceptableOperand layout table length .xor .xorRegister

structure AcceptableShift (table : AttributeTable) : Prop where
  noOperand : ∀ field ∈ [Field.mask, .xor, .maskRegister, .xorRegister],
    table.has field.kind = false
  amount : ∃ nested value, table.get? Field.data.kind = some nested ∧
    Immediate.decode nested = .ok value ∧ value.size = 4 ∧ Bytes.toNat value.bytes < 32

/-- The fields are those of the operation that is named, or of a boolean one if none is. -/
def AcceptableTransform (layout : Layout) (table : AttributeTable) (length : Nat) : Prop :=
  (table.has Field.operation.kind = false ∨ table.word? Field.operation.kind = some 0) ∧
      AcceptableBoolean layout table length ∨
    (table.word? Field.operation.kind = some 1 ∨ table.word? Field.operation.kind = some 2) ∧
      AcceptableShift table

/-- The fields of a table make an expression in a register file of the given layout. -/
def Acceptable (layout : Layout) (table : AttributeTable) : Prop :=
  ∃ length, table.word? Field.length.kind = some length ∧ 1 ≤ length.toNat ∧ length.toNat ≤ 255 ∧
    NamesPlace layout table .source length.toNat ∧
    NamesPlace layout table .destination length.toNat ∧
    AcceptableTransform layout table length.toNat

variable {layout : Layout} {table : AttributeTable} {length : Nat}

/-- A register that is named with room for the value is found inside the file, and so it is the
place that the number stands for. -/
theorem namesPlace_iff {field : Field} (length_pos : 1 ≤ length) :
    NamesPlace layout table field length ↔
      ∃ number place, table.word? field.kind = some number ∧
        Layout.wordOfNumber? number.toNat = some place.word ∧ layout.Holds place length := by
  constructor
  · rintro ⟨number, register, found, resolved, behindVerdict, inFile⟩
    have names := (Layout.resolve_eq_ok_iff.mp resolved).1
    exact ⟨number, register, found, names, behindVerdict, length_pos, inFile⟩
  · rintro ⟨number, place, found, names, holds⟩
    have inFile := holds.inFile
    have begins : place.word < layout.words := by
      simp only [wordCount] at inFile
      omega
    exact ⟨number, place, found, Layout.resolve_eq_ok_iff.mpr ⟨names, begins⟩,
      holds.behindVerdict, inFile⟩

/-- The rules for two fields leave one operand to describe, whose form is that of the field which is
present. -/
theorem acceptableOperand_iff {value register : Field} (length_pos : 1 ≤ length) :
    AcceptableOperand layout table length value register ↔
      ∃ operand, DescribesOperand layout table length value register operand := by
  constructor
  · rintro ⟨exclusive, value_of_has, register_of_has⟩
    cases hasValue : table.has value.kind with
    | true =>
        have noRegister : table.has register.kind = false := by
          simpa [hasValue] using exclusive
        rcases value_of_has hasValue with ⟨nested, immediate, found, decoded, sameSize⟩
        exact ⟨.immediate immediate, AttributeTable.has_eq_false_iff.mp noRegister, nested, found,
          decoded, sameSize⟩
    | false =>
        have hasRegister : table.has register.kind = true := by
          simpa [hasValue] using exclusive
        rcases (namesPlace_iff length_pos).mp (register_of_has hasRegister) with
          ⟨number, place, found, names, holds⟩
        exact ⟨.register place, AttributeTable.has_eq_false_iff.mp hasValue, number, found, names,
          holds⟩
  · rintro ⟨operand, describes⟩
    cases operand with
    | immediate immediate =>
        rcases describes with ⟨noRegister, nested, found, decoded, sameSize⟩
        have hasValue := AttributeTable.has_eq_true_iff.mpr ⟨nested, found⟩
        have hasRegister := AttributeTable.has_eq_false_iff.mpr noRegister
        constructor
        · simp [hasValue, hasRegister]
        · intro _
          exact ⟨nested, immediate, found, decoded, sameSize⟩
        · simp [hasRegister]
    | register place =>
        rcases describes with ⟨noValue, number, found, names, holds⟩
        have hasValue := AttributeTable.has_eq_false_iff.mpr noValue
        have hasRegister := AttributeTable.has_of_word? found
        constructor
        · simp [hasValue, hasRegister]
        · simp [hasValue]
        · intro _
          exact (namesPlace_iff length_pos).mpr ⟨number, place, found, names, holds⟩

theorem acceptableBoolean_iff (length_pos : 1 ≤ length) :
    AcceptableBoolean layout table length ↔
      ∃ mask xor, DescribesTransform layout table length (.boolean mask xor) := by
  constructor
  · rintro ⟨noData, acceptsMask, acceptsXor⟩
    rcases (acceptableOperand_iff length_pos).mp acceptsMask with ⟨mask, describesMask⟩
    rcases (acceptableOperand_iff length_pos).mp acceptsXor with ⟨xor, describesXor⟩
    exact ⟨mask, xor, AttributeTable.has_eq_false_iff.mp noData, describesMask, describesXor⟩
  · rintro ⟨mask, xor, noData, describesMask, describesXor⟩
    exact ⟨AttributeTable.has_eq_false_iff.mpr noData,
      (acceptableOperand_iff length_pos).mpr ⟨mask, describesMask⟩,
      (acceptableOperand_iff length_pos).mpr ⟨xor, describesXor⟩⟩

theorem acceptableShift_iff : AcceptableShift table ↔ ∃ amount, DescribesAmount table amount := by
  constructor
  · rintro ⟨noOperand, nested, value, found, decoded, oneWord, amount_lt⟩
    rw [← Immediate.toNat_word_zero decoded oneWord] at amount_lt
    refine ⟨_, ?_, nested, value, found, decoded, oneWord, rfl, amount_lt⟩
    intro field field_mem
    exact AttributeTable.has_eq_false_iff.mp (noOperand field field_mem)
  · rintro ⟨_, absent, nested, value, found, decoded, oneWord, rfl, amount_lt⟩
    rw [Immediate.toNat_word_zero decoded oneWord] at amount_lt
    refine ⟨?_, nested, value, found, decoded, oneWord, amount_lt⟩
    intro field field_mem
    exact AttributeTable.has_eq_false_iff.mpr (absent field field_mem)

/-- The fields are those of an operation if and only if they describe a transform of it; only a
boolean one may go without a name, and only where the field is missing altogether. -/
theorem acceptableTransform_iff {message : Bytes}
    (parsed : AttributeTable.parse schema message = .ok table) (length_pos : 1 ≤ length) :
    AcceptableTransform layout table length ↔
      ∃ transform : Transform, DescribesOperation table transform.operation ∧
        DescribesTransform layout table length transform := by
  have unnamed_iff : table.word? Field.operation.kind = none ↔
      table.has Field.operation.kind = false :=
    AttributeTable.word?_eq_none_iff_of_parse parsed rfl
  constructor
  · rintro (⟨operationSays, boolean⟩ | ⟨operationSays, shift⟩)
    · rcases (acceptableBoolean_iff length_pos).mp boolean with ⟨mask, xor, describes⟩
      refine ⟨.boolean mask xor, ?_, describes⟩
      rcases operationSays with missing | named
      · exact Or.inr ⟨unnamed_iff.mpr missing, rfl⟩
      · exact Or.inl named
    · rcases acceptableShift_iff.mp shift with ⟨amount, describes⟩
      rcases operationSays with named | named
      · exact ⟨.shiftLeft amount, Or.inl named, describes⟩
      · exact ⟨.shiftRight amount, Or.inl named, describes⟩
  · rintro ⟨transform, operationSays, describes⟩
    cases transform with
    | boolean mask xor =>
        left
        refine ⟨?_, (acceptableBoolean_iff length_pos).mpr ⟨mask, xor, describes⟩⟩
        rcases operationSays with named | ⟨unnamed, _⟩
        · exact Or.inr named
        · exact Or.inl (unnamed_iff.mp unnamed)
    | shiftLeft amount =>
        right
        refine ⟨?_, acceptableShift_iff.mpr ⟨amount, describes⟩⟩
        rcases operationSays with named | ⟨_, ⟨⟩⟩
        exact Or.inl named
    | shiftRight amount =>
        right
        refine ⟨?_, acceptableShift_iff.mpr ⟨amount, describes⟩⟩
        rcases operationSays with named | ⟨_, ⟨⟩⟩
        exact Or.inr named

theorem acceptable_of_describes {message : Bytes} {expression : Bitwise}
    (parsed : AttributeTable.parse schema message = .ok table)
    (describes : Describes layout table expression) : Acceptable layout table := by
  rcases describes.length with ⟨length, lengthFound, sameLength⟩
  rcases describes.source with ⟨source, sourceFound, sourceNames⟩
  rcases describes.destination with ⟨destination, destinationFound, destinationNames⟩
  have length_pos := describes.holdsSource.size_pos
  refine ⟨length, lengthFound, ?_⟩
  rw [sameLength, namesPlace_iff length_pos, namesPlace_iff length_pos,
    acceptableTransform_iff parsed length_pos]
  refine ⟨length_pos, describes.length_le, ?_, ?_, ?_⟩
  · exact ⟨source, expression.source, sourceFound, sourceNames, describes.holdsSource⟩
  · exact ⟨destination, expression.destination, destinationFound, destinationNames,
      describes.holdsDestination⟩
  · exact ⟨expression.transform, describes.operation, describes.transform⟩

/-- A table that keeps the rules describes an expression, which is put together from what its fields
give. -/
theorem exists_describes_of_acceptable {message : Bytes}
    (parsed : AttributeTable.parse schema message = .ok table)
    (acceptable : Acceptable layout table) :
    ∃ expression, Describes layout table expression := by
  rcases acceptable with
    ⟨length, lengthFound, length_pos, length_le, sourceNamed, destinationNamed, fields⟩
  rcases (namesPlace_iff length_pos).mp sourceNamed with
    ⟨sourceNumber, source, sourceFound, sourceNames, holdsSource⟩
  rcases (namesPlace_iff length_pos).mp destinationNamed with
    ⟨destinationNumber, destination, destinationFound, destinationNames, holdsDestination⟩
  rcases (acceptableTransform_iff parsed length_pos).mp fields with
    ⟨transform, operationSays, transformSays⟩
  exact ⟨⟨source, destination, length.toNat, transform⟩, {
    source := ⟨sourceNumber, sourceFound, sourceNames⟩
    destination := ⟨destinationNumber, destinationFound, destinationNames⟩
    length := ⟨length, lengthFound, rfl⟩
    length_le := length_le
    holdsSource := holdsSource
    holdsDestination := holdsDestination
    operation := operationSays
    transform := transformSays }⟩

/-- A message is accepted if and only if its attributes can be read and their fields are acceptable,
and then it makes the expression that the fields describe. -/
theorem decode_eq_ok_iff_acceptable (layout : Layout) (message : Bytes) :
    ((∃ expression, decode layout message = .ok expression) ↔
      ∃ table, AttributeTable.parse schema message = .ok table ∧ Acceptable layout table) ∧
    ∀ expression, decode layout message = .ok expression ↔
      ∃ table, AttributeTable.parse schema message = .ok table ∧
        Describes layout table expression := by
  refine ⟨?_, fun expression => decode_eq_ok_iff⟩
  constructor
  · rintro ⟨expression, accepted⟩
    rcases decode_eq_ok_iff.mp accepted with ⟨table, parsed, describes⟩
    exact ⟨table, parsed, acceptable_of_describes parsed describes⟩
  · rintro ⟨table, parsed, acceptable⟩
    rcases exists_describes_of_acceptable parsed acceptable with ⟨expression, describes⟩
    exact ⟨expression, decode_eq_ok_iff.mpr ⟨table, parsed, describes⟩⟩

end Bitwise

end PacketExpr
