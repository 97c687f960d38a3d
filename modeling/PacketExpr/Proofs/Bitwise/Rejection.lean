import PacketExpr.Proofs.Attribute.Level
import PacketExpr.Proofs.Bitwise.Acceptance
import PacketExpr.Proofs.Violation

/-!
# Why a message is refused

The checks that a message has to pass are listed here as rules, in the order in which they come:
`Bitwise.rules`.  Each rule says by itself when a message violates it, whatever other rules it
violates.  A message is refused if and only if it violates some rule, and what is reported is the
violation of the first one.

The rules about the place of a value come up for each register that is named, and those about an
immediate for each of them.  Some rules are only about boolean expressions and some only about
shifts.
-/

namespace PacketExpr

namespace Layout

/-- What is asked of the number of a register and of the size of a value that is held there. -/
inductive PlaceRule where
  | known
  | inFile
  | behindVerdict
  | someBytes
  | room

def PlaceRule.Violates (layout : Layout) (number : UInt32) (size : Nat) :
    PlaceRule → RegisterError → Prop
  | known, error => 5 ≤ number.toNat ∧ number.toNat ≤ 7 ∧ error = .unknown number
  | inFile, error => ∃ word, wordOfNumber? number.toNat = some word ∧ layout.words ≤ word ∧
      error = .outOfRange number
  | behindVerdict, error => ∃ word, wordOfNumber? number.toNat = some word ∧ word < 4 ∧
      error = .verdict
  | someBytes, error => size = 0 ∧ error = .zeroLength
  | room, error => ∃ register : Register, wordOfNumber? number.toNat = some register.word ∧
      layout.words * 4 < register.word * 4 + size ∧ error = .overflow register.number size

def placeRules : List PlaceRule := [.known, .inFile, .behindVerdict, .someBytes, .room]

variable {layout : Layout} {number : UInt32} {size : Nat}

theorem reports_resolve :
    Reports (PlaceRule.Violates layout number size) [.known, .inFile] (layout.resolve number) := by
  intro error
  simp only [resolve_eq_error_iff, firstViolation_cons_iff, not_firstViolation_nil, and_false,
    or_false, PlaceRule.Violates, ← and_assoc, ← wordOfNumber?_eq_none_iff]
  cases wordOfNumber? number.toNat with
  | none => simp
  | some word => simp

/-- A place is refused because of the verdict, of an empty value, or of a value that does not end in
the file; the bound that is checked in bytes is the one in words. -/
theorem reports_validate {register : Register}
    (names : wordOfNumber? number.toNat = some register.word) :
    Reports (PlaceRule.Violates layout number size) [.behindVerdict, .someBytes, .room]
      (layout.validate register size) := by
  have inVerdict_iff (error : RegisterError) :
      PlaceRule.Violates layout number size .behindVerdict error ↔
        register.word < Register.wideWords ∧ error = .verdict := by
    simp [PlaceRule.Violates, names, Register.wideWords]
  have overruns_iff (error : RegisterError) :
      PlaceRule.Violates layout number size .room error ↔
        register.word * 4 + size > layout.words * 4 ∧ error = .overflow register.number size := by
    simp only [PlaceRule.Violates, names, Option.some.injEq, ← Register.ext_iff, exists_eq_left',
      gt_iff_lt]
  have noBytes_iff (error : RegisterError) :
      PlaceRule.Violates layout number size .someBytes error ↔ size = 0 ∧ error = .zeroLength :=
    Iff.rfl
  intro error
  simp only [firstViolation_cons_iff, not_firstViolation_nil, and_false, or_false, inVerdict_iff,
    noBytes_iff, overruns_iff]
  unfold validate
  split
  · next inVerdict => simp [inVerdict, eq_comm]
  · next behindVerdict =>
      split
      · next noBytes => simp [behindVerdict, noBytes, eq_comm]
      · next someBytes =>
          split
          · next overruns => simp [behindVerdict, someBytes, overruns, eq_comm]
          · next inside => simp [behindVerdict, someBytes, inside]

/-- A register is refused for the first rule that its place violates. -/
theorem reports_resolveFor :
    Reports (PlaceRule.Violates layout number size) placeRules (layout.resolveFor number size) := by
  apply Reports.bind reports_resolve
  intro register resolved
  exact (reports_validate (resolve_eq_ok_iff.mp resolved).1).bind_pure fun _ => register

end Layout

theorem Operation.ofNumber?_eq_none_iff {number : UInt32} :
    ofNumber? number = none ↔ 2 < number.toNat := by
  have isZero : number = 0 ↔ number.toNat = 0 := UInt32.toNat_inj.symm
  have isOne : number = 1 ↔ number.toNat = 1 := UInt32.toNat_inj.symm
  have isTwo : number = 2 ↔ number.toNat = 2 := UInt32.toNat_inj.symm
  simp only [ofNumber?, isZero, isOne, isTwo]
  grind

/-- A value of fixed size is refused for what any value is refused for, or else for its size. -/
theorem Immediate.decodeExact_eq_error_iff {nested : Bytes} {size : Nat}
    {error : ImmediateError} :
    Immediate.decodeExact nested size = .error error ↔
      Immediate.decode nested = .error error ∨
        ∃ value, Immediate.decode nested = .ok value ∧ value.size ≠ size ∧
          error = .length size value.size := by
  rw [Immediate.decodeExact, bind_eq_error_iff]
  apply or_congr_right
  apply exists_congr
  intro value
  apply and_congr_right
  intro _
  split
  · next sameSize => simp [sameSize]
  · next otherSize => simp [otherSize, eq_comm]

namespace Bitwise

/-- A rule about the fields of a message. -/
inductive FieldRule where
  | present (field : Field)
  | absent (field : Field)
  /-- Exactly one of the two fields is there. -/
  | exclusive (value register : Field)
  | lengthInBounds
  /-- There is room for a value of the length in the register that the field names. -/
  | place (rule : Layout.PlaceRule) (field : Field)
  | knownOperation
  /-- The field holds an immediate. -/
  | decodes (field : Field)
  /-- The immediate in the field has the length of the expression. -/
  | ofLength (field : Field)
  /-- The immediate in the data field has four bytes. -/
  | ofOneWord
  | amountInBounds

/-- The table violates the rule, which is reported as the error. -/
def FieldRule.Violates (layout : Layout) (table : AttributeTable) :
    FieldRule → BitwiseError → Prop
  | present field, error => table.has field.kind = false ∧ error = .missingField field
  | absent field, error => table.has field.kind = true ∧ error = .conflictingFields field
  | exclusive value register, error =>
      table.has value.kind = table.has register.kind ∧ error = .conflictingFields value
  | lengthInBounds, error =>
      ∃ length, table.word? Field.length.kind = some length ∧ 255 < length.toNat ∧
        error = .invalidLength length
  | place rule field, error =>
      ∃ number length, table.word? field.kind = some number ∧
        table.word? Field.length.kind = some length ∧
        ∃ fault, rule.Violates layout number length.toNat fault ∧ error = .invalidRegister fault
  | knownOperation, error =>
      ∃ number, table.word? Field.operation.kind = some number ∧ 2 < number.toNat ∧
        error = .unsupportedOperation number
  | decodes field, error =>
      ∃ nested, table.get? field.kind = some nested ∧
        ∃ fault, Immediate.decode nested = .error fault ∧ error = .invalidEncoding fault
  | ofLength field, error =>
      ∃ nested value length, table.get? field.kind = some nested ∧
        Immediate.decode nested = .ok value ∧ table.word? Field.length.kind = some length ∧
        value.size ≠ length.toNat ∧ error = .invalidEncoding (.length length.toNat value.size)
  | ofOneWord, error =>
      ∃ nested value, table.get? Field.data.kind = some nested ∧
        Immediate.decode nested = .ok value ∧ value.size ≠ 4 ∧
        error = .invalidEncoding (.length 4 value.size)
  | amountInBounds, error =>
      ∃ nested value, table.get? Field.data.kind = some nested ∧
        Immediate.decode nested = .ok value ∧ 32 ≤ (value.word 0).toNat ∧
        error = .invalidShiftAmount (value.word 0)

def placeRules (field : Field) : List FieldRule :=
  Layout.placeRules.map (FieldRule.place · field)

/-- The rules about an operand, which is an immediate or in a register. -/
def operandRules (value register : Field) : List FieldRule :=
  [.decodes value, .ofLength value] ++ placeRules register

def headerRules : List FieldRule :=
  [.present .source, .present .destination, .present .length, .lengthInBounds]
    ++ placeRules .source ++ placeRules .destination ++ [.knownOperation]

def booleanRules : List FieldRule :=
  [.absent .data, .exclusive .mask .maskRegister, .exclusive .xor .xorRegister]
    ++ operandRules .mask .maskRegister ++ operandRules .xor .xorRegister

def shiftRules : List FieldRule :=
  [.absent .mask, .absent .xor, .absent .maskRegister, .absent .xorRegister, .present .data,
    .decodes .data, .ofOneWord, .amountInBounds]

/-- The parts of a message whose fields have rules. -/
inductive Part where
  | header
  | boolean
  | shift

/-- The message has the part.  Which of the last two it has depends on its operation. -/
def Part.Applies (table : AttributeTable) : Part → Prop
  | header => True
  | boolean => DescribesOperation table .boolean
  | shift => DescribesOperation table .shiftLeft ∨ DescribesOperation table .shiftRight

/-- A rule about a message. -/
inductive Rule where
  /-- The message is a level of attributes. -/
  | level
  | field (part : Part) (rule : FieldRule)

/-- The message violates the rule, which is reported as the error. -/
def Violates (layout : Layout) (message : Bytes) : Rule → BitwiseError → Prop
  | .level, error =>
      ∃ fault, Attribute.FirstFault schema message fault ∧ error = .invalidEncoding (.stream fault)
  | .field part rule, error =>
      ∃ table, AttributeTable.parse schema message = .ok table ∧ part.Applies table ∧
        rule.Violates layout table error

/-- All rules, in the order in which they are checked. -/
def rules : List Rule :=
  .level :: (headerRules.map (.field .header) ++
    (booleanRules.map (.field .boolean) ++ shiftRules.map (.field .shift)))

variable {layout : Layout} {table : AttributeTable} {message : Bytes} {length : UInt32}

/-- In a table that was accepted, a word is missing if and only if its field is. -/
theorem reports_requireWord {field : Field}
    (parsed : AttributeTable.parse schema message = .ok table)
    (isWord : schema.policy? field.kind = some .word) :
    Reports (FieldRule.Violates layout table) [.present field] (requireWord table field) := by
  apply Reports.of_iff
  intro error
  rw [FieldRule.Violates, ← AttributeTable.word?_eq_none_iff_of_parse parsed isWord, requireWord]
  cases table.word? field.kind with
  | none => simp [eq_comm]
  | some word => simp

theorem reports_checkLength (found : table.word? Field.length.kind = some length) :
    Reports (FieldRule.Violates layout table) [.lengthInBounds] (checkLength length) := by
  apply Reports.of_iff
  intro error
  simp only [FieldRule.Violates, found, Option.some.injEq, exists_eq_left']
  unfold checkLength
  split
  · next inBounds =>
      simp only [maxLength] at inBounds
      simp [inBounds]
  · next tooLong =>
      simp only [maxLength] at tooLong
      simp [Nat.lt_of_not_le tooLong, eq_comm]

/-- A number that names no register is refused before the place is looked at. -/
theorem reports_checkRegister {field : Field} {number : UInt32}
    (found : table.word? field.kind = some number)
    (lengthFound : table.word? Field.length.kind = some length) :
    Reports (FieldRule.Violates layout table) (placeRules field)
      (checkRegister layout number length.toNat) := by
  apply Layout.reports_resolveFor.mapError
  intro rule _ error
  simp only [FieldRule.Violates, found, lengthFound, Option.some.injEq, exists_eq_left',
    exists_and_left]

theorem reports_checkOperation :
    Reports (FieldRule.Violates layout table) [.knownOperation] (checkOperation table) := by
  apply Reports.of_iff
  intro error
  simp only [FieldRule.Violates, checkOperation]
  cases table.word? Field.operation.kind with
  | none => simp
  | some number =>
      simp only [Option.some.injEq, exists_eq_left', ← Operation.ofNumber?_eq_none_iff]
      cases Operation.ofNumber? number with
      | none => simp [eq_comm]
      | some operation => simp

/-- Two exclusive fields are refused with one error, where both are present and where both are
missing. -/
theorem reports_checkExclusive (value register : Field) :
    Reports (FieldRule.Violates layout table) [.exclusive value register]
      (checkExclusive table value register) := by
  apply Reports.of_iff
  intro error
  rw [FieldRule.Violates, checkExclusive]
  split
  · next same => simp [same, eq_comm]
  · next different => simp [different]

theorem reports_checkAbsent (fields : List Field) :
    Reports (FieldRule.Violates layout table) (fields.map .absent) (checkAbsent table fields) := by
  intro error
  rw [checkAbsent]
  induction fields with
  | nil => simp
  | cons field fields ih =>
      rw [List.map_cons, firstViolation_cons_iff, ← ih]
      cases present : table.has field.kind with
      | true => simp [FieldRule.Violates, present, eq_comm]
      | false => simp [FieldRule.Violates, present]

/-- An immediate that has to be of some size is refused for itself, or else for its size. -/
theorem reports_decodeExact {field : Field} {nested : Bytes} {size : Nat} {ofSize : FieldRule}
    (found : table.get? field.kind = some nested)
    (ofSize_iff : ∀ error, ofSize.Violates layout table error ↔
      ∃ value, Immediate.decode nested = .ok value ∧ value.size ≠ size ∧
        error = .invalidEncoding (.length size value.size)) :
    Reports (FieldRule.Violates layout table) [.decodes field, ofSize]
      ((Immediate.decodeExact nested size).mapError .invalidEncoding) := by
  have decodes_iff (error : BitwiseError) : FieldRule.Violates layout table (.decodes field) error ↔
      ∃ fault, Immediate.decode nested = .error fault ∧ error = .invalidEncoding fault := by
    simp only [FieldRule.Violates, found, Option.some.injEq, exists_eq_left']
  intro error
  simp only [mapError_eq_error_iff, Immediate.decodeExact_eq_error_iff, firstViolation_cons_iff,
    not_firstViolation_nil, and_false, or_false, decodes_iff, ofSize_iff]
  cases Immediate.decode nested with
  | error fault => simp
  | ok value => simp [and_assoc]

theorem allKept_placeRules {field : Field} (missing : table.word? field.kind = none) :
    AllKept (FieldRule.Violates layout table) (placeRules field) := by
  simp [AllKept, placeRules, FieldRule.Violates, missing]

theorem allKept_valueRules {field : Field} (missing : table.get? field.kind = none) :
    AllKept (FieldRule.Violates layout table) [.decodes field, .ofLength field] := by
  simp [FieldRule.Violates, missing]

/-- Of two exclusive fields the one that is missing keeps its rules, so those of the other one
decide.  Where a value is given no register is named, and the rules about places are kept. -/
theorem reports_readOperand {value register : Field}
    (parsed : AttributeTable.parse schema message = .ok table)
    (isWord : schema.policy? register.kind = some .word)
    (exclusive : table.has value.kind ≠ table.has register.kind)
    (lengthFound : table.word? Field.length.kind = some length) :
    Reports (FieldRule.Violates layout table) (operandRules value register)
      (readOperand layout table length.toNat value register) := by
  have unnamed_iff := AttributeTable.word?_eq_none_iff_of_parse parsed isWord
  unfold readOperand
  split
  · next nested found =>
      have hasValue : table.has value.kind = true :=
        AttributeTable.has_eq_true_iff.mpr ⟨nested, found⟩
      have noRegister : table.word? register.kind = none := by
        rw [unnamed_iff]
        simpa [hasValue] using exclusive
      apply Reports.append_kept _ (allKept_placeRules noRegister)
      apply Reports.bind_pure
      apply reports_decodeExact found
      intro error
      simp [FieldRule.Violates, found, lengthFound]
  · next missing =>
      have noValue : table.has value.kind = false := AttributeTable.has_eq_false_iff.mpr missing
      obtain ⟨number, named⟩ : ∃ number, table.word? register.kind = some number := by
        rw [← Option.ne_none_iff_exists', ne_eq, unnamed_iff]
        simpa [noValue] using exclusive
      have required : requireWord table register = .ok number := requireWord_eq_ok_iff.mpr named
      rw [required]
      apply Reports.kept_append (allKept_valueRules missing)
      exact (reports_checkRegister named lengthFound).bind_pure Operand.register

theorem reports_readBoolean (parsed : AttributeTable.parse schema message = .ok table)
    (lengthFound : table.word? Field.length.kind = some length) :
    Reports (FieldRule.Violates layout table) booleanRules
      (readBoolean layout table length.toNat) := by
  apply (reports_checkAbsent [.data]).bind
  intro _ _
  apply (reports_checkExclusive .mask .maskRegister).bind
  intro _ oneMask
  apply (reports_checkExclusive .xor .xorRegister).bind
  intro _ oneXor
  apply (reports_readOperand parsed rfl (checkExclusive_eq_ok_iff.mp oneMask) lengthFound).bind
  intro mask _
  exact (reports_readOperand parsed rfl (checkExclusive_eq_ok_iff.mp oneXor)
    lengthFound).bind_pure (Transform.boolean mask)

theorem reports_readAmount :
    Reports (FieldRule.Violates layout table) shiftRules (readAmount table) := by
  apply (reports_checkAbsent [.mask, .xor, .maskRegister, .xorRegister]).bind
  intro _ _
  split
  · next missing =>
      have noData : table.has Field.data.kind = false := AttributeTable.has_eq_false_iff.mpr missing
      intro error
      simp [firstViolation_cons_iff, FieldRule.Violates, noData, eq_comm]
  · next nested found =>
      have hasData : table.has Field.data.kind = true :=
        AttributeTable.has_eq_true_iff.mpr ⟨nested, found⟩
      change Reports (FieldRule.Violates layout table)
        ([.present .data] ++ ([.decodes .data, .ofOneWord] ++ [.amountInBounds])) _
      apply Reports.kept_append
      · simp [FieldRule.Violates, hasData]
      apply Reports.bind
      · apply reports_decodeExact found
        intro error
        simp [FieldRule.Violates, found]
      intro value decoded
      have read := (Immediate.decodeExact_eq_ok_iff.mp (mapError_eq_ok_iff.mp decoded)).1
      have tooLarge_iff (error : BitwiseError) :
          FieldRule.Violates layout table .amountInBounds error ↔
            32 ≤ (value.word 0).toNat ∧ error = .invalidShiftAmount (value.word 0) := by
        simp [FieldRule.Violates, found, read]
      apply Reports.of_iff
      intro error
      rw [tooLarge_iff]
      dsimp only
      split
      · next inBounds => simp [inBounds]
      · next tooLarge => simp [Nat.le_of_not_lt tooLarge, eq_comm]

theorem DescribesOperation.unique {operation other : Operation}
    (named : DescribesOperation table operation) (namedOther : DescribesOperation table other) :
    operation = other := by
  have first := checkOperation_eq_ok_iff.mpr named
  have second := checkOperation_eq_ok_iff.mpr namedOther
  rw [first] at second
  cases second
  rfl

/-- The rules of a part that the message has are those about its fields. -/
theorem reports_part {α : Type} {check : Except BitwiseError α} {fieldRules : List FieldRule}
    {part : Part} (parsed : AttributeTable.parse schema message = .ok table)
    (applies : part.Applies table)
    (reports : Reports (FieldRule.Violates layout table) fieldRules check) :
    Reports (Violates layout message) (fieldRules.map (.field part)) check := by
  apply reports.restate
  intro rule _ error
  simp [Violates, parsed, applies]

/-- The rules of a part that does not apply are kept. -/
theorem allKept_part {fieldRules : List FieldRule} {part : Part}
    (parsed : AttributeTable.parse schema message = .ok table)
    (appliesNot : ¬part.Applies table) :
    AllKept (Violates layout message) (fieldRules.map (.field part)) := by
  intro rule rule_mem error
  rcases List.mem_map.mp rule_mem with ⟨fieldRule, _, rfl⟩
  simp [Violates, parsed, appliesNot]

theorem not_boolean_of_shifts {operation : Operation} (named : DescribesOperation table operation)
    (shifts : operation ≠ .boolean) : ¬Part.boolean.Applies table := by
  intro namedBoolean
  exact shifts (named.unique namedBoolean)

theorem not_shift_of_boolean (named : DescribesOperation table .boolean) :
    ¬Part.shift.Applies table := by
  rintro (namedShift | namedShift)
  · cases named.unique namedShift
  · cases named.unique namedShift

/-- The operation decides whether the rules for operands or those for an amount apply; the other
ones are kept. -/
theorem reports_readTransform {operation : Operation}
    (parsed : AttributeTable.parse schema message = .ok table)
    (named : DescribesOperation table operation)
    (lengthFound : table.word? Field.length.kind = some length) :
    Reports (Violates layout message)
      (booleanRules.map (.field .boolean) ++ shiftRules.map (.field .shift))
      (readTransform layout table length.toNat operation) := by
  cases operation with
  | boolean =>
      apply Reports.append_kept _ (allKept_part parsed (not_shift_of_boolean named))
      exact reports_part parsed named (reports_readBoolean parsed lengthFound)
  | shiftLeft =>
      apply Reports.kept_append (allKept_part parsed (not_boolean_of_shifts named nofun))
      exact reports_part parsed (.inl named) (reports_readAmount.map Transform.shiftLeft)
  | shiftRight =>
      apply Reports.kept_append (allKept_part parsed (not_boolean_of_shifts named nofun))
      exact reports_part parsed (.inr named) (reports_readAmount.map Transform.shiftRight)

/-- The checks of the header are taken off the front one by one, each with its rules; the operation
that they find decides which rules are left. -/
theorem reports_ofTable (parsed : AttributeTable.parse schema message = .ok table) :
    Reports (Violates layout message)
      (headerRules.map (.field .header) ++
        (booleanRules.map (.field .boolean) ++ shiftRules.map (.field .shift)))
      (ofTable layout table) := by
  have hasHeader : Part.header.Applies table := trivial
  apply (reports_part parsed hasHeader (reports_requireWord parsed rfl)).bind
  intro sourceNumber sourceFound
  apply (reports_part parsed hasHeader (reports_requireWord parsed rfl)).bind
  intro destinationNumber destinationFound
  apply (reports_part parsed hasHeader (reports_requireWord parsed rfl)).bind
  intro length lengthRequired
  have lengthFound := requireWord_eq_ok_iff.mp lengthRequired
  apply (reports_part parsed hasHeader (reports_checkLength lengthFound)).bind
  intro size inBounds
  rcases checkLength_eq_ok_iff.mp inBounds with ⟨rfl, _⟩
  have sourceNamed := requireWord_eq_ok_iff.mp sourceFound
  apply (reports_part parsed hasHeader (reports_checkRegister sourceNamed lengthFound)).bind
  intro source _
  have destinationNamed := requireWord_eq_ok_iff.mp destinationFound
  apply (reports_part parsed hasHeader (reports_checkRegister destinationNamed lengthFound)).bind
  intro destination _
  apply (reports_part parsed hasHeader reports_checkOperation).bind
  intro operation named
  exact (reports_readTransform parsed (checkOperation_eq_ok_iff.mp named) lengthFound).bind_pure
    (Bitwise.mk source destination length.toNat)

theorem reports_parse :
    Reports (Violates layout message) [.level]
      ((AttributeTable.parse schema message).mapError fun fault =>
        BitwiseError.invalidEncoding (.stream fault)) := by
  apply Reports.of_iff
  intro error
  simp only [mapError_eq_error_iff, AttributeTable.parse_eq_error_iff_firstFault, Violates]

/-- A message is refused if and only if it violates a rule, and then for the first one. -/
theorem decode_eq_error_iff_firstViolation (layout : Layout) (message : Bytes)
    (error : BitwiseError) :
    decode layout message = .error error ↔
      FirstViolation (Violates layout message) rules error := by
  have reports : Reports (Violates layout message) rules (decode layout message) := by
    apply reports_parse.bind
    intro table accepted
    exact reports_ofTable (mapError_eq_ok_iff.mp accepted)
  exact reports error

end Bitwise

end PacketExpr
