import PacketExpr.Bitwise.Message
import PacketExpr.Proofs.Except
import PacketExpr.Proofs.Register.Naming

/-!
# The expression that a table describes

`Bitwise.ofTable` goes through the fields of a table check by check.  Here the same rules are stated
at once: `Bitwise.Describes` says what the fields have to hold for a table to describe a given
expression in a register file of a given layout, and `Bitwise.ofTable_eq_ok_iff` says that these are
the tables that are read as that expression.
-/

namespace PacketExpr

namespace Layout

/-- There is room for `size` bytes of a value at a register of the file, outside of the verdict. -/
structure Holds (layout : Layout) (register : Register) (size : Nat) : Prop where
  behindVerdict : Register.wideWords ≤ register.word
  size_pos : 0 < size
  inFile : register.word + wordCount size ≤ layout.words

/-- A place is valid if and only if there is room for the value; that the bytes are counted where
the words would do makes no difference. -/
theorem validate_eq_ok_iff {layout : Layout} {register : Register} {size : Nat} :
    layout.validate register size = .ok () ↔ layout.Holds register size := by
  have wholeWords : register.word * 4 + size ≤ layout.words * 4 ↔
      register.word + wordCount size ≤ layout.words := by
    simp only [wordCount]
    omega
  simp only [validate, ite_error_eq_ok_iff, Nat.not_lt, and_true, gt_iff_lt, wholeWords]
  constructor
  · rintro ⟨behindVerdict, size_ne, inFile⟩
    exact ⟨behindVerdict, Nat.pos_of_ne_zero size_ne, inFile⟩
  · rintro ⟨behindVerdict, size_pos, inFile⟩
    exact ⟨behindVerdict, Nat.ne_of_gt size_pos, inFile⟩

/-- The check that a number names a word of the file at all adds nothing to the check that the value
lies inside. -/
theorem resolveFor_eq_ok_iff {layout : Layout} {number : UInt32} {size : Nat}
    {register : Register} :
    layout.resolveFor number size = .ok register ↔
      wordOfNumber? number.toNat = some register.word ∧ layout.Holds register size := by
  simp only [resolveFor, bind_eq_ok_iff, resolve_eq_ok_iff, pure_eq_ok_iff]
  constructor
  · rintro ⟨found, ⟨names, _⟩, _, valid, rfl⟩
    exact ⟨names, validate_eq_ok_iff.mp valid⟩
  · rintro ⟨names, holds⟩
    have inFile := holds.inFile
    have size_pos := holds.size_pos
    refine ⟨register, ⟨names, ?_⟩, (), validate_eq_ok_iff.mpr holds, rfl⟩
    simp only [wordCount] at inFile
    omega

end Layout

theorem Operation.ofNumber?_eq_some_iff {number : UInt32} {operation : Operation} :
    ofNumber? number = some operation ↔ number = operation.number := by
  constructor
  · intro found
    simp only [ofNumber?] at found
    split at found
    · cases found
      assumption
    · split at found
      · cases found
        assumption
      · split at found
        · cases found
          assumption
        · cases found
  · rintro rfl
    exact ofNumber?_number operation

namespace AttributeTable

theorem has_eq_false_iff {table : AttributeTable} {kind : Nat} :
    table.has kind = false ↔ table.get? kind = none := by
  simp [has]

theorem has_eq_true_iff {table : AttributeTable} {kind : Nat} :
    table.has kind = true ↔ ∃ payload, table.get? kind = some payload := by
  simp [has, Option.isSome_iff_exists]

end AttributeTable

theorem Immediate.decodeExact_eq_ok_iff {nested : Bytes} {size : Nat} {value : Immediate} :
    decodeExact nested size = .ok value ↔ decode nested = .ok value ∧ value.size = size := by
  simp only [decodeExact, bind_eq_ok_iff]
  constructor
  · rintro ⟨found, decoded, checked⟩
    split at checked
    · cases checked
      exact ⟨decoded, by assumption⟩
    · cases checked
  · rintro ⟨decoded, sameSize⟩
    exact ⟨value, decoded, if_pos sameSize⟩

namespace Bitwise

/-- The operation field names an operation; without it the operation is a boolean one. -/
def DescribesOperation (table : AttributeTable) (operation : Operation) : Prop :=
  table.word? Field.operation.kind = some operation.number ∨
    table.word? Field.operation.kind = none ∧ operation = .boolean

/-- One of two fields, and not the other, gives an operand of `length` bytes. -/
def DescribesOperand (layout : Layout) (table : AttributeTable) (length : Nat)
    (value register : Field) : Operand → Prop
  | .immediate immediate =>
      table.get? register.kind = none ∧
        ∃ nested, table.get? value.kind = some nested ∧
          Immediate.decode nested = .ok immediate ∧ immediate.size = length
  | .register place =>
      table.get? value.kind = none ∧
        ∃ number, table.word? register.kind = some number ∧
          Layout.wordOfNumber? number.toNat = some place.word ∧ layout.Holds place length

/-- No operand is there, and the data field holds the amount of a shift as one word. -/
def DescribesAmount (table : AttributeTable) (amount : Nat) : Prop :=
  (∀ field ∈ [Field.mask, .xor, .maskRegister, .xorRegister], table.get? field.kind = none) ∧
    ∃ nested value, table.get? Field.data.kind = some nested ∧
      Immediate.decode nested = .ok value ∧ value.size = 4 ∧
      (value.word 0).toNat = amount ∧ amount < 32

/-- The fields of a transform of `length` bytes, apart from the operation. -/
def DescribesTransform (layout : Layout) (table : AttributeTable) (length : Nat) :
    Transform → Prop
  | .boolean mask xor =>
      table.get? Field.data.kind = none ∧
        DescribesOperand layout table length .mask .maskRegister mask ∧
        DescribesOperand layout table length .xor .xorRegister xor
  | .shiftLeft amount => DescribesAmount table amount
  | .shiftRight amount => DescribesAmount table amount

/-- The fields of a table describe an expression in a register file of the given layout. -/
structure Describes (layout : Layout) (table : AttributeTable) (expression : Bitwise) : Prop where
  source : ∃ number, table.word? Field.source.kind = some number ∧
    Layout.wordOfNumber? number.toNat = some expression.source.word
  destination : ∃ number, table.word? Field.destination.kind = some number ∧
    Layout.wordOfNumber? number.toNat = some expression.destination.word
  length : ∃ number, table.word? Field.length.kind = some number ∧
    number.toNat = expression.length
  length_le : expression.length ≤ maxLength
  holdsSource : layout.Holds expression.source expression.length
  holdsDestination : layout.Holds expression.destination expression.length
  operation : DescribesOperation table expression.transform.operation
  transform : DescribesTransform layout table expression.length expression.transform

theorem requireWord_eq_ok_iff {table : AttributeTable} {field : Field} {word : UInt32} :
    requireWord table field = .ok word ↔ table.word? field.kind = some word := by
  simp only [requireWord]
  cases table.word? field.kind with
  | none => simp
  | some found => simp

theorem checkLength_eq_ok_iff {number : UInt32} {length : Nat} :
    checkLength number = .ok length ↔ number.toNat = length ∧ length ≤ maxLength := by
  simp only [checkLength]
  constructor
  · split
    · rintro ⟨rfl⟩
      exact ⟨rfl, by assumption⟩
    · rintro ⟨⟩
  · rintro ⟨rfl, length_le⟩
    rw [if_pos length_le]

theorem checkRegister_eq_ok_iff {layout : Layout} {number : UInt32} {length : Nat}
    {register : Register} :
    checkRegister layout number length = .ok register ↔
      Layout.wordOfNumber? number.toNat = some register.word ∧ layout.Holds register length := by
  rw [checkRegister, mapError_eq_ok_iff, Layout.resolveFor_eq_ok_iff]

theorem checkOperation_eq_ok_iff {table : AttributeTable} {operation : Operation} :
    checkOperation table = .ok operation ↔ DescribesOperation table operation := by
  simp only [checkOperation, DescribesOperation]
  cases table.word? Field.operation.kind with
  | none => simp [eq_comm]
  | some number =>
      simp only [Option.some.injEq, reduceCtorEq, false_and, or_false]
      rw [← Operation.ofNumber?_eq_some_iff]
      cases Operation.ofNumber? number with
      | none => simp
      | some found => simp

theorem checkExclusive_eq_ok_iff {table : AttributeTable} {value register : Field} :
    checkExclusive table value register = .ok () ↔
      table.has value.kind ≠ table.has register.kind := by
  simp [checkExclusive]

theorem checkAbsent_eq_ok_iff {table : AttributeTable} {fields : List Field} :
    checkAbsent table fields = .ok () ↔ ∀ field ∈ fields, table.get? field.kind = none := by
  simp only [checkAbsent]
  simp only [← AttributeTable.has_eq_false_iff]
  cases search : fields.find? fun field => table.has field.kind with
  | none => simpa using search
  | some field =>
      have present : table.has field.kind = true := by
        simpa using List.find?_some search
      simp only [reduceCtorEq, false_iff]
      intro absent
      have := absent field (List.mem_of_find?_eq_some search)
      simp [present] at this

/-- Of two exclusive fields the one that is present gives the operand, in the form of the field. -/
theorem readOperand_eq_ok_iff {layout : Layout} {table : AttributeTable} {length : Nat}
    {value register : Field} {operand : Operand} :
    checkExclusive table value register = .ok () ∧
        readOperand layout table length value register = .ok operand ↔
      DescribesOperand layout table length value register operand := by
  rw [checkExclusive_eq_ok_iff]
  simp only [readOperand]
  cases present : table.get? value.kind with
  | none =>
      have absent : table.has value.kind = false := AttributeTable.has_eq_false_iff.mpr present
      simp only [absent, bind_eq_ok_iff, requireWord_eq_ok_iff, checkRegister_eq_ok_iff,
        pure_eq_ok_iff]
      cases operand with
      | immediate immediate => simp [DescribesOperand, present]
      | register place =>
          simp only [DescribesOperand, present, true_and]
          constructor
          · rintro ⟨_, number, found, _, places, ⟨rfl⟩⟩
            exact ⟨number, found, places⟩
          · rintro ⟨number, found, places⟩
            refine ⟨?_, number, found, place, places, rfl⟩
            have payload : (table.get? register.kind).isSome := by
              cases missing : table.get? register.kind with
              | none => simp [AttributeTable.word?, missing] at found
              | some payload => rfl
            simp [AttributeTable.has, payload]
  | some nested =>
      have present' : table.has value.kind = true :=
        AttributeTable.has_eq_true_iff.mpr ⟨nested, present⟩
      have alone : true ≠ table.has register.kind ↔ table.get? register.kind = none := by
        rw [← AttributeTable.has_eq_false_iff]
        cases table.has register.kind <;> simp
      simp only [present', alone, bind_eq_ok_iff, mapError_eq_ok_iff, pure_eq_ok_iff,
        Immediate.decodeExact_eq_ok_iff]
      cases operand with
      | immediate immediate => simp [DescribesOperand, present]
      | register place => simp [DescribesOperand, present]

/-- The operands of a boolean transform are checked pair by pair, with nothing in the field for the
amount. -/
theorem readBoolean_eq_ok_iff {layout : Layout} {table : AttributeTable} {length : Nat}
    {transform : Transform} :
    readBoolean layout table length = .ok transform ↔
      ∃ mask xor, transform = .boolean mask xor ∧
        DescribesTransform layout table length (.boolean mask xor) := by
  simp only [readBoolean, check_bind_eq_ok_iff, DescribesTransform, ← readOperand_eq_ok_iff,
    checkAbsent_eq_ok_iff, List.mem_singleton, forall_eq]
  simp only [bind_eq_ok_iff, pure_eq_ok_iff]
  constructor
  · rintro ⟨noData, oneMask, oneXor, mask, readMask, xor, readXor, rfl⟩
    exact ⟨mask, xor, rfl, noData, ⟨oneMask, readMask⟩, oneXor, readXor⟩
  · rintro ⟨mask, xor, rfl, noData, ⟨oneMask, readMask⟩, oneXor, readXor⟩
    exact ⟨noData, oneMask, oneXor, mask, readMask, xor, readXor, rfl⟩

theorem readAmount_eq_ok_iff {table : AttributeTable} {amount : Nat} :
    readAmount table = .ok amount ↔ DescribesAmount table amount := by
  simp only [readAmount, check_bind_eq_ok_iff, checkAbsent_eq_ok_iff, DescribesAmount]
  cases table.get? Field.data.kind with
  | none => simp
  | some nested =>
      simp only [bind_eq_ok_iff, mapError_eq_ok_iff, Immediate.decodeExact_eq_ok_iff]
      constructor
      · rintro ⟨absent, value, ⟨decoded, oneWord⟩, checked⟩
        split at checked
        · rename_i amount_lt
          cases checked
          exact ⟨absent, nested, value, rfl, decoded, oneWord, rfl, amount_lt⟩
        · cases checked
      · rintro ⟨absent, nested, value, ⟨rfl⟩, decoded, oneWord, rfl, amount_lt⟩
        exact ⟨absent, value, ⟨decoded, oneWord⟩, if_pos amount_lt⟩

theorem readTransform_eq_ok_iff {layout : Layout} {table : AttributeTable} {length : Nat}
    {operation : Operation} {transform : Transform} :
    readTransform layout table length operation = .ok transform ↔
      transform.operation = operation ∧ DescribesTransform layout table length transform := by
  cases operation with
  | boolean =>
      rw [readTransform, readBoolean_eq_ok_iff]
      cases transform with
      | boolean mask xor => simp [Transform.operation, and_assoc]
      | shiftLeft amount => simp [Transform.operation]
      | shiftRight amount => simp [Transform.operation]
  | shiftLeft =>
      rw [readTransform, map_eq_ok_iff]
      cases transform with
      | boolean mask xor => simp [Transform.operation]
      | shiftLeft amount => simp [Transform.operation, DescribesTransform, readAmount_eq_ok_iff]
      | shiftRight amount => simp [Transform.operation]
  | shiftRight =>
      rw [readTransform, map_eq_ok_iff]
      cases transform with
      | boolean mask xor => simp [Transform.operation]
      | shiftLeft amount => simp [Transform.operation]
      | shiftRight amount => simp [Transform.operation, DescribesTransform, readAmount_eq_ok_iff]

/-- A table is read as an expression if and only if its fields describe the expression. -/
theorem ofTable_eq_ok_iff {layout : Layout} {table : AttributeTable} {expression : Bitwise} :
    ofTable layout table = .ok expression ↔ Describes layout table expression := by
  simp only [ofTable, bind_eq_ok_iff, requireWord_eq_ok_iff, checkLength_eq_ok_iff,
    checkRegister_eq_ok_iff, checkOperation_eq_ok_iff, readTransform_eq_ok_iff, pure_eq_ok_iff]
  constructor
  · rintro ⟨sourceNumber, sourceFound, destinationNumber, destinationFound, lengthNumber,
      lengthFound, length, ⟨lengthSame, length_le⟩, source, ⟨sourceNames, holdsSource⟩,
      destination, ⟨destinationNames, holdsDestination⟩, operation, operationSays, transform,
      ⟨rfl, transformSays⟩, rfl⟩
    exact ⟨⟨sourceNumber, sourceFound, sourceNames⟩,
      ⟨destinationNumber, destinationFound, destinationNames⟩,
      ⟨lengthNumber, lengthFound, lengthSame⟩, length_le, holdsSource, holdsDestination,
      operationSays, transformSays⟩
  · intro describes
    rcases describes.source with ⟨sourceNumber, sourceFound, sourceNames⟩
    rcases describes.destination with ⟨destinationNumber, destinationFound, destinationNames⟩
    rcases describes.length with ⟨lengthNumber, lengthFound, lengthSame⟩
    exact ⟨sourceNumber, sourceFound, destinationNumber, destinationFound, lengthNumber,
      lengthFound, _, ⟨lengthSame, describes.length_le⟩, _, ⟨sourceNames, describes.holdsSource⟩,
      _, ⟨destinationNames, describes.holdsDestination⟩, _, describes.operation, _,
      ⟨rfl, describes.transform⟩, rfl⟩

end Bitwise

end PacketExpr
