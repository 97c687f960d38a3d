import PacketExpr.Bitwise.Message
import PacketExpr.Proofs.Immediate

/-!
# Lists of fields

A field of a message takes either a word or a value, which is an attribute inside of another one.
Expressions and drafts are both written as such attributes, one after the other and no two of them
for one field.  `IsFieldList` says this of a list, and it is all that is needed to read the list
back: its encoding is parsed, and what a field takes is found under the kind of the field.
-/

namespace PacketExpr.Bitwise

namespace Field

/-- The attribute that holds a word under a field. -/
def word (field : Field) (number : UInt32) : Attribute := ⟨field.type, Bytes.ofWord number⟩

/-- The nested attribute that holds bytes as a value under a field. -/
def value (field : Field) (bytes : Bytes) : Attribute :=
  ⟨field.type ||| Attribute.nestedFlag, (Immediate.valueAttribute bytes).encode⟩

@[simp]
theorem kind_word (field : Field) (number : UInt32) : (field.word number).kind = field.kind := by
  cases field <;> rfl

@[simp]
theorem kind_value (field : Field) (bytes : Bytes) : (field.value bytes).kind = field.kind := by
  change (field.type ||| Attribute.nestedFlag).toNat % 0x4000 = field.kind
  cases field <;> decide

theorem length_encode_word (field : Field) (number : UInt32) :
    (field.word number).encode.length = 8 := by
  rw [Attribute.length_encode, Attribute.size, word, Bytes.length_ofWord]
  rfl

theorem length_encode_value (field : Field) (bytes : Bytes) :
    (field.value bytes).encode.length = 8 + paddedSize bytes.length := by
  rw [Attribute.length_encode, Attribute.size, value, Attribute.length_encode, Attribute.size,
    Immediate.valueAttribute]
  simp only [Attribute.headerSize, paddedSize]
  omega

theorem eq_of_kind_eq {field other : Field} (sameKind : field.kind = other.kind) :
    field = other := by
  revert sameKind
  cases field <;> cases other <;> decide

theorem isSome_policy? (field : Field) : (schema.policy? field.kind).isSome = true := by
  cases field <;> rfl

/-- An attribute is of the form that its field asks for. -/
inductive Takes (field : Field) : Attribute → Prop where
  | word (number : UInt32) (isWord : schema.policy? field.kind = some .word) :
      Takes field (field.word number)
  | value (bytes : Bytes) (isNested : schema.policy? field.kind = some .nested) :
      Takes field (field.value bytes)

theorem Takes.kind_eq {field : Field} {attr : Attribute} (takes : field.Takes attr) :
    attr.kind = field.kind := by
  cases takes with
  | word number => exact kind_word field number
  | value bytes => exact kind_value field bytes

/-- What a field takes is what the schema lets pass under its kind. -/
theorem Takes.passes {field : Field} {attr : Attribute} (takes : field.Takes attr) :
    schema.Passes attr := by
  intro policy covers
  rw [takes.kind_eq] at covers
  cases takes with
  | word number isWord =>
      rw [isWord] at covers
      cases covers
      rfl
  | value bytes isNested =>
      rw [isNested] at covers
      cases covers
      rfl

end Field

/-- Attributes that hold what their fields ask for, no two of them under one field. -/
structure IsFieldList (attributes : List Attribute) : Prop where
  taken : ∀ attr ∈ attributes, ∃ field : Field, field.Takes attr
  distinct : (attributes.map Attribute.kind).Nodup

namespace IsFieldList

variable {attributes : List Attribute} {field : Field}

/-- A list of fields is read back from its encoding, if that is short enough for a length field. -/
theorem parse_encodeAll (isFieldList : IsFieldList attributes)
    (fits : (Attribute.encodeAll attributes).length ≤ Attribute.maxSize) :
    AttributeTable.parse schema (Attribute.encodeAll attributes) =
      .ok (AttributeTable.holding schema attributes) := by
  apply AttributeTable.parse_encodeAll
  · intro attr attr_mem
    exact Nat.le_trans (Attribute.size_le_length_encodeAll attr_mem) fits
  · intro attr attr_mem
    rcases isFieldList.taken attr attr_mem with ⟨_, takes⟩
    exact takes.passes

theorem get?_of_mem (isFieldList : IsFieldList attributes) {attr : Attribute}
    (attr_mem : attr ∈ attributes) (sameKind : attr.kind = field.kind) :
    (AttributeTable.holding schema attributes).get? field.kind = some attr.payload := by
  rw [← sameKind]
  apply AttributeTable.get?_holding_of_mem isFieldList.distinct attr_mem
  rw [sameKind]
  exact field.isSome_policy?

theorem get?_of_value (isFieldList : IsFieldList attributes) {bytes : Bytes}
    (value_mem : field.value bytes ∈ attributes) :
    (AttributeTable.holding schema attributes).get? field.kind =
      some (Immediate.valueAttribute bytes).encode :=
  isFieldList.get?_of_mem value_mem (field.kind_value bytes)

theorem word?_of_word (isFieldList : IsFieldList attributes) {number : UInt32}
    (word_mem : field.word number ∈ attributes) :
    (AttributeTable.holding schema attributes).word? field.kind = some number :=
  AttributeTable.word?_of_get? (isFieldList.get?_of_mem word_mem (field.kind_word number))

end IsFieldList

end PacketExpr.Bitwise
