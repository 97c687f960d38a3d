import PacketExpr.Proofs.Draft.Encoding

/-!
# The fields of a draft

A draft is written without being checked, and it is written if and only if there is room for all
that it lists.  Then every field is found in the message with what the draft lists under it, and no
other field is there.  Bytes that make no value are not lost on the way: it is the reader of the
nested level who refuses them.
-/

namespace PacketExpr

/-- What is nested is read as the bytes if they make a value, and refused for what is wrong with
them if not. -/
structure Immediate.ReadBack (bytes nested : Bytes) : Prop where
  value : 1 ≤ bytes.length → bytes.length ≤ 255 →
    ∃ value, decode nested = .ok value ∧ value.bytes = bytes
  empty : bytes = [] → decode nested = .error .empty
  tooLong : 255 < bytes.length → decode nested = .error (.stream (.invalid 1))

/-- A value is read back as long as it has a size that values may have; else it is refused as empty
or as too long. -/
theorem Immediate.readBack_encode {bytes : Bytes}
    (fits : (valueAttribute bytes).size ≤ Attribute.maxSize) :
    ReadBack bytes (valueAttribute bytes).encode where
  value := by
    intro length_pos length_le
    rcases exists_ofBytes?_iff.mpr ⟨length_pos, length_le⟩ with ⟨value, packs⟩
    exact ⟨value, decode_encode packs, bytes_of_ofBytes? packs⟩
  empty := by
    rintro rfl
    exact decode_encode_nil
  tooLong := decode_encode_of_tooLong fits

theorem Bitwise.Field.exists_kind_eq_iff {kind : Nat} :
    (∃ field : Field, field.kind = kind) ↔ (schema.policy? kind).isSome = true := by
  rw [Schema.isSome_policy?_iff]
  constructor
  · rintro ⟨field, rfl⟩
    cases field <;> decide
  · have listed : ∀ kind < 10, 0 < kind → ∃ field ∈ Draft.fieldOrder, field.kind = kind := by
      decide
    rintro ⟨kind_pos, kind_lt⟩
    rcases listed kind kind_lt kind_pos with ⟨field, _, sameKind⟩
    exact ⟨field, sameKind⟩

namespace Draft

/-- The number that a draft lists under a field. -/
def number? (draft : Draft) : Bitwise.Field → Option UInt32
  | .source => some draft.source
  | .destination => some draft.destination
  | .length => some draft.length
  | .operation => draft.operation
  | .maskRegister => draft.maskRegister
  | .xorRegister => draft.xorRegister
  | .mask => none
  | .xor => none
  | .data => none

/-- The bytes that a draft lists under a field. -/
def bytes? (draft : Draft) : Bitwise.Field → Option Bytes
  | .mask => draft.mask
  | .xor => draft.xor
  | .data => draft.data
  | .source => none
  | .destination => none
  | .length => none
  | .operation => none
  | .maskRegister => none
  | .xorRegister => none

/-- Number of bytes of an attribute that has bytes nested in it as a value. -/
def nestedSize : Option Bytes → Nat
  | some bytes => 4 + paddedSize (4 + bytes.length)
  | none => 0

/-- Number of bytes that all fields take together. -/
def listedSize (draft : Draft) : Nat :=
  24 + wordSize draft.operation + wordSize draft.maskRegister + wordSize draft.xorRegister
    + nestedSize draft.mask + nestedSize draft.xor + nestedSize draft.data

/-- The table has the fields that the draft lists, and no others. -/
structure Lists (draft : Draft) (table : AttributeTable) : Prop where
  has_iff : ∀ kind, table.has kind = true ↔ ∃ field : Bitwise.Field, field.kind = kind ∧
    ((draft.number? field).isSome ∨ (draft.bytes? field).isSome)
  numbers : ∀ field, ∀ number ∈ draft.number? field, table.word? field.kind = some number
  bytes : ∀ field, ∀ bytes ∈ draft.bytes? field,
    ∃ nested, table.get? field.kind = some nested ∧ Immediate.ReadBack bytes nested

variable {draft : Draft} {field : Bitwise.Field}

theorem nestedSize_eq_valueSize (bytes : Option Bytes) : nestedSize bytes = valueSize bytes := by
  cases bytes with
  | none => rfl
  | some bytes =>
      simp only [nestedSize, valueSize, paddedSize]
      omega

theorem length_encoding_eq_listedSize (draft : Draft) :
    draft.encoding.length = draft.listedSize := by
  simp only [length_encoding, listedSize, nestedSize_eq_valueSize]
  omega

theorem tree?_of_number? {number : UInt32} (lists : draft.number? field = some number) :
    draft.tree? field = some (wordTree field number) := by
  cases field <;> simp_all [number?, tree?]

theorem tree?_of_bytes? {bytes : Bytes} (lists : draft.bytes? field = some bytes) :
    draft.tree? field = some (valueTree field bytes) := by
  cases field <;> simp_all [bytes?, tree?]

theorem isSome_tree?_iff :
    (draft.tree? field).isSome = true ↔
      (draft.number? field).isSome ∨ (draft.bytes? field).isSome := by
  cases field <;> simp [number?, bytes?, tree?]

theorem has_table_iff {kind : Nat} :
    draft.table.has kind = true ↔ ∃ field : Bitwise.Field, field.kind = kind ∧
      ((draft.number? field).isSome ∨ (draft.bytes? field).isSome) := by
  constructor
  · intro present
    have covered : (Bitwise.schema.policy? kind).isSome = true := by
      rw [AttributeTable.has, table, AttributeTable.get?_holding] at present
      split at present
      · assumption
      · cases present
    rcases Bitwise.Field.exists_kind_eq_iff.mpr covered with ⟨field, rfl⟩
    rw [AttributeTable.has, get?_table, Option.isSome_map] at present
    exact ⟨field, rfl, isSome_tree?_iff.mp present⟩
  · rintro ⟨field, rfl, listed⟩
    rw [AttributeTable.has, get?_table, Option.isSome_map]
    exact isSome_tree?_iff.mpr listed

theorem lists_table (fits : draft.encoding.length ≤ Attribute.maxSize) :
    draft.Lists draft.table where
  has_iff := fun _ => has_table_iff
  numbers := by
    intro field number lists
    exact word?_table (tree?_of_number? lists)
  bytes := by
    intro field bytes lists
    have has := tree?_of_bytes? lists
    have found : draft.table.get? field.kind = some (Immediate.valueAttribute bytes).encode :=
      @get?_table_of_value draft field (some bytes) has
    exact ⟨_, found, Immediate.readBack_encode (size_valueAttribute_le fits has)⟩

/-- A draft is encoded if and only if there is room for all that it lists, and there is no other
error.  Its encoding is a level with exactly the fields that the draft lists. -/
theorem encode_lists (draft : Draft) :
    ((∃ message, draft.encode = .ok message) ↔ draft.listedSize ≤ 65535) ∧
      (65535 < draft.listedSize → draft.encode = .error (.stream .noSpace)) ∧
      ∀ message, draft.encode = .ok message →
        ∃ table, AttributeTable.parse Bitwise.schema message = .ok table ∧ draft.Lists table := by
  rw [encode_eq, length_encoding_eq_listedSize]
  change (_ ↔ draft.listedSize ≤ encodeLimit) ∧ (encodeLimit < draft.listedSize → _) ∧ _
  split
  · next fits =>
      have encodingFits : draft.encoding.length ≤ Attribute.maxSize := by
        rw [length_encoding_eq_listedSize]
        exact fits
      refine ⟨by simp [fits], by omega, ?_⟩
      rintro _ ⟨rfl⟩
      exact ⟨draft.table, parse_encoding encodingFits, lists_table encodingFits⟩
  · next tooLong => simp [tooLong]

/-- Bytes that make no value are written like others: the empty mask and the long operand are only
refused where they are read.  A mask of 65500 bytes leaves no room for an operation. -/
theorem encode_lists_unchecked :
    let draft : Draft :=
      { source := 1, destination := 2, length := 3, operation := some 9, mask := some []
        xor := some (List.replicate 256 0) }
    let full : Draft :=
      { source := 1, destination := 2, length := 3, mask := some (List.replicate 65500 0) }
    (∃ message table, draft.encode = .ok message ∧
      AttributeTable.parse Bitwise.schema message = .ok table ∧
      table.word? 6 = some 9 ∧ ¬table.has 7 = true ∧
      (∃ nested, table.get? 4 = some nested ∧ Immediate.decode nested = .error .empty) ∧
      ∃ nested, table.get? 5 = some nested ∧
        Immediate.decode nested = .error (.stream (.invalid 1))) ∧
    (∃ message, full.encode = .ok message) ∧
    { full with operation := some 0 }.encode = .error (.stream .noSpace) := by
  intro draft full
  rcases encode_lists draft with ⟨encodes_iff, _, written⟩
  have fits : draft.listedSize ≤ 65535 := by
    simp only [draft, listedSize, wordSize, nestedSize, paddedSize, List.length_replicate]
    decide
  rcases encodes_iff.mpr fits with ⟨message, encoded⟩
  rcases written message encoded with ⟨table, parsed, lists⟩
  have noData : ¬table.has 7 = true := by
    intro present
    rcases (lists.has_iff 7).mp present with ⟨field, isData, listed⟩
    have isDataField : field = .data := Bitwise.Field.eq_of_kind_eq isData
    rw [isDataField] at listed
    rcases listed with isNumber | isBytes
    · cases isNumber
    · cases isBytes
  rcases lists.bytes .mask [] rfl with ⟨maskLevel, maskFound, maskRead⟩
  rcases lists.bytes .xor _ rfl with ⟨xorLevel, xorFound, xorRead⟩
  have size (mask : Bytes) (operation : Option UInt32) (maskLength : mask.length = 65500) :
      ({ source := 1, destination := 2, length := 3, operation, mask := some mask } :
        Draft).listedSize = 65532 + wordSize operation := by
    simp only [listedSize, nestedSize, paddedSize, maskLength, wordSize, Option.isSome_none,
      Bool.false_eq_true, if_false]
    omega
  have fullFits : full.listedSize ≤ 65535 :=
    Nat.le_trans (Nat.le_of_eq (size _ none List.length_replicate)) (by decide)
  have noRoom : 65535 < { full with operation := some 0 }.listedSize :=
    Nat.lt_of_lt_of_eq (by decide) (size _ (some 0) List.length_replicate).symm
  have xorTooLong : 255 < (List.replicate 256 (0 : UInt8)).length := by
    rw [List.length_replicate]
    decide
  exact ⟨⟨message, table, encoded, parsed, lists.numbers .operation 9 rfl, noData,
      ⟨maskLevel, maskFound, maskRead.empty rfl⟩, xorLevel, xorFound, xorRead.tooLong xorTooLong⟩,
    (encode_lists full).1.mpr fullFits, (encode_lists _).2.1 noRoom⟩

end Draft

end PacketExpr
