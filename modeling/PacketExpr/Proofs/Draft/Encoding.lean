import PacketExpr.Proofs.Attribute.Forest
import PacketExpr.Proofs.Envelope.RoundTrip

/-!
# Encodings of drafts

A draft is written as a forest of attributes, one tree for each field that has a value.  Its encoder
and the one that puts it into an envelope have the same limit, and no length field holds more than
that.  So each of them succeeds if and only if all that it writes is within the limit: the bytes of
the draft for the one, 16 bytes more for the other.

A draft that has been encoded is read field by field from its encoding, so building it checks the
fields of `Draft.table`.
-/

namespace PacketExpr

namespace Draft

/-- The tree that holds a word under a field. -/
def wordTree (field : Bitwise.Field) (number : UInt32) : AttributeTree := .word field.type number

/-- The tree that holds bytes as a value under a field. -/
def valueTree (field : Bitwise.Field) (bytes : Bytes) : AttributeTree :=
  .nest field.type [.leaf (UInt16.ofNat Immediate.valueKind) bytes]

/-- What a draft has under a field. -/
def tree? (draft : Draft) : Bitwise.Field → Option AttributeTree
  | .source => some (wordTree .source draft.source)
  | .destination => some (wordTree .destination draft.destination)
  | .length => some (wordTree .length draft.length)
  | .mask => draft.mask.map (valueTree .mask)
  | .xor => draft.xor.map (valueTree .xor)
  | .operation => draft.operation.map (wordTree .operation)
  | .data => draft.data.map (valueTree .data)
  | .maskRegister => draft.maskRegister.map (wordTree .maskRegister)
  | .xorRegister => draft.xorRegister.map (wordTree .xorRegister)

/-- The fields in the order in which a draft writes them. -/
def fieldOrder : List Bitwise.Field :=
  [.source, .destination, .length, .operation, .mask, .maskRegister, .xor, .xorRegister, .data]

def trees (draft : Draft) : List AttributeTree :=
  fieldOrder.flatMap fun field => (draft.tree? field).toList

def attributes (draft : Draft) : List Attribute := draft.trees.map AttributeTree.toAttribute

def encoding (draft : Draft) : Bytes := Attribute.encodeAll draft.attributes

theorem encodeAll_trees (draft : Draft) :
    AttributeTree.encodeAll draft.trees = draft.encoding :=
  (AttributeTree.encodeAll_map_toAttribute draft.trees).symm

theorem totalSize_trees (draft : Draft) :
    AttributeTree.totalSize draft.trees = draft.encoding.length := by
  rw [← AttributeTree.length_encodeAll, encodeAll_trees]

@[simp]
theorem toAttribute_wordTree (field : Bitwise.Field) (number : UInt32) :
    (wordTree field number).toAttribute = field.word number := rfl

@[simp]
theorem toAttribute_valueTree (field : Bitwise.Field) (bytes : Bytes) :
    (valueTree field bytes).toAttribute = field.value bytes := by
  simp [valueTree, AttributeTree.toAttribute, AttributeTree.encodeAll, AttributeTree.encode,
    Bitwise.Field.value, Immediate.valueAttribute]

theorem writeAll_singleton (tree : AttributeTree) :
    AttributeTree.writeAll [tree] = tree.write := by
  simp [AttributeTree.writeAll]

/-- A field that is not given is not written, like the empty list of trees. -/
theorem putOptional_word (field : Bitwise.Field) (number : Option UInt32) :
    putOptional Write.putWord field number =
      AttributeTree.writeAll (number.map (wordTree field)).toList := by
  cases number with
  | none => simp [putOptional, AttributeTree.writeAll]
  | some number =>
      rw [Option.map_some, Option.toList_some, writeAll_singleton]
      simp [putOptional, wordTree, AttributeTree.write]

theorem putOptional_value (field : Bitwise.Field) (bytes : Option Bytes) :
    putOptional Immediate.putBytes field bytes =
      AttributeTree.writeAll (bytes.map (valueTree field)).toList := by
  cases bytes with
  | none => simp [putOptional, AttributeTree.writeAll]
  | some bytes =>
      rw [Option.map_some, Option.toList_some, writeAll_singleton]
      simp [putOptional, valueTree, AttributeTree.write, writeAll_singleton, Immediate.putBytes]

theorem put_eq_writeAll (draft : Draft) : draft.put = AttributeTree.writeAll draft.trees := by
  simp only [put, trees, fieldOrder, List.flatMap_cons, List.flatMap_nil, List.append_nil,
    AttributeTree.writeAll_append, tree?, putOptional_word, putOptional_value, Option.toList_some,
    writeAll_singleton]
  rfl

/-- The budget of the two encoders is as large as a length field. -/
theorem encodeLimit_le : encodeLimit ≤ Attribute.maxSize := Nat.le_refl _

/-- A draft is encoded if it is within the limit; nothing else is asked of it. -/
theorem encode_eq (draft : Draft) :
    draft.encode =
      if draft.encoding.length ≤ encodeLimit then .ok draft.encoding
      else .error (.stream .noSpace) := by
  rw [encode, put_eq_writeAll, AttributeTree.bytesWithin_writeAll_of_limit_le encodeLimit_le,
    totalSize_trees, encodeAll_trees]
  split
  · rfl
  · rfl

def envelopeTrees (draft : Draft) : List AttributeTree :=
  [.text Envelope.Field.name.type Bitwise.name, .nest Envelope.Field.data.type draft.trees]

theorem putEnvelope_eq_writeAll (draft : Draft) :
    Envelope.put draft.put = AttributeTree.writeAll draft.envelopeTrees := by
  rw [put_eq_writeAll]
  simp [Envelope.put, envelopeTrees, AttributeTree.writeAll, AttributeTree.write]

theorem encodeAll_envelopeTrees (draft : Draft) :
    AttributeTree.encodeAll draft.envelopeTrees = Envelope.wrap draft.encoding := by
  rw [← encodeAll_trees, ← AttributeTree.encodeAll_map_toAttribute]
  rfl

theorem encoding_wholeWords (draft : Draft) : draft.encoding.length % 4 = 0 :=
  Attribute.encodeAll_wholeWords draft.attributes

/-- The envelope takes sixteen more bytes for the name and for the headers. -/
theorem encodeEnvelope_eq (draft : Draft) :
    draft.encodeEnvelope =
      if 16 + draft.encoding.length ≤ encodeLimit then .ok (Envelope.wrap draft.encoding)
      else .error (.stream .noSpace) := by
  have size : AttributeTree.totalSize draft.envelopeTrees = 16 + draft.encoding.length := by
    rw [← AttributeTree.length_encodeAll, encodeAll_envelopeTrees,
      Envelope.length_wrap draft.encoding_wholeWords]
  rw [encodeEnvelope, putEnvelope_eq_writeAll,
    AttributeTree.bytesWithin_writeAll_of_limit_le encodeLimit_le, size, encodeAll_envelopeTrees]
  split
  · rfl
  · rfl

/-- Number of bytes that a field takes if it holds a word. -/
def wordSize (number : Option UInt32) : Nat := if number.isSome then 8 else 0

/-- Number of bytes that a field takes if it holds a value. -/
def valueSize : Option Bytes → Nat
  | some bytes => 8 + paddedSize bytes.length
  | none => 0

theorem length_encodeAll_singleton (tree : AttributeTree) :
    (AttributeTree.encodeAll [tree]).length = tree.toAttribute.encode.length := by
  rw [AttributeTree.encode_toAttribute, AttributeTree.encodeAll, AttributeTree.encodeAll,
    List.append_nil]

theorem length_encodeAll_word (field : Bitwise.Field) (number : Option UInt32) :
    (AttributeTree.encodeAll (number.map (wordTree field)).toList).length = wordSize number := by
  cases number with
  | none => simp [AttributeTree.encodeAll, wordSize]
  | some number =>
      rw [Option.map_some, Option.toList_some, length_encodeAll_singleton, toAttribute_wordTree,
        Bitwise.Field.length_encode_word]
      rfl

theorem length_encodeAll_value (field : Bitwise.Field) (bytes : Option Bytes) :
    (AttributeTree.encodeAll (bytes.map (valueTree field)).toList).length = valueSize bytes := by
  cases bytes with
  | none => simp [AttributeTree.encodeAll, valueSize]
  | some bytes =>
      rw [Option.map_some, Option.toList_some, length_encodeAll_singleton, toAttribute_valueTree,
        Bitwise.Field.length_encode_value, valueSize]

/-- The three fields that every draft has take 24 bytes, and what else it lists is added. -/
theorem length_encoding (draft : Draft) :
    draft.encoding.length =
      24 + wordSize draft.operation + valueSize draft.mask + wordSize draft.maskRegister
        + valueSize draft.xor + wordSize draft.xorRegister + valueSize draft.data := by
  have leading (field : Bitwise.Field) (number : UInt32) :
      (AttributeTree.encodeAll [wordTree field number]).length = 8 :=
    length_encodeAll_word field (some number)
  rw [← encodeAll_trees]
  simp only [trees, fieldOrder, List.flatMap_cons, List.flatMap_nil, List.append_nil, tree?,
    Option.toList_some, AttributeTree.encodeAll_append, List.length_append, leading,
    length_encodeAll_word, length_encodeAll_value]
  omega

def table (draft : Draft) : AttributeTable :=
  AttributeTable.holding Bitwise.schema draft.attributes

variable {draft : Draft}

/-- Under a field that asks for a word there is a word, and under all others there is a value. -/
theorem takes_of_tree? {field : Bitwise.Field} {tree : AttributeTree}
    (has : draft.tree? field = some tree) : field.Takes tree.toAttribute := by
  have word (number : UInt32) (isWord : Bitwise.schema.policy? field.kind = some .word)
      (same : tree = wordTree field number) : field.Takes tree.toAttribute := by
    rw [same]
    exact .word number isWord
  have value (bytes : Bytes) (isNested : Bitwise.schema.policy? field.kind = some .nested)
      (same : tree = valueTree field bytes) : field.Takes tree.toAttribute := by
    rw [same, toAttribute_valueTree]
    exact .value bytes isNested
  cases field <;> simp only [tree?, Option.some.injEq, Option.map_eq_some_iff] at has
  case source => exact word _ rfl has.symm
  case destination => exact word _ rfl has.symm
  case length => exact word _ rfl has.symm
  case operation =>
    rcases has with ⟨number, _, same⟩
    exact word number rfl same.symm
  case maskRegister =>
    rcases has with ⟨number, _, same⟩
    exact word number rfl same.symm
  case xorRegister =>
    rcases has with ⟨number, _, same⟩
    exact word number rfl same.symm
  case mask =>
    rcases has with ⟨bytes, _, same⟩
    exact value bytes rfl same.symm
  case xor =>
    rcases has with ⟨bytes, _, same⟩
    exact value bytes rfl same.symm
  case data =>
    rcases has with ⟨bytes, _, same⟩
    exact value bytes rfl same.symm

theorem exists_of_mem_attributes {attr : Attribute} (attr_mem : attr ∈ draft.attributes) :
    ∃ field tree, draft.tree? field = some tree ∧ tree.toAttribute = attr := by
  rcases List.mem_map.mp attr_mem with ⟨tree, tree_mem, rfl⟩
  rcases List.mem_flatMap.mp tree_mem with ⟨field, _, has⟩
  exact ⟨field, tree, Option.mem_toList.mp has, rfl⟩

theorem mem_attributes {field : Bitwise.Field} {tree : AttributeTree}
    (has : draft.tree? field = some tree) : tree.toAttribute ∈ draft.attributes := by
  have listed : field ∈ fieldOrder := by
    cases field <;> decide
  apply List.mem_map_of_mem
  exact List.mem_flatMap.mpr ⟨field, listed, Option.mem_toList.mpr has⟩

/-- Each field contributes at most one tree, so no field has more attributes than its own. -/
theorem map_kind_sublist (draft : Draft) (fields : List Bitwise.Field) :
    ((fields.flatMap fun field => (draft.tree? field).toList).map
      fun tree => tree.toAttribute.kind).Sublist (fields.map Bitwise.Field.kind) := by
  induction fields with
  | nil => exact .slnil
  | cons field fields ih =>
      rw [List.flatMap_cons, List.map_append, List.map_cons]
      cases has : draft.tree? field with
      | none => exact ih.cons _
      | some tree =>
          rw [Option.toList_some, List.map_singleton, (takes_of_tree? has).kind_eq]
          exact ih.cons_cons _

/-- A draft is written as a list of fields, whatever is put into them. -/
theorem isFieldList_attributes (draft : Draft) : Bitwise.IsFieldList draft.attributes where
  taken := by
    intro attr attr_mem
    rcases exists_of_mem_attributes attr_mem with ⟨field, tree, has, rfl⟩
    exact ⟨field, takes_of_tree? has⟩
  distinct := by
    have distinct : (fieldOrder.map Bitwise.Field.kind).Nodup := by decide
    rw [attributes, List.map_map]
    exact distinct.sublist (map_kind_sublist draft fieldOrder)

/-- The attributes of a draft are read back as its table, since they keep the schema and no kind is
used twice. -/
theorem parse_encoding (fits : draft.encoding.length ≤ Attribute.maxSize) :
    AttributeTable.parse Bitwise.schema draft.encoding = .ok draft.table :=
  draft.isFieldList_attributes.parse_encodeAll fits

/-- The level inside a field is not larger than the level around it. -/
theorem size_valueAttribute_le {field : Bitwise.Field} {bytes : Bytes}
    (fits : draft.encoding.length ≤ Attribute.maxSize)
    (has : draft.tree? field = some (valueTree field bytes)) :
    (Immediate.valueAttribute bytes).size ≤ Attribute.maxSize := by
  have within := Attribute.size_le_length_encodeAll (mem_attributes has)
  have padded := le_paddedSize (Immediate.valueAttribute bytes).size
  rw [toAttribute_valueTree, Bitwise.Field.value, Attribute.size, Attribute.length_encode,
    ← encoding] at within
  omega

theorem get?_table (draft : Draft) (field : Bitwise.Field) :
    draft.table.get? field.kind = (draft.tree? field).map AttributeTree.payload := by
  cases has : draft.tree? field with
  | none =>
      apply AttributeTable.get?_holding_of_absent
      intro attr attr_mem sameKind
      rcases exists_of_mem_attributes attr_mem with ⟨other, tree, hasOther, rfl⟩
      rw [(takes_of_tree? hasOther).kind_eq] at sameKind
      rw [Bitwise.Field.eq_of_kind_eq sameKind, has] at hasOther
      cases hasOther
  | some tree =>
      rw [Option.map_some, ← AttributeTree.payload_toAttribute]
      exact draft.isFieldList_attributes.get?_of_mem (mem_attributes has)
        (takes_of_tree? has).kind_eq

theorem word?_table {field : Bitwise.Field} {number : Option UInt32}
    (has : draft.tree? field = number.map (wordTree field)) :
    draft.table.word? field.kind = number := by
  cases number with
  | none =>
      rw [AttributeTable.word?, get?_table, has]
      rfl
  | some number => exact draft.isFieldList_attributes.word?_of_word (mem_attributes has)

theorem get?_table_of_value {field : Bitwise.Field} {bytes : Option Bytes}
    (has : draft.tree? field = bytes.map (valueTree field)) :
    draft.table.get? field.kind =
      bytes.map fun bytes => (Immediate.valueAttribute bytes).encode := by
  cases bytes with
  | none => rw [get?_table, has, Option.map_none, Option.map_none, Option.map_none]
  | some bytes =>
      have value_mem := mem_attributes has
      rw [toAttribute_valueTree] at value_mem
      exact draft.isFieldList_attributes.get?_of_value value_mem

/-- Building a draft checks its fields, provided that they can be encoded. -/
theorem build_eq (draft : Draft) (layout : Layout) :
    draft.build layout =
      if draft.encoding.length ≤ encodeLimit then
        (Bitwise.ofTable layout draft.table).mapError .bitwise
      else
        .error (.stream .noSpace) := by
  rw [build, encode_eq]
  split
  · next fits =>
      have parsed := parse_encoding fits
      simp only [bind, Except.bind, Bitwise.decode, parsed, Except.mapError]
  · rfl

theorem build_eq_ok_iff {layout : Layout} {expression : Bitwise} :
    draft.build layout = .ok expression ↔
      draft.encoding.length ≤ encodeLimit ∧
        Bitwise.Describes layout draft.table expression := by
  rw [build_eq, ← Bitwise.ofTable_eq_ok_iff]
  split
  · next fits => simp only [mapError_eq_ok_iff, fits, true_and]
  · next tooLong => simp [tooLong]

end Draft

end PacketExpr
