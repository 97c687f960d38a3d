import PacketExpr.Proofs.Draft.Encoding

/-!
# What a draft spells

A draft spells an expression if its fields hold the numbers of the registers, the length and the
operation, and of each operand the bytes or the register.  `Draft.build_eq_ok_iff_spells` says that
a draft is built into the well placed expression that it spells, and into nothing else.  What is
left open is how the registers are named, and whether a boolean operation is named at all.

So if every register is named by the number under which it is written, a draft that names its
operation lists the very attributes of the expression.  The encoders of drafts and those of
expressions then write the same bytes.
-/

namespace PacketExpr

/-- Where there is room for a value, the number of a register is resolved. -/
theorem Layout.Holds.resolve_eq {layout : Layout} {register : Register} {size : Nat}
    (holds : layout.Holds register size) {number : UInt32}
    (names : wordOfNumber? number.toNat = some register.word) :
    layout.resolve number = .ok register := by
  have inFile := holds.inFile
  have size_pos := holds.size_pos
  apply resolve_eq_ok_iff.mpr ⟨names, ?_⟩
  simp only [wordCount] at inFile
  omega

namespace Draft

/-- Of two fields the one holds the bytes of an operand, or the other names its register. -/
def SpellsOperand (layout : Layout) (value : Option Bytes) (register : Option UInt32) :
    Operand → Prop
  | .immediate immediate => value = some immediate.bytes ∧ register = none
  | .register place =>
      value = none ∧ ∃ number, register = some number ∧ layout.resolve number = .ok place

theorem SpellsOperand.eq_immediate {layout : Layout} {bytes : Bytes} {operand : Operand}
    {value : Immediate} (spells : SpellsOperand layout (some bytes) none operand)
    (packs : Immediate.ofBytes? bytes = some value)
    (packed : ∀ immediate ∈ operand.immediate?,
      Immediate.ofBytes? immediate.bytes = some immediate) : operand = .immediate value := by
  cases operand with
  | immediate found =>
      have sameBytes := Option.some.inj spells.1
      have packsFound := packed found rfl
      rw [← sameBytes, packs, Option.some.injEq] at packsFound
      rw [packsFound]
  | register place => cases spells.1

/-- A draft has no operands, and its data are the amount of a shift. -/
structure SpellsAmount (draft : Draft) (amount : Nat) : Prop where
  mask : draft.mask = none
  maskRegister : draft.maskRegister = none
  xor : draft.xor = none
  xorRegister : draft.xorRegister = none
  data : draft.data = some (Bytes.ofWord (UInt32.ofNat amount))

def SpellsTransform (layout : Layout) (draft : Draft) : Transform → Prop
  | .boolean mask xor =>
      draft.data = none ∧ SpellsOperand layout draft.mask draft.maskRegister mask ∧
        SpellsOperand layout draft.xor draft.xorRegister xor
  | .shiftLeft amount => draft.SpellsAmount amount
  | .shiftRight amount => draft.SpellsAmount amount

/-- The fields of a draft spell an expression in a register file of the given layout. -/
structure Spells (layout : Layout) (draft : Draft) (expression : Bitwise) : Prop where
  source : layout.resolve draft.source = .ok expression.source
  destination : layout.resolve draft.destination = .ok expression.destination
  length : draft.length = UInt32.ofNat expression.length
  operation : draft.operation = some expression.transform.operation.number ∨
    draft.operation = none ∧ expression.transform.operation = .boolean
  transform : SpellsTransform layout draft expression.transform

variable {draft : Draft} {layout : Layout} {expression : Bitwise}

/-- What is read from the level of a value are the bytes that were packed there. -/
theorem packs_of_decode {field : Bitwise.Field} {bytes : Bytes} {value : Immediate}
    (fits : draft.encoding.length ≤ Attribute.maxSize)
    (has : draft.tree? field = some (valueTree field bytes))
    (decoded : Immediate.decode (Immediate.valueAttribute bytes).encode = .ok value) :
    Immediate.ofBytes? bytes = some value :=
  Immediate.packs_of_decode_encode (size_valueAttribute_le fits has) decoded

/-- An operand that the table describes was spelled by one of the two fields of the draft. -/
theorem spellsOperand_of_describes {value register : Bitwise.Field} {length : Nat}
    {bytes : Option Bytes} {number : Option UInt32} {operand : Operand}
    (fits : draft.encoding.length ≤ Attribute.maxSize)
    (hasValue : draft.tree? value = bytes.map (valueTree value))
    (hasRegister : draft.tree? register = number.map (wordTree register))
    (describes : Bitwise.DescribesOperand layout draft.table length value register operand) :
    SpellsOperand layout bytes number operand := by
  cases operand with
  | immediate immediate =>
      rcases describes with ⟨noRegister, nested, found, decoded, _⟩
      rw [get?_table, hasRegister, Option.map_map, Option.map_eq_none_iff] at noRegister
      rw [get?_table_of_value hasValue, Option.map_eq_some_iff] at found
      rcases found with ⟨bytes, rfl, rfl⟩
      have packs := packs_of_decode fits hasValue decoded
      exact ⟨by rw [Immediate.bytes_of_ofBytes? packs], noRegister⟩
  | register place =>
      rcases describes with ⟨noValue, number, found, names, holds⟩
      rw [get?_table, hasValue, Option.map_map, Option.map_eq_none_iff] at noValue
      rw [word?_table hasRegister] at found
      exact ⟨noValue, number, found, holds.resolve_eq names⟩

theorem spellsAmount_of_describes {amount : Nat} (fits : draft.encoding.length ≤ Attribute.maxSize)
    (describes : Bitwise.DescribesAmount draft.table amount) : draft.SpellsAmount amount := by
  rcases describes with ⟨absent, nested, value, found, decoded, oneWord, rfl, _⟩
  simp only [List.mem_cons, List.not_mem_nil, or_false, forall_eq_or_imp, forall_eq, get?_table,
    tree?, Option.map_eq_none_iff] at absent
  rcases absent with ⟨noMask, noXor, noMaskRegister, noXorRegister⟩
  have hasData : draft.tree? .data = draft.data.map (valueTree .data) := rfl
  rw [get?_table_of_value hasData, Option.map_eq_some_iff] at found
  rcases found with ⟨bytes, data_eq, rfl⟩
  rw [data_eq] at hasData
  have packs := packs_of_decode fits hasData decoded
  exact ⟨noMask, noMaskRegister, noXor, noXorRegister, by
    rw [data_eq, UInt32.ofNat_toNat, Immediate.ofWord_word_zero packs oneWord]⟩

theorem resolve_of_describes {field : Bitwise.Field} {number : UInt32} {register : Register}
    {size : Nat} (has : draft.tree? field = some (wordTree field number))
    (describes : ∃ found, draft.table.word? field.kind = some found ∧
      Layout.wordOfNumber? found.toNat = some register.word)
    (holds : layout.Holds register size) : layout.resolve number = .ok register := by
  have given : draft.table.word? field.kind = some number := word?_table has
  rcases describes with ⟨found, has_found, names⟩
  rw [given, Option.some.injEq] at has_found
  rw [has_found]
  exact holds.resolve_eq names

theorem spells_of_describes (fits : draft.encoding.length ≤ Attribute.maxSize)
    (describes : Bitwise.Describes layout draft.table expression) :
    Spells layout draft expression where
  source := resolve_of_describes rfl describes.source describes.holdsSource
  destination := resolve_of_describes rfl describes.destination describes.holdsDestination
  length := by
    have given : draft.table.word? Bitwise.Field.length.kind = some draft.length :=
      word?_table rfl
    rcases describes.length with ⟨number, found, sameLength⟩
    rw [given, Option.some.injEq] at found
    rw [found, ← sameLength, UInt32.ofNat_toNat]
  operation := by
    have given : draft.table.word? Bitwise.Field.operation.kind = draft.operation :=
      word?_table rfl
    have operation := describes.operation
    rwa [Bitwise.DescribesOperation, given] at operation
  transform := by
    have describesTransform := describes.transform
    generalize expression.transform = transform at describesTransform ⊢
    cases transform with
    | boolean mask xor =>
        rcases describesTransform with ⟨noData, describesMask, describesXor⟩
        rw [get?_table, tree?, Option.map_map, Option.map_eq_none_iff] at noData
        exact ⟨noData, spellsOperand_of_describes fits rfl rfl describesMask,
          spellsOperand_of_describes fits rfl rfl describesXor⟩
    | shiftLeft amount => exact spellsAmount_of_describes fits describesTransform
    | shiftRight amount => exact spellsAmount_of_describes fits describesTransform

theorem wordSize_le (number : Option UInt32) : wordSize number ≤ 8 := by
  rw [wordSize]
  split <;> omega

/-- An operand takes up 264 bytes at most, those of a level with the longest immediate. -/
theorem SpellsOperand.valueSize_le {bytes : Option Bytes} {number : Option UInt32}
    {operand : Operand} (spells : SpellsOperand layout bytes number operand) :
    valueSize bytes ≤ 264 := by
  cases operand with
  | immediate value =>
      have size_le := value.size_le
      rw [spells.1, valueSize, Immediate.length_bytes]
      simp only [paddedSize]
      omega
  | register place =>
      rw [spells.1, valueSize]
      omega

theorem SpellsAmount.valueSize_le {amount : Nat} (spells : draft.SpellsAmount amount) :
    valueSize draft.mask + valueSize draft.xor + valueSize draft.data ≤ 12 := by
  rw [spells.mask, spells.xor, spells.data]
  simp only [valueSize, Bytes.length_ofWord]
  decide

theorem SpellsTransform.valueSize_le {transform : Transform}
    (spells : SpellsTransform layout draft transform) :
    valueSize draft.mask + valueSize draft.xor + valueSize draft.data ≤ 528 := by
  cases transform with
  | boolean mask xor =>
      rcases spells with ⟨noData, spellsMask, spellsXor⟩
      have mask_le := spellsMask.valueSize_le
      have xor_le := spellsXor.valueSize_le
      have data_eq : valueSize draft.data = 0 := by rw [noData, valueSize]
      omega
  | shiftLeft amount => exact Nat.le_trans (SpellsAmount.valueSize_le spells) (by decide)
  | shiftRight amount => exact Nat.le_trans (SpellsAmount.valueSize_le spells) (by decide)

/-- Two values of the greatest size and three more words are the most that an expression needs. -/
theorem Spells.length_encoding_le (spells : Spells layout draft expression) :
    draft.encoding.length ≤ 576 := by
  have operation_le := wordSize_le draft.operation
  have maskRegister_le := wordSize_le draft.maskRegister
  have xorRegister_le := wordSize_le draft.xorRegister
  have values_le := spells.transform.valueSize_le
  rw [length_encoding]
  omega

/-- An operand that is spelled, that packs as it is and has room, is described by the table. -/
theorem SpellsOperand.describes {value register : Bitwise.Field} {length : Nat}
    {bytes : Option Bytes} {number : Option UInt32} {operand : Operand}
    (spells : SpellsOperand layout bytes number operand)
    (hasValue : draft.tree? value = bytes.map (valueTree value))
    (hasRegister : draft.tree? register = number.map (wordTree register))
    (packs : ∀ immediate ∈ operand.immediate?,
      Immediate.ofBytes? immediate.bytes = some immediate ∧ immediate.size = length)
    (holds : ∀ place ∈ operand.register?, layout.Holds place length) :
    Bitwise.DescribesOperand layout draft.table length value register operand := by
  cases operand with
  | immediate immediate =>
      rcases spells with ⟨rfl, rfl⟩
      rcases packs immediate rfl with ⟨packs, sameSize⟩
      refine ⟨?_, _, get?_table_of_value hasValue, Immediate.decode_encode packs, sameSize⟩
      rw [get?_table, hasRegister, Option.map_none, Option.map_none]
  | register place =>
      rcases spells with ⟨rfl, number, rfl, resolved⟩
      have names := (Layout.resolve_eq_ok_iff.mp resolved).1
      refine ⟨?_, number, word?_table hasRegister, names, holds place rfl⟩
      rw [get?_table, hasValue, Option.map_none, Option.map_none]

/-- An amount is below 32, so it is not cut off in its word. -/
theorem SpellsAmount.describes {amount : Nat} (spells : draft.SpellsAmount amount)
    (amount_lt : amount < 32) : Bitwise.DescribesAmount draft.table amount := by
  have amountWord : (UInt32.ofNat amount).toNat = amount :=
    UInt32.toNat_ofNat_of_lt' (Nat.lt_trans amount_lt (by decide))
  have hasData : draft.tree? .data = draft.data.map (valueTree .data) := rfl
  rw [spells.data] at hasData
  have decoded := Immediate.decode_encode (Immediate.ofBytes?_ofWord (UInt32.ofNat amount))
  refine ⟨?_, _, _, get?_table_of_value hasData, decoded, rfl, ?_, amount_lt⟩
  · simp only [List.mem_cons, List.not_mem_nil, or_false, forall_eq_or_imp, forall_eq, get?_table,
      tree?, spells.mask, spells.maskRegister, spells.xor, spells.xorRegister, Option.map_none,
      and_self]
  · rw [Immediate.word_ofWord, amountWord]

/-- A placed and packed expression that a draft spells is described by the table of the draft. -/
theorem Spells.describes (spells : Spells layout draft expression)
    (placed : expression.WellPlaced layout) (packed : expression.Packed) :
    Bitwise.Describes layout draft.table expression where
  source := ⟨_, word?_table rfl, (Layout.resolve_eq_ok_iff.mp spells.source).1⟩
  destination := ⟨_, word?_table rfl, (Layout.resolve_eq_ok_iff.mp spells.destination).1⟩
  length := by
    refine ⟨_, word?_table rfl, ?_⟩
    rw [spells.length]
    exact UInt32.toNat_ofNat_of_lt' (Nat.lt_of_le_of_lt placed.length_le (by decide))
  length_le := placed.length_le
  holdsSource := placed.holds expression.source_mem_registers
  holdsDestination := placed.holds expression.destination_mem_registers
  operation := by
    have given : draft.table.word? Bitwise.Field.operation.kind = draft.operation :=
      word?_table rfl
    rw [Bitwise.DescribesOperation, given]
    exact spells.operation
  transform := by
    rcases expression with ⟨source, destination, length, transform⟩
    have spellsTransform := spells.transform
    cases transform with
    | boolean mask xor =>
        have maskOperand : mask ∈ (Transform.boolean mask xor).operands := List.mem_cons_self
        have xorOperand : xor ∈ (Transform.boolean mask xor).operands :=
          List.mem_cons_of_mem _ (List.mem_singleton_self xor)
        rcases spellsTransform with ⟨noData, spellsMask, spellsXor⟩
        refine ⟨?_, ?_, ?_⟩
        · rw [get?_table, tree?, noData, Option.map_none, Option.map_none]
        · exact spellsMask.describes rfl rfl (packed.operand placed maskOperand)
            (placed.operand maskOperand)
        · exact spellsXor.describes rfl rfl (packed.operand placed xorOperand)
            (placed.operand xorOperand)
    | shiftLeft amount =>
        exact SpellsAmount.describes spellsTransform (placed.amount amount rfl)
    | shiftRight amount =>
        exact SpellsAmount.describes spellsTransform (placed.amount amount rfl)

/-- A draft is built into the well placed expression that it spells, and into nothing else. -/
theorem build_eq_ok_iff_spells :
    draft.build layout = .ok expression ↔
      Spells layout draft expression ∧ expression.WellPlaced layout ∧ expression.Packed := by
  rw [build_eq_ok_iff]
  constructor
  · rintro ⟨fits, describes⟩
    exact ⟨spells_of_describes fits describes, describes.wellPlaced, describes.packed⟩
  · rintro ⟨spells, placed, packed⟩
    refine ⟨Nat.le_trans spells.length_encoding_le ?_, spells.describes placed packed⟩
    decide

/-- The numbers by which a draft names registers. -/
def registerNumbers (draft : Draft) : List UInt32 :=
  [draft.source, draft.destination] ++ draft.maskRegister.toList ++ draft.xorRegister.toList

/-- A draft names every register by the number under which it is written. -/
def Canonical (layout : Layout) (draft : Draft) : Prop :=
  ∀ number ∈ draft.registerNumbers, ∀ register, layout.resolve number = .ok register →
    register.number = number

/-- A register that was named by a wide number is written under that number. -/
theorem number_of_resolve_wide {number : UInt32} {register : Register}
    (wide : number.toNat ≤ Register.lastWide) (resolved : layout.resolve number = .ok register) :
    register.number = number := by
  have names := (Layout.resolve_eq_ok_iff.mp resolved).1
  rw [Layout.wordOfNumber?, if_pos wide, Option.some.injEq] at names
  simp only [Register.lastWide, Register.wideWords] at wide names
  rw [Register.number, if_pos, ← names]
  · simp [Register.wideWords]
  · simp only [Register.defaultWords, Register.wideWords]
    omega

theorem canonical_of_wide (wide : ∀ number ∈ draft.registerNumbers,
    number.toNat ≤ Register.lastWide) : draft.Canonical layout := by
  intro number number_mem register resolved
  exact number_of_resolve_wide (wide number number_mem) resolved

/-- Of the two fields of an operand the draft has the one that the expression writes. -/
theorem operandAttributes_eq {value register : Bitwise.Field} {bytes : Option Bytes}
    {number : Option UInt32} {operand : Operand}
    (spells : SpellsOperand layout bytes number operand)
    (canonical : ∀ given ∈ number, ∀ place, layout.resolve given = .ok place →
      place.number = given) :
    (bytes.map value.value).toList ++ (number.map register.word).toList =
      [Bitwise.operandAttribute value register operand] := by
  cases operand with
  | immediate immediate =>
      rcases spells with ⟨rfl, rfl⟩
      rfl
  | register place =>
      rcases spells with ⟨rfl, given, rfl, resolved⟩
      have named := canonical given rfl place resolved
      rw [Bitwise.operandAttribute, named]
      rfl

def transformAttributes (draft : Draft) : List Attribute :=
  (draft.mask.map Bitwise.Field.mask.value).toList ++
    (draft.maskRegister.map Bitwise.Field.maskRegister.word).toList ++
    ((draft.xor.map Bitwise.Field.xor.value).toList ++
      (draft.xorRegister.map Bitwise.Field.xorRegister.word).toList) ++
    (draft.data.map Bitwise.Field.data.value).toList

/-- The operation stands between the header and the transform. -/
theorem attributes_eq (draft : Draft) :
    draft.attributes =
      [Bitwise.Field.source.word draft.source, Bitwise.Field.destination.word draft.destination,
        Bitwise.Field.length.word draft.length] ++
        (draft.operation.map Bitwise.Field.operation.word).toList ++ draft.transformAttributes := by
  have word (field : Bitwise.Field) (number : Option UInt32) :
      (number.map (wordTree field)).toList.map AttributeTree.toAttribute =
        (number.map field.word).toList := by
    cases number <;> rfl
  have value (field : Bitwise.Field) (bytes : Option Bytes) :
      (bytes.map (valueTree field)).toList.map AttributeTree.toAttribute =
        (bytes.map field.value).toList := by
    cases bytes with
    | none => rfl
    | some bytes => simp
  simp only [attributes, trees, fieldOrder, tree?, List.flatMap_cons, List.flatMap_nil,
    List.map_append, word, value, transformAttributes, List.append_assoc]
  simp

/-- With canonical names the fields of a transform are those that the expression writes. -/
theorem transformAttributes_eq {transform : Transform}
    (spells : SpellsTransform layout draft transform) (canonical : draft.Canonical layout) :
    draft.transformAttributes = Bitwise.transformAttributes transform := by
  have canonicalMask : ∀ given ∈ draft.maskRegister, ∀ place,
      layout.resolve given = .ok place → place.number = given := by
    intro given isMask
    exact canonical given (by simp [registerNumbers, Option.mem_def.mp isMask])
  have canonicalXor : ∀ given ∈ draft.xorRegister, ∀ place,
      layout.resolve given = .ok place → place.number = given := by
    intro given isXor
    exact canonical given (by simp [registerNumbers, Option.mem_def.mp isXor])
  have ofAmount {amount : Nat} (spellsAmount : draft.SpellsAmount amount) :
      draft.transformAttributes =
        [Bitwise.Field.data.value (Bytes.ofWord (UInt32.ofNat amount))] := by
    rw [transformAttributes, spellsAmount.mask, spellsAmount.maskRegister, spellsAmount.xor,
      spellsAmount.xorRegister, spellsAmount.data]
    rfl
  cases transform with
  | boolean mask xor =>
      rcases spells with ⟨noData, spellsMask, spellsXor⟩
      rw [transformAttributes, operandAttributes_eq spellsMask canonicalMask,
        operandAttributes_eq spellsXor canonicalXor, noData]
      rfl
  | shiftLeft amount => exact ofAmount spells
  | shiftRight amount => exact ofAmount spells

/-- A draft with canonical names and the expression that it spells have the same attributes in front
of the operation and behind it.  Only where the names are canonical do the two sides write the same
numbers. -/
theorem encoding_eq (spells : Spells layout draft expression)
    (canonical : draft.Canonical layout) :
    let front := Attribute.encodeAll [Bitwise.Field.source.word expression.source.number,
      Bitwise.Field.destination.word expression.destination.number,
      Bitwise.Field.length.word (UInt32.ofNat expression.length)]
    let back := Attribute.encodeAll (Bitwise.transformAttributes expression.transform)
    let operation := expression.transform.operation.number
    expression.encoding = front ++ (Bitwise.Field.operation.word operation).encode ++ back ∧
      draft.encoding = front ++ Attribute.encodeAll
        (draft.operation.map Bitwise.Field.operation.word).toList ++ back := by
  intro front back operation
  have source := canonical draft.source (by simp [registerNumbers]) _ spells.source
  have destination := canonical draft.destination (by simp [registerNumbers]) _ spells.destination
  constructor
  · simp [Bitwise.encoding, Bitwise.attributes, front, back, operation]
  · rw [encoding, attributes_eq, transformAttributes_eq spells.transform canonical,
      Attribute.encodeAll_append, Attribute.encodeAll_append, ← source, ← destination,
      spells.length]

/-- A draft with canonical names and an operation is written like the expression that it spells. -/
theorem encoding_of_named (spells : Spells layout draft expression)
    (canonical : draft.Canonical layout) (named : draft.operation.isSome = true) :
    draft.encoding = expression.encoding := by
  rcases encoding_eq spells canonical with ⟨expressionEncoding, draftEncoding⟩
  rcases spells.operation with operation_eq | ⟨unnamed, _⟩
  · rw [draftEncoding, expressionEncoding, operation_eq]
    simp
  · rw [unnamed] at named
    cases named

/-- Without the operation, which is a boolean one then, its eight bytes are all that is missing. -/
theorem encoding_of_unnamed (spells : Spells layout draft expression)
    (canonical : draft.Canonical layout) (unnamed : draft.operation = none) :
    expression.transform.operation = .boolean ∧
      ∃ front back : Bytes, front.length = 24 ∧ draft.encoding = front ++ back ∧
        expression.encoding = front ++ [0, 8, 0, 6, 0, 0, 0, 0] ++ back := by
  rcases encoding_eq spells canonical with ⟨expressionEncoding, draftEncoding⟩
  have isBoolean : expression.transform.operation = .boolean := by
    rcases spells.operation with operation_eq | ⟨_, isBoolean⟩
    · rw [unnamed] at operation_eq
      cases operation_eq
    · exact isBoolean
  have operation : (Bitwise.Field.operation.word Operation.boolean.number).encode =
      [0, 8, 0, 6, 0, 0, 0, 0] := rfl
  rw [isBoolean, operation] at expressionEncoding
  rw [unnamed, Option.map_none, Option.toList_none, Attribute.encodeAll_nil, List.append_nil]
    at draftEncoding
  refine ⟨isBoolean, _, _, ?_, draftEncoding, expressionEncoding⟩
  simp only [Attribute.encodeAll_cons, Attribute.encodeAll_nil, List.length_append,
    Bitwise.Field.length_encode_word, List.length_nil]

/-- From a draft that names every register as it is written, the encoders write what dumping the
built expression writes.  If the draft leaves out the operation, which is a boolean one then, its
attribute is all that is missing. -/
theorem encode_eq_dump (built : draft.build layout = .ok expression)
    (canonical : draft.Canonical layout) :
    (draft.operation.isSome = true →
      (∃ message, draft.encode = .ok message ∧
        ∀ limit, message.length ≤ limit →
          expression.dump.run (Writer.blank limit) = .ok () ⟨message, limit⟩) ∧
      ∃ envelope, draft.encodeEnvelope = .ok envelope ∧
        ∀ config : Config, 576 ≤ config.dumpLimit.toNat →
          Envelope.dump config expression = .ok envelope) ∧
    (draft.operation = none →
      expression.transform.operation = .boolean ∧
      ∃ front back : Bytes, front.length = 24 ∧ draft.encode = .ok (front ++ back) ∧
        ∀ limit, front.length + 8 + back.length ≤ limit →
          expression.dump.run (Writer.blank limit) =
            .ok () ⟨front ++ [0, 8, 0, 6, 0, 0, 0, 0] ++ back, limit⟩) := by
  rcases build_eq_ok_iff_spells.mp built with ⟨spells, placed, _⟩
  have encoded : draft.encode = .ok draft.encoding := by
    rw [encode_eq, if_pos (Nat.le_trans spells.length_encoding_le (by decide))]
  constructor
  · intro named
    have sameEncoding := encoding_of_named spells canonical named
    have size := Bitwise.length_encoding placed
    have size_le := Bitwise.encodedSize_le placed
    refine ⟨⟨expression.encoding, by rw [encoded, sameEncoding], ?_⟩,
      Envelope.encoding expression, ?_, ?_⟩
    · intro limit room
      exact expression.dump_blank room
    · rw [encodeEnvelope_eq, sameEncoding, size, if_pos, Envelope.encoding]
      simp only [encodeLimit, Attribute.maxSize]
      omega
    · intro config limit_ge
      rw [Envelope.dump_eq placed config, if_pos]
      omega
  · intro unnamed
    rcases encoding_of_unnamed spells canonical unnamed with
      ⟨isBoolean, front, back, leading, draftEncoding, expressionEncoding⟩
    refine ⟨isBoolean, front, back, leading, by rw [encoded, draftEncoding], ?_⟩
    intro limit room
    rw [← expressionEncoding]
    apply Bitwise.dump_blank
    rw [expressionEncoding]
    simp only [List.length_append, List.length_cons, List.length_nil]
    omega

/-- A mask of five bytes next to a register, drafted with the operation and without. -/
theorem encode_eq_dump_mask :
    let named := { striped with operation := some Operation.boolean.number }
    (∃ message envelope, named.encode = .ok message ∧ named.encodeEnvelope = .ok envelope ∧
      Bitwise.striped.dump.run (Writer.blank message.length) = .ok () ⟨message, message.length⟩ ∧
      Envelope.dump {} .striped = .ok envelope) ∧
    ∃ front back : Bytes, front.length = 24 ∧ striped.encode = .ok (front ++ back) ∧
      ∃ limit, Bitwise.striped.dump.run (Writer.blank limit) =
        .ok () ⟨front ++ [0, 8, 0, 6, 0, 0, 0, 0] ++ back, limit⟩ := by
  intro named
  have builtNamed : named.build Layout.standard = .ok .striped := by decide +kernel
  have wide : ∀ number ∈ [1, 2, 3], UInt32.toNat number ≤ Register.lastWide := by
    simp [Register.lastWide]
  constructor
  · rcases (encode_eq_dump builtNamed (canonical_of_wide wide)).1 rfl with
      ⟨⟨message, encoded, dumped⟩, envelope, wrapped, dumpedEnvelope⟩
    exact ⟨message, envelope, encoded, wrapped, dumped _ (Nat.le_refl _),
      dumpedEnvelope {} (by decide)⟩
  · rcases (encode_eq_dump build_striped (canonical_of_wide wide)).2 rfl with
      ⟨_, front, back, leading, encoded, dumped⟩
    exact ⟨front, back, leading, encoded, _, dumped _ (Nat.le_refl _)⟩

end Draft

end PacketExpr
