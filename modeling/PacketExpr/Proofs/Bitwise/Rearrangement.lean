import PacketExpr.Proofs.Bitwise.Acceptance
import PacketExpr.Proofs.Bitwise.Fields
import PacketExpr.Proofs.Immediate.Decoding

/-!
# The order of attributes

Two messages whose attributes are the same field by field are read as the same expression.  They may
differ in the order of attributes of different kinds, in attributes of kinds without a meaning, in
the flags of types and in what pads the attributes.  The levels that are nested in them may differ
in the same way.

What is read of a level are the last payloads of its kinds, and these are related as the payloads of
the two levels are.  So the tables are alike, and a table that is alike describes the same
expression.
-/

namespace PacketExpr

open Attribute

/-- Whatever is a list of attributes may stand where a level is expected. -/
theorem Policy.nested_admits_of_format {attributes : List Attribute} {bytes : Bytes}
    (format : Format attributes bytes) : nested.admits bytes = true := by
  cases format with
  | empty => rfl
  | last => simp [admits, encodeBefore, Attribute.length_encodeHeader]
  | cons => simp [admits, encodeBefore, Attribute.length_encodeHeader]

namespace Immediate

variable {nested other : Bytes} {value : Immediate}

/-- Two levels with the same values and the same verdicts. -/
def SameContents (nested other : Bytes) : Prop :=
  ∃ attributes others, Format attributes nested ∧ Format others other ∧
    SameByKind (fun kind => kind = valueKind ∨ kind = verdictKind) (fun _ => Eq) attributes others

/-- The decoder of a value reads no flags, no padding and no attributes of unknown kinds. -/
theorem decode_of_sameContents (same : SameContents nested other)
    (decoded : decode nested = .ok value) : decode other = .ok value := by
  rcases same with ⟨attributes, others, format, otherFormat, same⟩
  rcases decode_eq_ok_iff_level.mp decoded with ⟨levelAttributes, bytes, level, last, packs⟩
  cases level.format.unique format
  have pass : ∀ attr ∈ others, schema.Passes attr := by
    apply same.pass _ level.pass
    intro kind policy covers
    have covered : (schema.policy? kind).isSome = true := Option.isSome_of_mem covers
    constructor
    · have bounds : 0 < kind ∧ kind < 3 := Schema.isSome_policy?_iff.mp covered
      simp only [valueKind, verdictKind]
      omega
    · rintro payload _ rfl admitted
      exact admitted
  have sameLast := same.rel_lastPayload? (.inl rfl)
  rw [last] at sameLast
  rcases exists_of_rel_some sameLast with ⟨_, otherLast, rfl⟩
  exact decode_eq_ok_iff_level.mpr ⟨others, bytes, ⟨otherFormat, pass⟩, otherLast, packs⟩

end Immediate

namespace Bitwise

/-- The payloads are the same, or they are levels with the same contents where values are nested. -/
def SamePayload (kind : Nat) (payload other : Bytes) : Prop :=
  payload = other ∨
    kind ∈ [Field.mask.kind, Field.xor.kind, Field.data.kind] ∧ Immediate.SameContents payload other

/-- The attributes are the same field by field. -/
def SameFields (attributes others : List Attribute) : Prop :=
  SameByKind (fun kind => 1 ≤ kind ∧ kind ≤ 9) SamePayload attributes others

variable {attributes others : List Attribute} {layout : Layout} {table other : AttributeTable}

/-- The fields of two levels keep the schema together, since it says nothing of flags and nothing of
unknown kinds. -/
theorem SameFields.pass (same : SameFields attributes others)
    (pass : ∀ attr ∈ attributes, schema.Passes attr) : ∀ attr ∈ others, schema.Passes attr := by
  apply SameByKind.pass same _ pass
  intro kind policy covers
  constructor
  · have bounds : 0 < kind ∧ kind < 10 := Schema.isSome_policy?_iff.mp (Option.isSome_of_mem covers)
    omega
  · rintro payload other (rfl | ⟨holdsLevel, _, _, _, otherFormat, _⟩) admitted
    · exact admitted
    · have isNested : schema.policy? kind = some .nested := by
        simp only [List.mem_cons, List.not_mem_nil, or_false] at holdsLevel
        rcases holdsLevel with rfl | rfl | rfl
        · rfl
        · rfl
        · rfl
      cases isNested.symm.trans covers
      exact Policy.nested_admits_of_format otherFormat

/-- The tables have the same fields, with the same payloads. -/
def Alike (table other : AttributeTable) : Prop :=
  ∀ field : Field, Option.Rel (SamePayload field.kind) (table.get? field.kind)
    (other.get? field.kind)

theorem SameFields.alike (same : SameFields attributes others) :
    Alike (AttributeTable.holding schema attributes) (AttributeTable.holding schema others) := by
  intro field
  have bounds : 1 ≤ field.kind ∧ field.kind ≤ 9 := by
    cases field <;> decide
  rw [AttributeTable.get?_holding_of_covered field.isSome_policy?,
    AttributeTable.get?_holding_of_covered field.isSome_policy?]
  exact same.rel_lastPayload? bounds

namespace Alike

theorem get?_eq_none (alike : Alike table other) {field : Field}
    (missing : table.get? field.kind = none) : other.get? field.kind = none := by
  have related := alike field
  rw [missing] at related
  exact eq_none_of_rel related

/-- A field without a level inside is given by its bytes alone. -/
theorem word?_eq (alike : Alike table other) {field : Field}
    (noLevel : field.kind ∉ [Field.mask.kind, Field.xor.kind, Field.data.kind]) :
    other.word? field.kind = table.word? field.kind := by
  have related := alike field
  rw [AttributeTable.word?, AttributeTable.word?]
  cases found : table.get? field.kind with
  | none => rw [alike.get?_eq_none found]
  | some payload =>
      rw [found] at related
      rcases exists_of_rel_some related with ⟨_, otherFound, rfl | ⟨holdsLevel, _⟩⟩
      · rw [otherFound]
      · exact absurd holdsLevel noLevel

/-- A value that is nested under a field is nested there in both tables. -/
theorem decode_eq_ok (alike : Alike table other) {field : Field} {nested : Bytes}
    {value : Immediate} (found : table.get? field.kind = some nested)
    (decoded : Immediate.decode nested = .ok value) :
    ∃ otherNested, other.get? field.kind = some otherNested ∧
      Immediate.decode otherNested = .ok value := by
  have related := alike field
  rw [found] at related
  rcases exists_of_rel_some related with ⟨otherNested, otherFound, rfl | ⟨_, sameContents⟩⟩
  · exact ⟨nested, otherFound, decoded⟩
  · exact ⟨otherNested, otherFound, Immediate.decode_of_sameContents sameContents decoded⟩

theorem describesOperation (alike : Alike table other) {operation : Operation}
    (describes : DescribesOperation table operation) : DescribesOperation other operation := by
  rw [DescribesOperation, alike.word?_eq (by decide)]
  exact describes

theorem describesOperand (alike : Alike table other) {length : Nat} {value register : Field}
    (noLevel : register.kind ∉ [Field.mask.kind, Field.xor.kind, Field.data.kind])
    {operand : Operand} (describes : DescribesOperand layout table length value register operand) :
    DescribesOperand layout other length value register operand := by
  cases operand with
  | immediate immediate =>
      rcases describes with ⟨noRegister, nested, found, decoded, sameSize⟩
      rcases alike.decode_eq_ok found decoded with ⟨otherNested, otherFound, otherDecoded⟩
      exact ⟨alike.get?_eq_none noRegister, otherNested, otherFound, otherDecoded, sameSize⟩
  | register place =>
      rcases describes with ⟨noValue, number, named, places⟩
      rw [← alike.word?_eq noLevel] at named
      exact ⟨alike.get?_eq_none noValue, number, named, places⟩

theorem describesAmount (alike : Alike table other) {amount : Nat}
    (describes : DescribesAmount table amount) : DescribesAmount other amount := by
  rcases describes with ⟨noOperands, nested, value, found, decoded, isAmount⟩
  rcases alike.decode_eq_ok found decoded with ⟨otherNested, otherFound, otherDecoded⟩
  constructor
  · intro field field_mem
    exact alike.get?_eq_none (noOperands field field_mem)
  · exact ⟨otherNested, value, otherFound, otherDecoded, isAmount⟩

theorem describesTransform (alike : Alike table other) {length : Nat} {transform : Transform}
    (describes : DescribesTransform layout table length transform) :
    DescribesTransform layout other length transform := by
  cases transform with
  | boolean mask xor =>
      rcases describes with ⟨noData, describesMask, describesXor⟩
      exact ⟨alike.get?_eq_none noData, alike.describesOperand (by decide) describesMask,
        alike.describesOperand (by decide) describesXor⟩
  | shiftLeft amount => exact alike.describesAmount describes
  | shiftRight amount => exact alike.describesAmount describes

theorem describes (alike : Alike table other) {expression : Bitwise}
    (describes : Describes layout table expression) : Describes layout other expression where
  source := by
    rw [alike.word?_eq (by decide)]
    exact describes.source
  destination := by
    rw [alike.word?_eq (by decide)]
    exact describes.destination
  length := by
    rw [alike.word?_eq (by decide)]
    exact describes.length
  length_le := describes.length_le
  holdsSource := describes.holdsSource
  holdsDestination := describes.holdsDestination
  operation := alike.describesOperation describes.operation
  transform := alike.describesTransform describes.transform

end Alike

/-- Messages with the same fields are read as the same expression. -/
theorem decode_of_sameFields {message rearranged : Bytes} {expression : Bitwise}
    (format : Format attributes message) (rearrangedFormat : Format others rearranged)
    (same : SameFields attributes others) (accepted : decode layout message = .ok expression) :
    decode layout rearranged = .ok expression := by
  rcases decode_eq_ok_iff.mp accepted with ⟨table, parsed, describes⟩
  rcases AttributeTable.parse_eq_ok_iff_level.mp parsed with ⟨levelAttributes, level, rfl⟩
  cases level.format.unique format
  have rearrangedLevel : schema.Level others rearranged :=
    ⟨rearrangedFormat, same.pass level.pass⟩
  exact decode_eq_ok_iff.mpr ⟨_,
    AttributeTable.parse_eq_ok_iff_level.mpr ⟨others, rearrangedLevel, rfl⟩,
    same.alike.describes describes⟩

/-- The fields of a boolean expression in another order.  The mask comes under another flag and
without padding in its level, where an attribute without a meaning stands in front of the value, and
there are such attributes around the fields too. -/
theorem decode_of_sameFields_mask :
    let mask : Immediate := ⟨Vector.ofFn fun position =>
      Bytes.wordAt [0xFF, 0, 0xFF] position, 3, by decide, by decide⟩
    let expression : Bitwise := ⟨⟨4⟩, ⟨5⟩, 3, .boolean (.immediate mask) (.register ⟨6⟩)⟩
    let rearranged : Bytes :=
      [0, 5, 0, 0, 0xAA, 1, 2, 3,
        0, 8, 0x40, 9, 0, 0, 0, 10,
        0, 15, 0x40, 4, 0, 4, 0, 3, 0, 7, 0, 1, 0xFF, 0, 0xFF, 9,
        0, 8, 0, 6, 0, 0, 0, 0,
        0, 8, 0, 3, 0, 0, 0, 3,
        0, 8, 0, 2, 0, 0, 0, 9,
        0, 8, 0, 1, 0, 0, 0, 1,
        0, 6, 0, 10, 0xBB, 0xCC]
    decode ⟨16, by decide, by decide⟩ expression.encoding = .ok expression ∧
      decode ⟨16, by decide, by decide⟩ rearranged = .ok expression := by
  intro mask expression rearranged
  let maskLevel : Bytes := [0, 4, 0, 3, 0, 7, 0, 1, 0xFF, 0, 0xFF]
  let others : List Attribute := [⟨0, [0xAA]⟩, ⟨0x4009, [0, 0, 0, 10]⟩, ⟨0x4004, maskLevel⟩,
    ⟨6, [0, 0, 0, 0]⟩, ⟨3, [0, 0, 0, 3]⟩, ⟨2, [0, 0, 0, 9]⟩, ⟨1, [0, 0, 0, 1]⟩, ⟨10, [0xBB, 0xCC]⟩]
  have accepted : decode ⟨16, by decide, by decide⟩ expression.encoding = .ok expression := by
    decide +kernel
  have format : Format expression.attributes expression.encoding := Format.encodeAll (by decide)
  have rearrangedFormat : Format others rearranged := by
    decide +kernel
  have sameMask :
      Immediate.SameContents (Immediate.valueAttribute mask.bytes).encode maskLevel := by
    refine ⟨[Immediate.valueAttribute mask.bytes], [⟨3, []⟩, ⟨1, [0xFF, 0, 0xFF]⟩], ?_, ?_, ?_⟩
    · decide +kernel
    · decide +kernel
    · rintro kind (rfl | rfl)
      · exact .cons (by decide +kernel) .nil
      · exact .nil
  have sameWords : ∀ kind ∈ [1, 2, 3, 5, 6, 7, 8, 9],
      payloads kind expression.attributes = payloads kind others := by
    decide +kernel
  have same : SameFields expression.attributes others := by
    rintro kind ⟨kind_pos, kind_le⟩
    by_cases isMask : kind = 4
    · have masks : payloads 4 expression.attributes =
          [(Immediate.valueAttribute mask.bytes).encode] := by decide +kernel
      have rearrangedMasks : payloads 4 others = [maskLevel] := by decide +kernel
      rw [isMask, masks, rearrangedMasks]
      exact .cons (.inr ⟨by decide, sameMask⟩) .nil
    · have isWord : kind ∈ [1, 2, 3, 5, 6, 7, 8, 9] := by
        simp only [List.mem_cons, List.not_mem_nil, or_false]
        omega
      rw [sameWords kind isWord]
      exact List.forall₂_same.mpr fun _ _ => .inl rfl
  exact ⟨accepted, decode_of_sameFields format rearrangedFormat same accepted⟩

end Bitwise

end PacketExpr
