import PacketExpr.Proofs.Attribute.Level
import PacketExpr.Proofs.Immediate

/-!
# Reading values from a nesting level

Where an immediate is expected there is a level of attributes, and it is read as the last value at
that level.  A verdict is only looked for where there is no value, so a level with both is read as
its value, in whatever order they come.

Of bytes that were written as a value, those that make an immediate are read back.  No bytes at all
and too many of them are refused for different reasons: only the latter is a fault of the level.
-/

namespace PacketExpr.Immediate

open Attribute

variable {nested bytes : Bytes} {attributes : List Attribute} {value : Immediate}

theorem get?_holding_of_covered {kind : Nat} (covered : kind = valueKind ∨ kind = verdictKind) :
    (AttributeTable.holding schema attributes).get? kind = lastPayload? kind attributes := by
  apply AttributeTable.get?_holding_of_covered
  rcases covered with rfl | rfl
  · rfl
  · rfl

theorem exists_ofBytes?_iff :
    (∃ value, ofBytes? bytes = some value) ↔ 1 ≤ bytes.length ∧ bytes.length ≤ maxSize := by
  simp only [ofBytes?, Nat.succ_le_iff]
  split
  · next bounds => simpa using bounds
  · next unbounded => simpa using unbounded

/-- The last value decides, and it has to have bytes that can be packed. -/
theorem decode_of_value (level : schema.Level attributes nested)
    (last : lastPayload? valueKind attributes = some bytes) :
    decode nested = (ofBytes? bytes).elim (.error .empty) .ok := by
  have parsed := AttributeTable.parse_eq_ok_iff_level.mpr ⟨attributes, level, rfl⟩
  simp only [decode, parsed, Except.mapError, bind, Except.bind,
    get?_holding_of_covered (.inl rfl), last]
  cases ofBytes? bytes with
  | none => rfl
  | some value => rfl

theorem decode_of_noValue (level : schema.Level attributes nested)
    (noValue : lastPayload? valueKind attributes = none) :
    decode nested = .error (if (lastPayload? verdictKind attributes).isSome then .verdict
      else .missing) := by
  have parsed := AttributeTable.parse_eq_ok_iff_level.mpr ⟨attributes, level, rfl⟩
  simp only [decode, parsed, Except.mapError, bind, Except.bind, AttributeTable.has,
    get?_holding_of_covered (.inl rfl), get?_holding_of_covered (.inr rfl), noValue]

/-- What is decoded is the last value of a level that keeps the schema. -/
theorem decode_eq_ok_iff_level :
    decode nested = .ok value ↔
      ∃ attributes bytes, schema.Level attributes nested ∧
        lastPayload? valueKind attributes = some bytes ∧ ofBytes? bytes = some value := by
  constructor
  · intro decoded
    have parsed := decoded
    simp only [decode, bind_eq_ok_iff, mapError_eq_ok_iff] at parsed
    rcases parsed with ⟨table, parsed, _⟩
    rcases AttributeTable.parse_eq_ok_iff_level.mp parsed with ⟨attributes, level, _⟩
    cases last : lastPayload? valueKind attributes with
    | none =>
        rw [decode_of_noValue level last] at decoded
        cases decoded
    | some bytes =>
        rw [decode_of_value level last] at decoded
        cases packs : ofBytes? bytes with
        | none => simp [packs] at decoded
        | some found =>
            have same : found = value := by simpa [packs] using decoded
            exact ⟨attributes, bytes, level, last, same ▸ packs⟩
  · rintro ⟨attributes, bytes, level, last, packs⟩
    rw [decode_of_value level last, packs]
    rfl

/-- A level is accepted if and only if its last value has between 1 and 255 bytes, whether or not
there is a verdict beside it, and then it is read as these bytes.  It is refused for a verdict if
and only if there is one without a value. -/
theorem decode_prefers_value (nested : Bytes) :
    ((∃ value, decode nested = .ok value) ↔
      ∃ attributes bytes, schema.Level attributes nested ∧
        lastPayload? valueKind attributes = some bytes ∧
        1 ≤ bytes.length ∧ bytes.length ≤ 255) ∧
    ∀ attributes, schema.Level attributes nested →
      (∀ value, decode nested = .ok value →
        lastPayload? valueKind attributes = some value.bytes) ∧
      (decode nested = .error .verdict ↔
        Carries verdictKind attributes ∧ ¬Carries valueKind attributes) := by
  constructor
  · constructor
    · rintro ⟨value, decoded⟩
      rcases decode_eq_ok_iff_level.mp decoded with ⟨attributes, bytes, level, last, packs⟩
      exact ⟨attributes, bytes, level, last, exists_ofBytes?_iff.mp ⟨value, packs⟩⟩
    · rintro ⟨attributes, bytes, level, last, bounds⟩
      rcases exists_ofBytes?_iff.mpr bounds with ⟨value, packs⟩
      exact ⟨value, decode_eq_ok_iff_level.mpr ⟨attributes, bytes, level, last, packs⟩⟩
  · intro attributes level
    rw [← isSome_lastPayload?_iff, ← isSome_lastPayload?_iff]
    cases last : lastPayload? valueKind attributes with
    | none =>
        rw [decode_of_noValue level last]
        simp [Option.isSome_iff_ne_none]
    | some bytes =>
        rw [decode_of_value level last]
        cases packs : ofBytes? bytes with
        | none => simp
        | some value => simp [bytes_of_ofBytes? packs]

/-- Two attributes that the schema admits make a level as they are written. -/
theorem level_pair {first second : Attribute}
    (fit : ∀ attr ∈ [first, second], attr.size ≤ Attribute.maxSize)
    (pass : ∀ attr ∈ [first, second], schema.Passes attr) :
    schema.Level [first, second] (first.encode ++ second.encode) := by
  constructor
  · simpa using Format.encodeAll fit
  · exact pass

/-- A verdict in front of a value changes nothing, and where there is no value it is refused. -/
theorem decode_prefers_value_behind_verdict :
    let verdict : Attribute := ⟨0x8002, []⟩
    let value : Attribute := ⟨1, [0xAA]⟩
    let other : Attribute := ⟨3, [0xBB]⟩
    (∃ read, decode (verdict.encode ++ value.encode) = .ok read ∧ read.bytes = [0xAA]) ∧
      decode (verdict.encode ++ other.encode) = .error .verdict := by
  intro verdict value other
  have both : schema.Level [verdict, value] (verdict.encode ++ value.encode) :=
    level_pair (by decide) (by decide)
  have alone : schema.Level [verdict, other] (verdict.encode ++ other.encode) :=
    level_pair (by decide) (by decide)
  have last : lastPayload? valueKind [verdict, value] = some [0xAA] := by decide
  rcases decode_prefers_value (verdict.encode ++ value.encode) with ⟨accepts, reads⟩
  rcases accepts.mpr ⟨_, _, both, last, by decide, by decide⟩ with ⟨read, decoded⟩
  have sameBytes := last.symm.trans ((reads _ both).1 read decoded)
  refine ⟨⟨read, decoded, (Option.some.inj sameBytes).symm⟩, ?_⟩
  exact ((decode_prefers_value _).2 _ alone).2.mpr ⟨by decide, by decide⟩

/-- A level with a value and a verdict is accepted, so not every verdict is refused. -/
theorem verdict_beside_value_accepted :
    ¬∀ nested attributes, schema.Level attributes nested → Carries verdictKind attributes →
      ∃ error, decode nested = .error error := by
  intro alwaysRefused
  let value : Attribute := ⟨1, [0xAA]⟩
  let verdict : Attribute := ⟨2, []⟩
  have level : schema.Level [value, verdict] (value.encode ++ verdict.encode) :=
    level_pair (by decide) (by decide)
  have last : lastPayload? valueKind [value, verdict] = some [0xAA] := by decide
  rcases alwaysRefused _ _ level (by decide) with ⟨error, refused⟩
  rw [decode_of_value level last] at refused
  cases refused

theorem size_valueAttribute (bytes : Bytes) : (valueAttribute bytes).size = 4 + bytes.length := rfl

theorem format_valueAttribute (fits : (valueAttribute bytes).size ≤ Attribute.maxSize) :
    Format [valueAttribute bytes] (valueAttribute bytes).encode := by
  simpa using Format.encodeAll (List.forall_mem_singleton.mpr fits)

theorem level_valueAttribute (length_le : bytes.length ≤ maxSize) :
    schema.Level [valueAttribute bytes] (valueAttribute bytes).encode := by
  constructor
  · apply format_valueAttribute
    simp only [maxSize] at length_le
    rw [size_valueAttribute, Attribute.maxSize]
    omega
  · rw [List.forall_mem_singleton]
    rintro policy ⟨rfl⟩
    exact decide_eq_true length_le

/-- A written value is read back. -/
theorem decode_encode (packs : ofBytes? bytes = some value) :
    decode (valueAttribute bytes).encode = .ok value := by
  have length_le : bytes.length ≤ maxSize := (exists_ofBytes?_iff.mp ⟨value, packs⟩).2
  exact decode_eq_ok_iff_level.mpr ⟨_, bytes, level_valueAttribute length_le, rfl, packs⟩

/-- Only bytes that make a value are read back as one. -/
theorem packs_of_decode_encode (fits : (valueAttribute bytes).size ≤ Attribute.maxSize)
    (decoded : decode (valueAttribute bytes).encode = .ok value) : ofBytes? bytes = some value := by
  rcases decode_eq_ok_iff_level.mp decoded with ⟨attributes, lastBytes, level, last, packs⟩
  cases level.format.unique (format_valueAttribute fits)
  have sameBytes : bytes = lastBytes := Option.some.inj last
  rw [sameBytes]
  exact packs

theorem decode_encode_nil : decode (valueAttribute []).encode = .error .empty := by
  rw [decode_of_value (level_valueAttribute (by decide)) rfl]
  rfl

theorem decode_encode_of_tooLong (fits : (valueAttribute bytes).size ≤ Attribute.maxSize)
    (tooLong : maxSize < bytes.length) :
    decode (valueAttribute bytes).encode = .error (.stream (.invalid valueKind)) := by
  have refused : ¬schema.Passes (valueAttribute bytes) := by
    intro passes
    have length_le : (Policy.binary maxSize).admits bytes = true := passes _ rfl
    simp only [Policy.admits, decide_eq_true_eq] at length_le
    omega
  have fault : FirstFault schema (valueAttribute bytes).encode (.invalid valueKind) :=
    .refused fits refused
  have failed := AttributeTable.parse_eq_error_iff_firstFault.mpr fault
  simp only [decode, failed, Except.mapError, bind, Except.bind]

end PacketExpr.Immediate
