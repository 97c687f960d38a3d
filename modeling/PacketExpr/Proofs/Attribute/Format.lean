import PacketExpr.Proofs.Attribute.Contents
import PacketExpr.Proofs.Bytes.Number

/-!
# The format of attribute streams

`Attribute.Format` says what a stream of attributes looks like in bytes: header, payload and padding
of one attribute after the other, where the padding may hold anything and the last attribute may go
without it, in part or as a whole.  `Attribute.FirstFault` says where bytes first go wrong, be it
that no attribute can be read or that the schema does not admit its payload.

Bytes are either of the format, with attributes that pass, or they have a first fault, and
`AttributeTable.parse` tells which.
-/

namespace PacketExpr

theorem Bytes.ofUInt16_toUInt16 (high low : UInt8) :
    ofUInt16 (toUInt16 high low) = [high, low] := by
  have high_lt : high.toNat < 0x100 := high.toNat_lt
  have low_lt : low.toNat < 0x100 := low.toNat_lt
  have number : (toUInt16 high low).toNat = high.toNat * 0x100 + low.toNat := by
    rw [toUInt16, UInt16.toNat_ofNat']
    omega
  simp only [ofUInt16, number, List.cons.injEq, and_true, ← UInt8.toNat_inj, UInt8.toNat_ofNat']
  omega

theorem Bytes.toNat_pair (high low : UInt8) :
    toNat [high, low] = (toUInt16 high low).toNat := by
  have high_lt : high.toNat < 0x100 := high.toNat_lt
  have low_lt : low.toNat < 0x100 := low.toNat_lt
  simp only [toNat, List.foldl_cons, List.foldl_nil, toUInt16, UInt16.toNat_ofNat']
  omega

namespace Attribute

/-- Number of bytes between the payload of an attribute and the next attribute. -/
def paddingSize (attr : Attribute) : Nat := paddedSize attr.size - attr.size

/-- The bytes of an attribute, with some more behind its payload. -/
def encodeBefore (attr : Attribute) (behind : Bytes) : Bytes :=
  encodeHeader attr.size attr.type ++ attr.payload ++ behind

/-- The bytes are those of the attributes, one after the other. -/
inductive Format : List Attribute → Bytes → Prop where
  | empty : Format [] []
  | last {attr : Attribute} {padding : Bytes} (fits : attr.size ≤ maxSize)
      (short : padding.length ≤ attr.paddingSize) : Format [attr] (attr.encodeBefore padding)
  | cons {attr : Attribute} {attributes : List Attribute} {padding rest : Bytes}
      (fits : attr.size ≤ maxSize) (padded : padding.length = attr.paddingSize)
      (following : Format attributes rest) :
      Format (attr :: attributes) (attr.encodeBefore (padding ++ rest))

/-- Bytes that begin with no complete attribute: the header is cut off, its length does not cover
the header, or it goes beyond the end of the bytes. -/
def Truncated (bytes : Bytes) : Prop :=
  bytes ≠ [] ∧
    (bytes.length < headerSize ∨ Bytes.toNat (bytes.take 2) < headerSize ∨
      bytes.length < Bytes.toNat (bytes.take 2))

/-- The first fault in the order of the bytes, behind attributes which the schema lets pass. -/
inductive FirstFault (schema : Schema) : Bytes → AttributeError → Prop where
  | truncated {bytes : Bytes} (truncated : Truncated bytes) : FirstFault schema bytes .truncated
  | refused {attr : Attribute} {behind : Bytes} (fits : attr.size ≤ maxSize)
      (refused : ¬schema.Passes attr) :
      FirstFault schema (attr.encodeBefore behind) (.invalid attr.kind)
  | later {attr : Attribute} {padding rest : Bytes} {error : AttributeError}
      (fits : attr.size ≤ maxSize) (padded : padding.length = attr.paddingSize)
      (passes : schema.Passes attr) (following : FirstFault schema rest error) :
      FirstFault schema (attr.encodeBefore (padding ++ rest)) error

/-- An attribute is read where its header and payload stand in front, and as much of what comes
behind them is taken off as its padding would be. -/
theorem read?_eq_some_iff {bytes rest : Bytes} {attr : Attribute} :
    read? bytes = some (attr, rest) ↔
      attr.size ≤ maxSize ∧
        ∃ behind, bytes = attr.encodeBefore behind ∧ rest = behind.drop attr.paddingSize := by
  constructor
  · intro reads
    unfold read? at reads
    split at reads
    · next lengthHigh lengthLow typeHigh typeLow tail =>
        dsimp only at reads
        generalize length_eq : Bytes.toUInt16 lengthHigh lengthLow = length at reads
        split at reads
        · next bounds =>
            rcases bounds with ⟨header, whole⟩
            simp only [Option.some.injEq, Prod.mk.injEq] at reads
            rcases reads with ⟨attr_eq, rest_eq⟩
            have payload_eq : tail.take (length.toNat - headerSize) = attr.payload := by
              rw [← attr_eq]
            have size_eq : attr.size = length.toNat := by
              rw [size, ← payload_eq, whole]
              omega
            have length_lt := length.toNat_lt
            refine ⟨?_, tail.drop (length.toNat - headerSize), ?_, ?_⟩
            · rw [size_eq, maxSize]
              omega
            · have type_eq : Bytes.toUInt16 typeHigh typeLow = attr.type := by
                rw [← attr_eq]
              rw [encodeBefore, encodeHeader, size_eq, UInt16.ofNat_toNat, ← length_eq, ← type_eq,
                Bytes.ofUInt16_toUInt16, Bytes.ofUInt16_toUInt16, List.append_assoc, ← payload_eq,
                length_eq, List.take_append_drop]
              rfl
            · have padded := le_paddedSize length.toNat
              rw [← rest_eq, paddingSize, size_eq, List.drop_drop]
              congr 1
              omega
        · cases reads
    · cases reads
  · rintro ⟨fits, behind, rfl, rfl⟩
    exact read?_append fits behind

theorem read?_eq_none_iff {bytes : Bytes} (nonempty : bytes ≠ []) :
    read? bytes = none ↔ Truncated bytes := by
  unfold read? Truncated
  split
  · next lengthHigh lengthLow typeHigh typeLow tail =>
      have number := Bytes.toNat_pair lengthHigh lengthLow
      simp only [List.take_succ_cons, List.take_zero, number, List.length_cons, List.length_take,
        headerSize, ite_eq_right_iff, reduceCtorEq, imp_false, ne_eq, not_false_eq_true, true_and]
      omega
  · next noHeader =>
      have short : bytes.length < headerSize := by
        rcases bytes with _ | ⟨_, _ | ⟨_, _ | ⟨_, _ | ⟨_, tail⟩⟩⟩⟩
        · exact absurd rfl nonempty
        · simp [headerSize]
        · simp [headerSize]
        · simp [headerSize]
        · exact absurd rfl (noHeader _ _ _ _ tail)
      simp [nonempty, short]

end Attribute

/-- Bytes of the format are read to their end, the padding between the attributes being skipped. -/
theorem AttributeStream.ofBytes_of_format {attributes : List Attribute} {bytes : Bytes}
    (format : Attribute.Format attributes bytes) : ofBytes bytes = ⟨attributes, true⟩ := by
  induction format with
  | empty => rw [ofBytes]
  | last fits short =>
      rw [ofBytes_of_read? (Attribute.read?_eq_some_iff.mpr ⟨fits, _, rfl, rfl⟩),
        List.drop_eq_nil_of_le short, ofBytes]
  | cons fits padded _ ih =>
      rw [ofBytes_of_read? (Attribute.read?_eq_some_iff.mpr ⟨fits, _, rfl, rfl⟩),
        List.drop_left' padded, ih]

namespace Attribute

/-- Bytes are of the format, with attributes that the schema lets pass, or they have a fault. -/
theorem format_or_firstFault (schema : Schema) (bytes : Bytes) :
    (∃ attributes, Format attributes bytes ∧ ∀ attr ∈ attributes, schema.Passes attr) ∨
      ∃ error, FirstFault schema bytes error := by
  fun_induction AttributeStream.ofBytes bytes with
  | case1 => exact Or.inl ⟨[], .empty, nofun⟩
  | case2 byte bytes unreadable =>
      right
      exact ⟨_, .truncated ((read?_eq_none_iff (List.cons_ne_nil _ _)).mp unreadable)⟩
  | case3 byte bytes attr rest reads stream ih =>
      rcases read?_eq_some_iff.mp reads with ⟨fits, behind, bytes_eq, rest_eq⟩
      rw [bytes_eq]
      by_cases passes : schema.Passes attr
      · by_cases short : behind.length ≤ attr.paddingSize
        · left
          refine ⟨[attr], .last fits short, ?_⟩
          rintro _ (_ | ⟨_, ⟨⟩⟩)
          exact passes
        · have padded : (behind.take attr.paddingSize).length = attr.paddingSize := by
            rw [List.length_take]
            omega
          rw [← List.take_append_drop attr.paddingSize behind, ← rest_eq]
          rcases ih with ⟨attributes, format, pass⟩ | ⟨error, fault⟩
          · left
            exact ⟨attr :: attributes, .cons fits padded format,
              List.forall_mem_cons.mpr ⟨passes, pass⟩⟩
          · right
            exact ⟨error, .later fits padded passes fault⟩
      · right
        exact ⟨_, .refused fits passes⟩

end Attribute

namespace AttributeTable

open Attribute

variable {schema : Schema} {bytes : Bytes} {attr : Attribute}

theorem insert_of_passes (passes : schema.Passes attr) (table : AttributeTable) :
    ∃ next, insert schema table attr = .ok next := by
  simp only [insert]
  cases covered : schema.policy? attr.kind with
  | none => exact ⟨_, rfl⟩
  | some policy => exact ⟨_, if_pos (passes policy covered)⟩

theorem insert_of_refused (refused : ¬schema.Passes attr) (table : AttributeTable) :
    insert schema table attr = .error (.invalid attr.kind) := by
  simp only [Schema.Passes, not_forall] at refused
  rcases refused with ⟨policy, covered, notAdmitted⟩
  simp only [insert, Option.mem_def.mp covered, if_neg notAdmitted]

/-- The first fault of the bytes is reported, whatever has been collected so far. -/
theorem foldlM_insert_of_firstFault {error : AttributeError}
    (fault : FirstFault schema bytes error) (table : AttributeTable) :
    (do
      let found ← (AttributeStream.ofBytes bytes).attributes.foldlM (insert schema) table
      if (AttributeStream.ofBytes bytes).complete then .ok found else .error .truncated) =
      Except.error error := by
  induction fault generalizing table with
  | truncated truncated =>
      rw [AttributeStream.ofBytes_of_unreadable truncated.1
        ((read?_eq_none_iff truncated.1).mpr truncated)]
      rfl
  | refused fits refused =>
      rw [AttributeStream.ofBytes_of_read? (read?_eq_some_iff.mpr ⟨fits, _, rfl, rfl⟩),
        List.foldlM_cons, insert_of_refused refused]
      rfl
  | later fits padded passes _ ih =>
      rcases insert_of_passes passes table with ⟨next, inserted⟩
      rw [AttributeStream.ofBytes_of_read? (read?_eq_some_iff.mpr ⟨fits, _, rfl, rfl⟩),
        List.drop_left' padded, List.foldlM_cons, inserted]
      exact ih next

theorem parse_of_firstFault {error : AttributeError} (fault : FirstFault schema bytes error) :
    parse schema bytes = .error error :=
  foldlM_insert_of_firstFault fault (blank schema.size)

theorem parse_of_format {attributes : List Attribute} (format : Format attributes bytes)
    (pass : ∀ attr ∈ attributes, schema.Passes attr) :
    parse schema bytes = .ok (holding schema attributes) := by
  rw [parse_eq_ok_iff, AttributeStream.ofBytes_of_format format]
  exact ⟨rfl, pass, rfl⟩

/-- Parsing refuses bytes for their first fault; bytes without a fault are accepted. -/
theorem parse_eq_error_iff_firstFault {error : AttributeError} :
    parse schema bytes = .error error ↔ FirstFault schema bytes error := by
  constructor
  · intro failed
    rcases format_or_firstFault schema bytes with ⟨attributes, format, pass⟩ | ⟨other, fault⟩
    · rw [parse_of_format format pass] at failed
      cases failed
    · rw [parse_of_firstFault fault] at failed
      cases failed
      exact fault
  · exact parse_of_firstFault

/-- Parsing accepts the bytes of attributes that pass, and no other bytes.  The table holds the
payload of the last attribute of each kind that the schema covers; bytes that are not accepted are
refused for their first fault. -/
theorem parse_accepts_format (schema : Schema) (bytes : Bytes) :
    ((∃ table, parse schema bytes = .ok table) ↔
      ∃ attributes, Format attributes bytes ∧ ∀ attr ∈ attributes, schema.Passes attr) ∧
    (∀ attributes table, Format attributes bytes → parse schema bytes = .ok table →
      ∀ kind, table.get? kind =
        if 0 < kind ∧ kind < schema.size then lastPayload? kind attributes else none) ∧
    ∀ error, parse schema bytes = .error error ↔ FirstFault schema bytes error := by
  refine ⟨⟨?_, ?_⟩, ?_, fun _ => parse_eq_error_iff_firstFault⟩
  · rintro ⟨table, parsed⟩
    rcases format_or_firstFault schema bytes with accepted | ⟨error, fault⟩
    · exact accepted
    · rw [parse_of_firstFault fault] at parsed
      cases parsed
  · rintro ⟨attributes, format, pass⟩
    exact ⟨_, parse_of_format format pass⟩
  · intro attributes table format parsed kind
    rw [parse_eq_ok_iff, AttributeStream.ofBytes_of_format format] at parsed
    rw [parsed.2.2, get?_holding]
    simp only [Schema.isSome_policy?_iff]

/-- A kind that comes twice, under different flags, with another kind between them and without the
padding of the last attribute, is accepted and the second one counts.  A payload that is not
admitted is reported before the incomplete header behind it. -/
theorem parse_accepts_format_twice :
    let schema : Schema := #[.unspecified, .binary 2]
    let first : Bytes := [0, 5, 0x80, 1, 0xAA, 0x11, 0x22, 0x33]
    let second : Bytes := [0, 5, 0x40, 1, 0xBB]
    (∃ table, parse schema (first ++ [0, 4, 0, 2] ++ second) = .ok table ∧
      table.get? 1 = some [0xBB] ∧ table.get? 2 = none) ∧
    parse schema (first ++ [0, 7, 0, 1, 1, 2, 3, 0, 0]) = .error (.invalid 1) := by
  intro schema first second
  let attributes : List Attribute := [⟨0x8001, [0xAA]⟩, ⟨2, []⟩, ⟨0x4001, [0xBB]⟩]
  have formatLast : Format [⟨0x4001, [0xBB]⟩] second :=
    @Format.last ⟨0x4001, [0xBB]⟩ [] (by decide) (by decide)
  have formatRest : Format [⟨2, []⟩, ⟨0x4001, [0xBB]⟩] ([0, 4, 0, 2] ++ second) :=
    @Format.cons ⟨2, []⟩ _ [] _ (by decide) (by decide) formatLast
  have format : Format attributes (first ++ [0, 4, 0, 2] ++ second) :=
    @Format.cons ⟨0x8001, [0xAA]⟩ _ [0x11, 0x22, 0x33] _ (by decide) (by decide) formatRest
  have pass : ∀ attr ∈ attributes, schema.Passes attr := by
    simp [attributes, schema, Schema.Passes, Schema.policy?, Attribute.kind, Policy.admits]
  have refused : ¬schema.Passes ⟨1, [1, 2, 3]⟩ := by
    simp [schema, Schema.Passes, Schema.policy?, Attribute.kind, Policy.admits]
  have fault : FirstFault schema (first ++ [0, 7, 0, 1, 1, 2, 3, 0, 0]) (.invalid 1) :=
    @FirstFault.later schema ⟨0x8001, [0xAA]⟩ [0x11, 0x22, 0x33] _ _ (by decide) (by decide)
      (pass _ List.mem_cons_self) (@FirstFault.refused schema ⟨1, [1, 2, 3]⟩ [0, 0] (by decide)
        refused)
  rcases parse_accepts_format schema (first ++ [0, 4, 0, 2] ++ second) with ⟨accepts, holds, _⟩
  rcases accepts.mpr ⟨attributes, format, pass⟩ with ⟨table, parsed⟩
  have found := holds attributes table format parsed
  exact ⟨⟨table, parsed, (found 1).trans (by decide), (found 2).trans (by decide)⟩,
    ((parse_accepts_format schema _).2.2 _).mpr fault⟩

end AttributeTable

end PacketExpr
