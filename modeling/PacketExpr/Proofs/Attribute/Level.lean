import PacketExpr.Proofs.Attribute.Format
import Mathlib.Data.List.Forall2

/-!
# Levels of attributes

The bytes of a level are of the format, and the schema lets each of their attributes pass.  Parsing
gives the table of a level, and it fails for the first fault of bytes that are no level.

The table holds payloads by kind, so it does not tell in which order attributes of different kinds
came, nor which attributes the schema does not cover.  `Attribute.SameByKind` compares two lists of
attributes kind by kind.  If the payloads of one list pass, then so do payloads of the other one
that are the same in the eyes of the schema, and the two tables hold the same.
-/

namespace PacketExpr

open Attribute

/-- The bytes are those of the attributes, and the schema lets each of them pass. -/
structure Schema.Level (schema : Schema) (attributes : List Attribute) (bytes : Bytes) : Prop where
  format : Format attributes bytes
  pass : ∀ attr ∈ attributes, schema.Passes attr

instance (schema : Schema) (attr : Attribute) : Decidable (schema.Passes attr) :=
  inferInstanceAs
    (Decidable (∀ policy ∈ schema.policy? attr.kind, policy.admits attr.payload = true))

namespace AttributeTable

variable {schema : Schema} {bytes : Bytes}

/-- Parsing accepts the bytes of levels, and gives the table of the level. -/
theorem parse_eq_ok_iff_level {table : AttributeTable} :
    parse schema bytes = .ok table ↔
      ∃ attributes, schema.Level attributes bytes ∧ table = holding schema attributes := by
  constructor
  · intro parsed
    rcases format_or_firstFault schema bytes with ⟨attributes, format, pass⟩ | ⟨error, fault⟩
    · rw [parse_of_format format pass] at parsed
      cases parsed
      exact ⟨attributes, ⟨format, pass⟩, rfl⟩
    · rw [parse_of_firstFault fault] at parsed
      cases parsed
  · rintro ⟨attributes, level, rfl⟩
    exact parse_of_format level.format level.pass

end AttributeTable

/-- What is written has the format. -/
theorem Attribute.Format.encodeAll {attributes : List Attribute}
    (fit : ∀ attr ∈ attributes, attr.size ≤ maxSize) :
    Format attributes (Attribute.encodeAll attributes) := by
  induction attributes with
  | nil => exact .empty
  | cons attr attributes ih =>
      rcases List.forall_mem_cons.mp fit with ⟨fits, fitRest⟩
      have padded : (List.replicate attr.paddingSize (0 : UInt8)).length = attr.paddingSize :=
        List.length_replicate
      simpa [encode, encodeBefore, paddingSize] using Format.cons fits padded (ih fitRest)

/-- The format is that of the bytes which are read to their end.  A schema without kinds refuses
nothing, so the first fault of other bytes is that they do not come to an end. -/
theorem Attribute.format_iff_ofBytes {attributes : List Attribute} {bytes : Bytes} :
    Format attributes bytes ↔ AttributeStream.ofBytes bytes = ⟨attributes, true⟩ := by
  constructor
  · exact AttributeStream.ofBytes_of_format
  · intro read
    rcases format_or_firstFault #[] bytes with ⟨others, format, _⟩ | ⟨error, fault⟩
    · have readOthers := AttributeStream.ofBytes_of_format format
      rw [read] at readOthers
      cases readOthers
      exact format
    · have accepted : AttributeTable.parse #[] bytes =
          .ok (AttributeTable.holding #[] attributes) := by
        rw [AttributeTable.parse_eq_ok_iff, read]
        simp [Schema.Passes, Schema.policy?]
      rw [AttributeTable.parse_of_firstFault fault] at accepted
      cases accepted

instance (attributes : List Attribute) (bytes : Bytes) : Decidable (Format attributes bytes) :=
  decidable_of_iff _ format_iff_ofBytes.symm

/-- Bytes are of the format for one list of attributes at most. -/
theorem Attribute.Format.unique {attributes others : List Attribute} {bytes : Bytes}
    (format : Format attributes bytes) (otherFormat : Format others bytes) :
    attributes = others := by
  have read := format_iff_ofBytes.mp format
  have readOther := format_iff_ofBytes.mp otherFormat
  rw [read] at readOther
  cases readOther
  rfl

namespace Attribute

/-- The payloads of the attributes of one kind, in their order. -/
def payloads (kind : Nat) (attributes : List Attribute) : List Bytes :=
  (attributes.filter fun attr => attr.kind = kind).map payload

/-- Of each covered kind there are as many attributes in both lists, and their payloads are the same
one by one.  Attributes of different kinds may come in any order, and of those that are not covered
any number anywhere. -/
def SameByKind (Covered : Nat → Prop) (Same : Nat → Bytes → Bytes → Prop)
    (attributes others : List Attribute) : Prop :=
  ∀ kind, Covered kind → List.Forall₂ (Same kind) (payloads kind attributes) (payloads kind others)

/-- There is an attribute of the kind. -/
def Carries (kind : Nat) (attributes : List Attribute) : Prop :=
  ∃ attr ∈ attributes, attr.kind = kind

instance (kind : Nat) (attributes : List Attribute) : Decidable (Carries kind attributes) :=
  inferInstanceAs (Decidable (∃ attr ∈ attributes, attr.kind = kind))

theorem isSome_lastPayload?_iff {kind : Nat} {attributes : List Attribute} :
    (lastPayload? kind attributes).isSome = true ↔ Carries kind attributes := by
  simp [lastPayload?, Carries]

theorem lastPayload?_eq_getLast? (kind : Nat) (attributes : List Attribute) :
    lastPayload? kind attributes = (payloads kind attributes).getLast? := by
  simp [lastPayload?, payloads]

theorem mem_payloads_iff {kind : Nat} {attributes : List Attribute} {bytes : Bytes} :
    bytes ∈ payloads kind attributes ↔
      ∃ attr ∈ attributes, attr.kind = kind ∧ attr.payload = bytes := by
  simp [payloads, and_assoc]

theorem exists_of_mem_right {α β : Type} {related : α → β → Prop} {lefts : List α}
    {rights : List β} (relate : List.Forall₂ related lefts rights) {right : β}
    (right_mem : right ∈ rights) : ∃ left ∈ lefts, related left right := by
  induction relate with
  | nil => cases right_mem
  | cons first _ ih =>
      rcases List.mem_cons.mp right_mem with rfl | later
      · exact ⟨_, List.mem_cons_self, first⟩
      · rcases ih later with ⟨left, left_mem, relates⟩
        exact ⟨left, List.mem_cons_of_mem _ left_mem, relates⟩

theorem rel_getLast? {α β : Type} {related : α → β → Prop} {lefts : List α} {rights : List β}
    (relate : List.Forall₂ related lefts rights) :
    Option.Rel related lefts.getLast? rights.getLast? := by
  have backwards := List.forall₂_reverse_iff.mpr relate
  rw [List.getLast?_eq_head?_reverse, List.getLast?_eq_head?_reverse]
  generalize lefts.reverse = lefts, rights.reverse = rights at backwards ⊢
  cases backwards with
  | nil => exact .none
  | cons last _ => exact .some last

theorem eq_none_of_rel {α β : Type} {related : α → β → Prop} {found : Option β}
    (relate : Option.Rel related none found) : found = none := by
  cases relate
  rfl

theorem exists_of_rel_some {α β : Type} {related : α → β → Prop} {left : α} {found : Option β}
    (relate : Option.Rel related (some left) found) :
    ∃ right, found = some right ∧ related left right := by
  cases relate with
  | some relates => exact ⟨_, rfl, relates⟩

variable {Covered : Nat → Prop} {Same : Nat → Bytes → Bytes → Prop}
  {attributes others : List Attribute}

/-- The payloads that count are the same for every covered kind, if those of the kind are the same
one by one. -/
theorem SameByKind.rel_lastPayload? (same : SameByKind Covered Same attributes others)
    {kind : Nat} (covered : Covered kind) :
    Option.Rel (Same kind) (lastPayload? kind attributes) (lastPayload? kind others) := by
  rw [lastPayload?_eq_getLast?, lastPayload?_eq_getLast?]
  exact rel_getLast? (same kind covered)

/-- If a schema admits whatever is the same as something that it admits, then attributes pass if the
same attributes do. -/
theorem SameByKind.pass {schema : Schema} (same : SameByKind Covered Same attributes others)
    (admits : ∀ kind policy, schema.policy? kind = some policy → Covered kind ∧
      ∀ payload other, Same kind payload other → policy.admits payload = true →
        policy.admits other = true)
    (pass : ∀ attr ∈ attributes, schema.Passes attr) : ∀ attr ∈ others, schema.Passes attr := by
  intro other other_mem policy covers
  rcases admits other.kind policy covers with ⟨covered, admitsSame⟩
  have payload_mem : other.payload ∈ payloads other.kind others :=
    mem_payloads_iff.mpr ⟨other, other_mem, rfl, rfl⟩
  rcases exists_of_mem_right (same other.kind covered) payload_mem with
    ⟨payload, found, samePayload⟩
  rcases mem_payloads_iff.mp found with ⟨attr, attr_mem, sameKind, rfl⟩
  apply admitsSame attr.payload other.payload samePayload
  apply pass attr attr_mem policy
  rw [sameKind]
  exact covers

end Attribute

end PacketExpr
