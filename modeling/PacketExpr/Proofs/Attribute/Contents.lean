import PacketExpr.Attribute.Table
import PacketExpr.Proofs.Except
import Mathlib.Data.List.Induction

/-!
# What a table holds

A table is determined by the attributes of its level: for each kind that the schema covers it holds
the payload of the last attribute of that kind, and nothing for any other kind.
`AttributeTable.holding` is this table, and `AttributeTable.parse_eq_ok_iff` says when parsing gives
it.  Attributes that were written one after the other are all read back.
-/

namespace PacketExpr

namespace Attribute

/-- The bytes of attributes that are written one after the other. -/
def encodeAll (attributes : List Attribute) : Bytes := attributes.flatMap encode

/-- The payload of the last attribute of a kind. -/
def lastPayload? (kind : Nat) (attributes : List Attribute) : Option Bytes :=
  (attributes.filter fun attr => attr.kind = kind).getLast?.map payload

@[simp]
theorem encodeAll_nil : encodeAll [] = [] := rfl

@[simp]
theorem encodeAll_cons (attr : Attribute) (attributes : List Attribute) :
    encodeAll (attr :: attributes) = attr.encode ++ encodeAll attributes := rfl

theorem encodeAll_append (front back : List Attribute) :
    encodeAll (front ++ back) = encodeAll front ++ encodeAll back :=
  List.flatMap_append

theorem encodeAll_wholeWords (attributes : List Attribute) :
    (encodeAll attributes).length % 4 = 0 := by
  induction attributes with
  | nil => rfl
  | cons attr attributes ih =>
      rw [encodeAll_cons, List.length_append, Nat.add_mod, attr.encode_wholeWords, ih]

theorem size_le_length_encodeAll {attributes : List Attribute} {attr : Attribute}
    (attr_mem : attr ∈ attributes) : attr.size ≤ (encodeAll attributes).length := by
  rcases List.append_of_mem attr_mem with ⟨front, back, rfl⟩
  have padded := le_paddedSize attr.size
  rw [encodeAll_append, encodeAll_cons, List.length_append, List.length_append, length_encode]
  omega

/-- The last payload of a kind changes only if the attribute that is added is of this kind. -/
theorem lastPayload?_concat (kind : Nat) (attributes : List Attribute) (attr : Attribute) :
    lastPayload? kind (attributes ++ [attr]) =
      if attr.kind = kind then some attr.payload else lastPayload? kind attributes := by
  simp only [lastPayload?]
  rw [List.filter_append]
  split
  · next sameKind => simp [sameKind]
  · next otherKind => simp [otherKind]

theorem lastPayload?_of_absent {kind : Nat} {attributes : List Attribute}
    (absent : ∀ attr ∈ attributes, attr.kind ≠ kind) : lastPayload? kind attributes = none := by
  have noneLeft : (attributes.filter fun attr => attr.kind = kind) = [] := by
    simpa [List.filter_eq_nil_iff] using absent
  rw [lastPayload?, noneLeft]
  rfl

/-- If all kinds are different, every attribute is the last one of its kind. -/
theorem lastPayload?_of_mem {attributes : List Attribute}
    (distinct : (attributes.map kind).Nodup) {attr : Attribute} (attr_mem : attr ∈ attributes) :
    lastPayload? attr.kind attributes = some attr.payload := by
  induction attributes using List.reverseRecOn with
  | nil => cases attr_mem
  | append_singleton front last ih =>
      rw [List.map_append, List.nodup_append] at distinct
      rcases distinct with ⟨distinctFront, _, apart⟩
      rw [lastPayload?_concat]
      rcases List.mem_append.mp attr_mem with front_mem | last_mem
      · have otherKind : last.kind ≠ attr.kind :=
          (apart _ (List.mem_map_of_mem front_mem) _ List.mem_cons_self).symm
        rw [if_neg otherKind]
        exact ih distinctFront front_mem
      · rw [List.mem_singleton.mp last_mem, if_pos rfl]

end Attribute

/-- A schema lets an attribute pass: its kind is not covered, or its payload is admitted. -/
def Schema.Passes (schema : Schema) (attr : Attribute) : Prop :=
  ∀ policy ∈ schema.policy? attr.kind, policy.admits attr.payload = true

/-- The kinds that a schema covers are those below its size, apart from kind 0. -/
theorem Schema.isSome_policy?_iff {schema : Schema} {kind : Nat} :
    (schema.policy? kind).isSome = true ↔ 0 < kind ∧ kind < schema.size := by
  simp only [policy?]
  split
  · next isZero => simp [isZero]
  · next notZero => simp [Nat.pos_of_ne_zero notZero]

/-- The stream of attributes that were written one after the other consists of these attributes. -/
theorem AttributeStream.ofBytes_encodeAll {attributes : List Attribute}
    (fit : ∀ attr ∈ attributes, attr.size ≤ Attribute.maxSize) :
    ofBytes (Attribute.encodeAll attributes) = ⟨attributes, true⟩ := by
  induction attributes with
  | nil => rw [Attribute.encodeAll_nil, ofBytes]
  | cons attr attributes ih =>
      have fits := fit attr List.mem_cons_self
      have fitRest : ∀ other ∈ attributes, other.size ≤ Attribute.maxSize :=
        fun other other_mem => fit other (List.mem_cons_of_mem _ other_mem)
      rw [Attribute.encodeAll_cons, ofBytes_of_read? (Attribute.read?_encode fits _), ih fitRest]

namespace AttributeTable

/-- The table of the attributes of one level. -/
def holding (schema : Schema) (attributes : List Attribute) : AttributeTable :=
  ⟨Array.ofFn fun kind : Fin schema.size =>
    if (schema.policy? kind).isSome then Attribute.lastPayload? kind attributes else none⟩

/-- What is found under a kind that the schema covers is the last payload of this kind. -/
theorem get?_holding (schema : Schema) (attributes : List Attribute) (kind : Nat) :
    (holding schema attributes).get? kind =
      if (schema.policy? kind).isSome then Attribute.lastPayload? kind attributes else none := by
  by_cases inside : kind < schema.size
  · simp [get?, holding, inside]
  · have notCovered : ¬(schema.policy? kind).isSome = true := by
      rw [Schema.isSome_policy?_iff]
      exact fun covered => inside covered.2
    rw [if_neg notCovered]
    simp [get?, holding, inside]

theorem get?_holding_of_covered {schema : Schema} {kind : Nat}
    (covered : (schema.policy? kind).isSome = true) (attributes : List Attribute) :
    (holding schema attributes).get? kind = Attribute.lastPayload? kind attributes := by
  rw [get?_holding, if_pos covered]

theorem get?_holding_of_mem {schema : Schema} {attributes : List Attribute} {attr : Attribute}
    (distinct : (attributes.map Attribute.kind).Nodup) (attr_mem : attr ∈ attributes)
    (covered : (schema.policy? attr.kind).isSome = true) :
    (holding schema attributes).get? attr.kind = some attr.payload := by
  rw [get?_holding_of_covered covered]
  exact Attribute.lastPayload?_of_mem distinct attr_mem

theorem get?_holding_of_absent (schema : Schema) {attributes : List Attribute} {kind : Nat}
    (absent : ∀ attr ∈ attributes, attr.kind ≠ kind) :
    (holding schema attributes).get? kind = none := by
  rw [get?_holding, Attribute.lastPayload?_of_absent absent, ite_self]

theorem get?_setIfInBounds (table : AttributeTable) (payload : Bytes) (changed kind : Nat) :
    (⟨table.entries.setIfInBounds changed (some payload)⟩ : AttributeTable).get? kind =
      if changed = kind ∧ kind < table.entries.size then some payload else table.get? kind := by
  simp only [get?]
  rw [Array.getElem?_setIfInBounds]
  by_cases same : changed = kind
  · subst same
    by_cases inside : changed < table.entries.size
    · simp [inside]
    · simp [inside]
  · simp [same]

/-- Tables of one size that hold the same payloads are equal. -/
theorem eq_of_get?_eq {table other : AttributeTable}
    (sameSize : table.entries.size = other.entries.size)
    (samePayloads : ∀ kind, table.get? kind = other.get? kind) : table = other := by
  rcases table with ⟨entries⟩
  rcases other with ⟨others⟩
  congr
  apply Array.ext sameSize
  intro kind inside insideOther
  have same := samePayloads kind
  simpa [get?, inside, insideOther] using same

theorem holding_nil (schema : Schema) : holding schema [] = blank schema.size := by
  apply eq_of_get?_eq
  · simp [holding, blank]
  · intro kind
    rw [get?_holding]
    by_cases inside : kind < schema.size
    · simp [Attribute.lastPayload?, blank, get?, inside]
    · simp [Attribute.lastPayload?, blank, get?, inside]

/-- One more attribute that passes replaces what the table holds of its kind. -/
theorem insert_holding_eq_ok_iff {schema : Schema} {attributes : List Attribute}
    {attr : Attribute} {table : AttributeTable} :
    insert schema (holding schema attributes) attr = .ok table ↔
      schema.Passes attr ∧ table = holding schema (attributes ++ [attr]) := by
  simp only [insert, Schema.Passes]
  cases covered : schema.policy? attr.kind with
  | none =>
      have same : holding schema (attributes ++ [attr]) = holding schema attributes := by
        apply eq_of_get?_eq
        · simp [holding]
        · intro kind
          rw [get?_holding, get?_holding, Attribute.lastPayload?_concat]
          by_cases sameKind : attr.kind = kind
          · subst sameKind
            simp [covered]
          · rw [if_neg sameKind]
      simp only [Option.mem_def, reduceCtorEq, false_implies, implies_true, true_and, same,
        Except.ok.injEq]
      exact eq_comm
  | some policy =>
      have inside : attr.kind < (holding schema attributes).entries.size := by
        have bounds := Schema.isSome_policy?_iff.mp (Option.isSome_of_eq_some covered)
        simpa [holding] using bounds.2
      have replaced : holding schema (attributes ++ [attr]) =
          ⟨(holding schema attributes).entries.setIfInBounds attr.kind (some attr.payload)⟩ := by
        apply eq_of_get?_eq
        · simp [holding]
        · intro kind
          rw [get?_setIfInBounds, get?_holding, get?_holding, Attribute.lastPayload?_concat]
          by_cases sameKind : attr.kind = kind
          · subst sameKind
            simp [covered, inside]
          · simp [sameKind]
      simp only [Option.mem_def, Option.some.injEq, forall_eq', replaced]
      split
      · next admitted => simp [admitted, eq_comm]
      · next refused => simp [refused]

/-- Inserting attributes one after the other succeeds if all of them pass, and then the table holds
those that were there before and the new ones behind them. -/
theorem foldlM_insert_eq_ok_iff {schema : Schema} {front attributes : List Attribute}
    {table : AttributeTable} :
    attributes.foldlM (insert schema) (holding schema front) = .ok table ↔
      (∀ attr ∈ attributes, schema.Passes attr) ∧ table = holding schema (front ++ attributes) := by
  induction attributes generalizing front with
  | nil =>
      rw [List.foldlM_nil, pure_eq_ok_iff, List.append_nil]
      simp [eq_comm]
  | cons attr attributes ih =>
      simp only [List.foldlM_cons, bind_eq_ok_iff, insert_holding_eq_ok_iff, List.forall_mem_cons]
      constructor
      · rintro ⟨next, ⟨passes, rfl⟩, rest⟩
        rw [ih, List.append_assoc] at rest
        exact ⟨⟨passes, rest.1⟩, rest.2⟩
      · rintro ⟨⟨passes, passRest⟩, rfl⟩
        refine ⟨_, ⟨passes, rfl⟩, ?_⟩
        rw [ih, List.append_assoc]
        exact ⟨passRest, rfl⟩

/-- Bytes are accepted if and only if they consist of attributes which the schema lets pass. -/
theorem parse_eq_ok_iff {schema : Schema} {bytes : Bytes} {table : AttributeTable} :
    parse schema bytes = .ok table ↔
      (AttributeStream.ofBytes bytes).complete = true ∧
        (∀ attr ∈ (AttributeStream.ofBytes bytes).attributes, schema.Passes attr) ∧
        table = holding schema (AttributeStream.ofBytes bytes).attributes := by
  simp only [parse, ← holding_nil, bind_eq_ok_iff, foldlM_insert_eq_ok_iff, List.nil_append]
  constructor
  · rintro ⟨found, ⟨pass, rfl⟩, checked⟩
    split at checked
    · next complete =>
        cases checked
        exact ⟨complete, pass, rfl⟩
    · cases checked
  · rintro ⟨complete, pass, rfl⟩
    exact ⟨_, ⟨pass, rfl⟩, if_pos complete⟩

/-- Attributes that were written one after the other are all read back. -/
theorem parse_encodeAll {schema : Schema} {attributes : List Attribute}
    (fit : ∀ attr ∈ attributes, attr.size ≤ Attribute.maxSize)
    (pass : ∀ attr ∈ attributes, schema.Passes attr) :
    parse schema (Attribute.encodeAll attributes) = .ok (holding schema attributes) := by
  rw [parse_eq_ok_iff, AttributeStream.ofBytes_encodeAll fit]
  exact ⟨rfl, pass, rfl⟩

end AttributeTable

theorem ByteArray.toList_loop_eq (bytes : ByteArray) (start : Nat) (front : List UInt8) :
    ByteArray.toList.loop bytes start front = front.reverse ++ bytes.data.toList.drop start := by
  fun_induction ByteArray.toList.loop bytes start front with
  | case1 start front inside ih =>
      have insideList : start < bytes.data.toList.length := by simpa using inside
      have byte : bytes.get! start = bytes.data.toList[start] := by
        rw [ByteArray.get!, getElem!_pos bytes.data start inside, Array.getElem_toList]
      rw [ih, List.drop_eq_getElem_cons insideList, byte]
      simp
  | case2 start front outside =>
      have outsideList : bytes.data.toList.length ≤ start := by simpa using outside
      rw [List.drop_eq_nil_of_le outsideList, List.append_nil]

theorem length_toUTF8 (text : String) : text.toUTF8.toList.length = text.utf8ByteSize := by
  rw [ByteArray.toList, ByteArray.toList_loop_eq]
  simp

/-- The bytes of a text are read as the text. -/
theorem fromUTF8?_toUTF8 (text : String) :
    String.fromUTF8? ⟨text.toUTF8.toList.toArray⟩ = some text := by
  have sameBytes : (⟨text.toUTF8.toList.toArray⟩ : ByteArray) = text.toUTF8 := by
    rw [ByteArray.toList, ByteArray.toList_loop_eq]
    simp
  have valid : text.toUTF8.IsValidUTF8 := text.isValidUTF8
  rw [sameBytes, String.fromUTF8?, dif_pos valid]
  rfl

/-- One NUL is taken off, also where the bytes in front of it end in another one. -/
theorem trimNul_concat_zero (bytes : Bytes) : trimNul (bytes ++ [0]) = bytes := by
  simp [trimNul]

namespace AttributeTable

variable {table : AttributeTable} {kind : Nat}

theorem word?_of_get? {number : UInt32} (found : table.get? kind = some (Bytes.ofWord number)) :
    table.word? kind = some number := by
  rw [word?, found]
  exact Bytes.toWord?_ofWord number

theorem text?_of_get? {text : String}
    (found : table.get? kind = some (text.toUTF8.toList ++ [0])) :
    table.text? kind = .ok (some text) := by
  simp only [text?, found, trimNul_concat_zero, fromUTF8?_toUTF8]

end AttributeTable

end PacketExpr
