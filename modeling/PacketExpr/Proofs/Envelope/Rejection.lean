import PacketExpr.Envelope.Message
import PacketExpr.Proofs.Attribute.Level
import PacketExpr.Proofs.Violation

/-!
# Which envelopes are accepted, and what is logged

An envelope is checked in a fixed order: the configuration, the stream of attributes, the name, the
presence of both fields, and only then what the name stands for and what the data hold.
`Envelope.rules` lists these checks as rules, each of which says by itself when it is violated.  An
envelope is refused for the first rule that it violates.

The log follows the outcome.  The rules up to the presence of the data are the opening rules: an
envelope that violates one of them is refused in silence, and every other envelope is logged by one
event, which tells how it ended.
-/

namespace PacketExpr

open Attribute (lastPayload?)

/-- Bytes are read as the text whose bytes they are, if there is one. -/
theorem fromUTF8?_eq_some_iff {bytes : Bytes} {text : String} :
    String.fromUTF8? ⟨bytes.toArray⟩ = some text ↔ text.toUTF8.toList = bytes := by
  constructor
  · intro read
    unfold String.fromUTF8? at read
    split at read
    · cases read
      rw [ByteArray.toList, ByteArray.toList_loop_eq]
      rfl
    · cases read
  · rintro rfl
    exact fromUTF8?_toUTF8 text

/-- A name without a NUL at its end is left by what holds it with a NUL behind it, or without. -/
theorem trimNul_eq_iff {payload name : Bytes} (noNul : name.getLast? ≠ some 0) :
    trimNul payload = name ↔ payload = name ∨ payload = name ++ [0] := by
  constructor
  · rintro rfl
    unfold trimNul
    split
    · next ends =>
        right
        exact (List.dropLast_append_getLast? 0 ends).symm
    · exact Or.inl rfl
  · rintro (rfl | rfl)
    · exact if_neg noNul
    · exact trimNul_concat_zero name

namespace AttributeTable

variable {table : AttributeTable} {kind : Nat}

theorem text?_eq_ok_none_iff : table.text? kind = .ok none ↔ table.get? kind = none := by
  unfold text?
  split
  · next missing => simp [missing]
  · next payload found =>
      split
      · simp [found]
      · simp [found]

/-- A text is what the payload encodes in front of its zero bytes. -/
theorem text?_eq_ok_some_iff {text : String} :
    table.text? kind = .ok (some text) ↔
      ∃ payload, table.get? kind = some payload ∧ text.toUTF8.toList = trimNul payload := by
  unfold text?
  split
  · next missing => simp [missing]
  · next payload found =>
      rw [found]
      simp only [Option.some.injEq, exists_eq_left', ← fromUTF8?_eq_some_iff]
      split
      · next other read => simp [read]
      · next unreadable => simp [unreadable]

theorem text?_eq_error_iff {error : AttributeError} :
    table.text? kind = .error error ↔
      ∃ payload, table.get? kind = some payload ∧
        (∀ text : String, text.toUTF8.toList ≠ trimNul payload) ∧ error = .invalid kind := by
  unfold text?
  split
  · next missing => simp [missing]
  · next payload found =>
      rw [found]
      simp only [Option.some.injEq, exists_eq_left', ne_eq, ← fromUTF8?_eq_some_iff]
      split
      · next text read => simp [read]
      · next unreadable => simp [unreadable, eq_comm]

end AttributeTable

namespace Envelope

/-- The attributes of an envelope: names are short, and data are empty or have at least one
header. -/
structure WellFormed (attributes : List Attribute) (message : Bytes) : Prop where
  format : Attribute.Format attributes message
  names : ∀ attr ∈ attributes, attr.kind = Field.name.kind → (trimNul attr.payload).length ≤ 15
  data : ∀ attr ∈ attributes, attr.kind = Field.data.kind →
    attr.payload = [] ∨ 4 ≤ attr.payload.length

/-- What the last attribute of a field holds in a well formed envelope. -/
def Holds (message : Bytes) (field : Field) (payload? : Option Bytes) : Prop :=
  ∃ attributes, WellFormed attributes message ∧ lastPayload? field.kind attributes = payload?

/-- A rule about an envelope. -/
inductive Rule where
  /-- There are register files of the size that is configured. -/
  | layout
  /-- The envelope is well formed. -/
  | stream
  | nameIsText
  | namePresent
  | dataPresent
  /-- The name is that of a kind of expressions. -/
  | nameKnown
  /-- The data make an expression. -/
  | dataAccepted

/-- The envelope violates the rule, which is reported as the error. -/
def Violates (config : Config) (message : Bytes) : Rule → Error → Prop
  | .layout, error =>
      ¬(8 ≤ config.registerWords.toNat ∧ config.registerWords.toNat ≤ 1024) ∧
        error = .invalidConfig (.invalidCapacity config.registerWords.toNat)
  | .stream, error =>
      ∃ fault, Attribute.FirstFault schema message fault ∧ error = .stream fault
  | .nameIsText, error =>
      ∃ payload, Holds message .name (some payload) ∧
        (∀ text : String, text.toUTF8.toList ≠ trimNul payload) ∧ error = .stream (.invalid 1)
  | .namePresent, error => Holds message .name none ∧ error = .missingField .name
  | .dataPresent, error => Holds message .data none ∧ error = .missingField .data
  | .nameKnown, error =>
      ∃ payload text, Holds message .name (some payload) ∧
        text.toUTF8.toList = trimNul payload ∧ text ≠ Bitwise.name ∧
        error = .unknownExpression text
  | .dataAccepted, error =>
      ∃ layout : Layout, layout.words = config.registerWords.toNat ∧
        ∃ data fault, Holds message .data (some data) ∧
          Bitwise.decode layout data = .error fault ∧ error = .bitwise fault

/-- The rules that have to be kept before the name is looked up. -/
def openingRules : List Rule := [.layout, .stream, .nameIsText, .namePresent, .dataPresent]

/-- All rules, in the order in which they are checked. -/
def rules : List Rule := openingRules ++ [.nameKnown, .dataAccepted]

variable {config : Config} {message : Bytes} {table : AttributeTable} {field : Field}
  {payload? : Option Bytes} {layout : Layout}

/-- The schema asks for a short name and for data with room for a header, and for nothing else. -/
theorem passes_iff {attr : Attribute} :
    schema.Passes attr ↔
      (attr.kind = Field.name.kind → (trimNul attr.payload).length ≤ 15) ∧
        (attr.kind = Field.data.kind → attr.payload = [] ∨ 4 ≤ attr.payload.length) := by
  unfold Schema.Passes Schema.policy?
  generalize attr.kind = kind
  match kind with
  | 0 => simp [Field.kind]
  | 1 => simp [schema, Policy.admits, maxNameSize, Field.kind]
  | 2 =>
      have oneHeader : Attribute.headerSize ≤ attr.payload.length ↔ 4 ≤ attr.payload.length :=
        Iff.rfl
      simp [schema, Policy.admits, Field.kind, oneHeader]
  | kind + 3 => simp [schema, Field.kind]

theorem level_iff_wellFormed {attributes : List Attribute} :
    schema.Level attributes message ↔ WellFormed attributes message := by
  constructor
  · intro level
    exact ⟨level.format, fun attr attr_mem => (passes_iff.mp (level.pass attr attr_mem)).1,
      fun attr attr_mem => (passes_iff.mp (level.pass attr attr_mem)).2⟩
  · intro wellFormed
    refine ⟨wellFormed.format, ?_⟩
    intro attr attr_mem
    exact passes_iff.mpr ⟨wellFormed.names attr attr_mem, wellFormed.data attr attr_mem⟩

theorem get?_holding_field (attributes : List Attribute) (field : Field) :
    (AttributeTable.holding schema attributes).get? field.kind =
      lastPayload? field.kind attributes := by
  apply AttributeTable.get?_holding_of_covered
  cases field <;> rfl

/-- An envelope holds what the table of its attributes holds. -/
theorem holds_iff (parsed : AttributeTable.parse schema message = .ok table) :
    Holds message field payload? ↔ table.get? field.kind = payload? := by
  rcases AttributeTable.parse_eq_ok_iff_level.mp parsed with ⟨attributes, level, rfl⟩
  rw [get?_holding_field]
  constructor
  · rintro ⟨others, wellFormed, found⟩
    rwa [level.format.unique wellFormed.format]
  · intro found
    exact ⟨attributes, level_iff_wellFormed.mp level, found⟩

theorem exists_parse_of_holds (holds : Holds message field payload?) :
    ∃ table, AttributeTable.parse schema message = .ok table := by
  rcases holds with ⟨attributes, wellFormed, _⟩
  exact ⟨_, AttributeTable.parse_eq_ok_iff_level.mpr
    ⟨attributes, level_iff_wellFormed.mpr wellFormed, rfl⟩⟩

theorem layout_eq_ok_iff :
    config.layout = .ok layout ↔ layout.words = config.registerWords.toNat := by
  rcases layout with ⟨words, minWords_le, le_maxWords⟩
  simp only [Config.layout, Layout.ofWords]
  split
  · simp [eq_comm]
  · next outside =>
      simp only [reduceCtorEq, false_iff]
      rintro rfl
      exact outside ⟨minWords_le, le_maxWords⟩

theorem reports_layout :
    Reports (Violates config message) [.layout] (config.layout.mapError .invalidConfig) := by
  apply Reports.of_iff
  intro error
  simp only [mapError_eq_error_iff, Violates, Config.layout, Layout.ofWords, Register.minWords,
    Register.maxWords]
  by_cases inBounds : 8 ≤ config.registerWords.toNat ∧ config.registerWords.toNat ≤ 1024
  · simp [inBounds]
  · simp [inBounds]

theorem reports_parse :
    Reports (Violates config message) [.stream]
      ((AttributeTable.parse schema message).mapError .stream) := by
  apply Reports.of_iff
  intro error
  simp only [mapError_eq_error_iff, AttributeTable.parse_eq_error_iff_firstFault, Violates]

theorem reports_text (parsed : AttributeTable.parse schema message = .ok table) :
    Reports (Violates config message) [.nameIsText]
      ((table.text? Field.name.kind).mapError .stream) := by
  apply Reports.of_iff
  intro error
  simp only [mapError_eq_error_iff, AttributeTable.text?_eq_error_iff, Violates, holds_iff parsed]
  constructor
  · rintro ⟨_, ⟨payload, found, noText, rfl⟩, rfl⟩
    exact ⟨payload, found, noText, rfl⟩
  · rintro ⟨payload, found, noText, rfl⟩
    exact ⟨_, ⟨payload, found, noText, rfl⟩, rfl⟩

/-- The configuration is checked before the message, the message before its name, and the data come
last. -/
theorem reports_openMessage :
    Reports (Violates config message) openingRules (openMessage config message) := by
  apply reports_layout.bind
  intro layout _
  apply reports_parse.bind
  intro table accepted
  have parsed := mapError_eq_ok_iff.mp accepted
  apply (reports_text parsed).bind
  intro name? read
  have text := mapError_eq_ok_iff.mp read
  intro error
  simp only [firstViolation_cons_iff, not_firstViolation_nil, and_false, or_false, Violates,
    holds_iff parsed]
  cases name? with
  | none =>
      have missing := AttributeTable.text?_eq_ok_none_iff.mp text
      simp [missing, eq_comm]
  | some name =>
      rcases AttributeTable.text?_eq_ok_some_iff.mp text with ⟨payload, found, _⟩
      cases dataFound : table.get? Field.data.kind with
      | none => simp [found, eq_comm]
      | some data => simp [found]

/-- An opened envelope has the layout of the configuration, and what its attributes hold. -/
theorem openMessage_eq_ok_iff {opened : Opened} :
    openMessage config message = .ok opened ↔
      opened.layout.words = config.registerWords.toNat ∧
        (∃ payload, Holds message .name (some payload) ∧
          opened.name.toUTF8.toList = trimNul payload) ∧
        Holds message .data (some opened.data) := by
  simp only [openMessage, bind_eq_ok_iff, mapError_eq_ok_iff, layout_eq_ok_iff]
  constructor
  · rintro ⟨layout, sameWords, table, parsed, name?, text, rest⟩
    cases name? with
    | none => cases rest
    | some name =>
        rcases AttributeTable.text?_eq_ok_some_iff.mp text with ⟨payload, found, named⟩
        cases dataFound : table.get? Field.data.kind with
        | none => simp [dataFound] at rest
        | some data =>
            simp only [dataFound, Except.ok.injEq] at rest
            rw [← rest]
            exact ⟨sameWords, ⟨payload, (holds_iff parsed).mpr found, named⟩,
              (holds_iff parsed).mpr dataFound⟩
  · rintro ⟨sameWords, ⟨payload, holdsName, named⟩, holdsData⟩
    rcases exists_parse_of_holds holdsName with ⟨table, parsed⟩
    refine ⟨opened.layout, sameWords, table, parsed, some opened.name, ?_, ?_⟩
    · exact AttributeTable.text?_eq_ok_some_iff.mpr
        ⟨payload, (holds_iff parsed).mp holdsName, named⟩
    · simp only [(holds_iff parsed).mp holdsData]

/-- Texts with the same bytes are the same. -/
theorem text_unique {text other : String} {bytes : Bytes} (spelled : text.toUTF8.toList = bytes)
    (otherSpelled : other.toUTF8.toList = bytes) : text = other := by
  have read := fromUTF8?_eq_some_iff.mpr spelled
  rw [fromUTF8?_eq_some_iff.mpr otherSpelled] at read
  exact (Option.some.inj read).symm

theorem Holds.unique {payload other : Option Bytes} (holds : Holds message field payload)
    (holdsOther : Holds message field other) : payload = other := by
  rcases exists_parse_of_holds holds with ⟨table, parsed⟩
  rw [← (holds_iff parsed).mp holds, ← (holds_iff parsed).mp holdsOther]

/-- An opened message is looked up by its name first, and only a known name has its data decoded. -/
theorem reports_decode_opened {opened : Opened}
    (accepted : openMessage config message = .ok opened) :
    Reports (Violates config message) [.nameKnown, .dataAccepted] opened.decode.outcome := by
  rcases openMessage_eq_ok_iff.mp accepted with ⟨sameWords, ⟨payload, holdsName, named⟩, holdsData⟩
  have unknown_iff (error : Error) : Violates config message .nameKnown error ↔
      opened.name ≠ Bitwise.name ∧ error = .unknownExpression opened.name := by
    constructor
    · rintro ⟨other, text, holdsOther, spelled, isOther, rfl⟩
      cases holdsName.unique holdsOther
      rw [text_unique named spelled]
      exact ⟨isOther, rfl⟩
    · rintro ⟨isOther, rfl⟩
      exact ⟨payload, opened.name, holdsName, named, isOther, rfl⟩
  have refused_iff (error : Error) : Violates config message .dataAccepted error ↔
      ∃ fault, Bitwise.decode opened.layout opened.data = .error fault ∧
        error = .bitwise fault := by
    constructor
    · rintro ⟨layout, otherWords, data, fault, holdsOther, refused, rfl⟩
      have sameLayout : layout = opened.layout := by
        have resolved := layout_eq_ok_iff.mpr otherWords
        rw [layout_eq_ok_iff.mpr sameWords] at resolved
        exact (Except.ok.inj resolved).symm
      cases holdsData.unique holdsOther
      rw [sameLayout] at refused
      exact ⟨fault, refused, rfl⟩
    · rintro ⟨fault, refused, rfl⟩
      exact ⟨opened.layout, sameWords, opened.data, fault, holdsData, refused, rfl⟩
  intro error
  simp only [firstViolation_cons_iff, not_firstViolation_nil, and_false, or_false, unknown_iff,
    refused_iff, Opened.decode]
  split
  · next isOther => simp [isOther, eq_comm]
  · next isBitwise =>
      cases Bitwise.decode opened.layout opened.data with
      | ok expression => simp [isBitwise]
      | error fault => simp [isBitwise, eq_comm]

/-- An envelope is refused for the first rule that it violates. -/
theorem reports_decode :
    Reports (Violates config message) rules (decode config message).outcome := by
  have steps : (decode config message).outcome =
      (do let opened ← openMessage config message; opened.decode.outcome) := by
    rw [decode]
    cases openMessage config message with
    | ok opened => rfl
    | error error => rfl
  rw [steps]
  apply reports_openMessage.bind
  intro opened accepted
  exact reports_decode_opened accepted

/-- A message is accepted if and only if it can be opened, has the name of the expression and data
that the decoder accepts. -/
theorem outcome_decode_eq_ok_iff {expression : Bitwise} :
    (decode config message).outcome = .ok expression ↔
      ∃ opened, openMessage config message = .ok opened ∧ opened.name = Bitwise.name ∧
        Bitwise.decode opened.layout opened.data = .ok expression := by
  rw [decode]
  cases openMessage config message with
  | error error => simp
  | ok opened =>
      simp only [Except.ok.injEq, exists_eq_left', Opened.decode]
      split
      · next isOther => simp [isOther]
      · next isBitwise =>
          rw [not_ne_iff] at isBitwise
          cases Bitwise.decode opened.layout opened.data with
          | error fault => simp
          | ok found => simp [isBitwise]

theorem getLast?_name : Bitwise.name.toUTF8.toList.getLast? ≠ some 0 := by
  rw [ByteArray.toList, ByteArray.toList_loop_eq]
  decide

/-- The log tells how an envelope ended that could be opened, by one event. -/
theorem Opened.logs (opened : Opened) :
    ∃ event, opened.decode.events = [event] ∧
      (event = .built ↔ ∃ expression, opened.decode.outcome = .ok expression) ∧
      (∀ fault, event = .rejected fault ↔ opened.decode.outcome = .error (.bitwise fault)) ∧
      ∀ name, event = .unknownExpression name ↔
        opened.decode.outcome = .error (.unknownExpression name) := by
  rw [Opened.decode]
  split
  · exact ⟨_, rfl, by simp, by simp, by simp⟩
  · cases Bitwise.decode opened.layout opened.data with
    | ok expression => exact ⟨_, rfl, by simp, by simp, by simp⟩
    | error fault => exact ⟨_, rfl, by simp, by simp, by simp⟩

/-- An envelope is accepted if and only if the configuration has a layout, the bytes are well
formed, the last name is that of bitwise expressions, and the last data make an expression;
otherwise it is refused for the first rule that it violates.  An envelope that violates one of the
opening rules leaves no event, and every other one leaves exactly one, which agrees with the
outcome. -/
theorem decode_follows_rules (config : Config) (message : Bytes) :
    (∀ expression, (decode config message).outcome = .ok expression ↔
      ∃ (layout : Layout) (attributes : List Attribute) (name data : Bytes),
        layout.words = config.registerWords.toNat ∧ WellFormed attributes message ∧
        lastPayload? Field.name.kind attributes = some name ∧
        (name = Bitwise.name.toUTF8.toList ∨ name = Bitwise.name.toUTF8.toList ++ [0]) ∧
        lastPayload? Field.data.kind attributes = some data ∧
        Bitwise.decode layout data = .ok expression) ∧
    (∀ error, (decode config message).outcome = .error error ↔
      FirstViolation (Violates config message) rules error) ∧
    ((∃ error, FirstViolation (Violates config message) openingRules error) →
      (decode config message).events = []) ∧
    (AllKept (Violates config message) openingRules →
      ∃ event, (decode config message).events = [event] ∧
        (event = .built ↔ ∃ expression, (decode config message).outcome = .ok expression) ∧
        (∀ fault, event = .rejected fault ↔
          (decode config message).outcome = .error (.bitwise fault)) ∧
        ∀ name, event = .unknownExpression name ↔
          (decode config message).outcome = .error (.unknownExpression name)) := by
  refine ⟨?_, reports_decode, ?_, ?_⟩
  · intro expression
    simp only [outcome_decode_eq_ok_iff, openMessage_eq_ok_iff]
    constructor
    · rintro ⟨⟨layout, name, data⟩, ⟨sameWords, ⟨payload, holdsName, named⟩, holdsData⟩, rfl, made⟩
      rcases holdsName with ⟨attributes, wellFormed, foundName⟩
      rcases holdsData with ⟨others, wellFormedOthers, foundData⟩
      rw [← wellFormed.format.unique wellFormedOthers.format] at foundData
      exact ⟨layout, attributes, payload, data, sameWords, wellFormed, foundName,
        (trimNul_eq_iff getLast?_name).mp named.symm, foundData, made⟩
    · rintro ⟨layout, attributes, payload, data, sameWords, wellFormed, foundName, named, foundData,
        made⟩
      refine ⟨⟨layout, Bitwise.name, data⟩, ⟨sameWords, ⟨payload, ?_, ?_⟩, ?_⟩, rfl, made⟩
      · exact ⟨attributes, wellFormed, foundName⟩
      · exact ((trimNul_eq_iff getLast?_name).mpr named).symm
      · exact ⟨attributes, wellFormed, foundData⟩
  · rintro ⟨error, violation⟩
    have refused := (reports_openMessage error).mpr violation
    simp only [decode, refused]
  · intro kept
    cases opened_eq : openMessage config message with
    | error error =>
        exact absurd ((reports_openMessage error).mp opened_eq) (allKept_iff.mp kept error)
    | ok opened =>
        simp only [decode, opened_eq]
        exact opened.logs

/-- Names without a NUL: of a bitwise expression whose operands are in registers, of one whose data
are empty, of another kind of expression, and in front of no data at all. -/
theorem decode_follows_rules_refused :
    let bitwise : Bytes := [0, 11, 0, 1, 98, 105, 116, 119, 105, 115, 101, 0]
    let other : Bytes := [0, 6, 0, 1, 102, 111, 0, 0]
    let empty : Bytes := [0, 4, 0x80, 2]
    let data : Bytes := [0, 44, 0x80, 2, 0, 8, 0, 1, 0, 0, 0, 1, 0, 8, 0, 2, 0, 0, 0, 2,
      0, 8, 0, 3, 0, 0, 0, 4, 0, 8, 0, 8, 0, 0, 0, 3, 0, 8, 0, 9, 0, 0, 0, 4]
    (decode {} (bitwise ++ data)).events = [.built] ∧
      (decode {} (bitwise ++ empty)).events = [.rejected (.missingField .source)] ∧
      (decode {} (other ++ empty)).events = [.unknownExpression "fo"] ∧
      (decode {} bitwise).events = [] ∧
      FirstViolation (Violates {} bitwise) rules (.missingField .data) := by
  intro bitwise other empty data
  let operand (word : Nat) : Operand := .register ⟨word⟩
  have built : (decode {} (bitwise ++ data)).outcome =
      .ok ⟨⟨4⟩, ⟨8⟩, 4, .boolean (operand 12) (operand 16)⟩ := by
    decide +kernel
  have rejected : (decode {} (bitwise ++ empty)).outcome =
      .error (.bitwise (.missingField .source)) := by
    decide +kernel
  have unknown : (decode {} (other ++ empty)).outcome = .error (.unknownExpression "fo") := by
    decide +kernel
  have noData : openMessage {} bitwise = .error (.missingField .data) := by
    decide +kernel
  have opened {message : Bytes} (opens : (openMessage {} message).isOk = true) :
      AllKept (Violates {} message) openingRules := by
    cases opened_eq : openMessage {} message with
    | ok opened => exact reports_openMessage.allKept opened_eq
    | error error => simp [opened_eq, Except.isOk, Except.toBool] at opens
  rcases (decode_follows_rules {} (bitwise ++ data)).2.2.2 (opened (by decide +kernel)) with
    ⟨firstEvent, firstEvents_eq, built_iff, _⟩
  rcases (decode_follows_rules {} (bitwise ++ empty)).2.2.2 (opened (by decide +kernel)) with
    ⟨event, events_eq, _, rejected_iff, _⟩
  rcases (decode_follows_rules {} (other ++ empty)).2.2.2 (opened (by decide +kernel)) with
    ⟨otherEvent, otherEvents_eq, _, _, unknown_iff⟩
  rcases decode_follows_rules {} bitwise with ⟨_, refused_iff, silent, _⟩
  refine ⟨?_, ?_, ?_, silent ⟨_, (reports_openMessage _).mp noData⟩, ?_⟩
  · rw [firstEvents_eq, built_iff.mpr ⟨_, built⟩]
  · rw [events_eq, (rejected_iff _).mpr rejected]
  · rw [otherEvents_eq, (unknown_iff _).mpr unknown]
  · apply (refused_iff _).mp
    simp only [decode, noData]

end Envelope

end PacketExpr
