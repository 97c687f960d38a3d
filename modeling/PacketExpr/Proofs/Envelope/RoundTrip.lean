import PacketExpr.Draft
import PacketExpr.Proofs.Bitwise.RoundTrip
import PacketExpr.Proofs.Bitwise.Safety

/-!
# Writing and reading envelopes

An envelope adds a name and the header of a nested attribute to the message of an expression, which
makes 16 bytes more.  Writing succeeds exactly if all of this is within the limit, and what has been
written is opened and read back under every configuration with room for the expression.
-/

namespace PacketExpr

namespace Draft

/-- A draft of the expression that masks with stripes, which does not name the operation. -/
def striped : Draft :=
  { source := 1, destination := 2, length := 5, mask := some Bitwise.stripes.bytes,
    xorRegister := some 3 }

theorem build_striped : striped.build Layout.standard = .ok .striped := by
  decide +kernel

end Draft

namespace Envelope

def nameAttribute : Attribute := ⟨Field.name.type, Bitwise.name.toUTF8.toList ++ [0]⟩

def dataAttribute (message : Bytes) : Attribute :=
  ⟨Field.data.type ||| Attribute.nestedFlag, message⟩

/-- The bytes of an envelope around a message. -/
def wrap (message : Bytes) : Bytes :=
  Attribute.encodeAll [nameAttribute, dataAttribute message]

variable {message : Bytes}

theorem kind_nameAttribute : nameAttribute.kind = Field.name.kind := rfl

theorem kind_dataAttribute (message : Bytes) :
    (dataAttribute message).kind = Field.data.kind := by
  change (Field.data.type ||| Attribute.nestedFlag).toNat % 0x4000 = Field.data.kind
  decide

theorem length_name : (Bitwise.name.toUTF8.toList ++ [0]).length = 8 := by
  rw [List.length_append, length_toUTF8]
  rfl

theorem size_nameAttribute : nameAttribute.size = 12 := by
  rw [Attribute.size, nameAttribute, length_name]
  rfl

/-- Around the data there are a name in eight bytes and two headers. -/
theorem length_wrap (wholeWords : message.length % 4 = 0) :
    (wrap message).length = 16 + message.length := by
  simp only [wrap, Attribute.encodeAll_cons, Attribute.encodeAll_nil, List.length_append,
    Attribute.length_encode, size_nameAttribute, List.length_nil]
  simp only [Attribute.size, dataAttribute, Attribute.headerSize, paddedSize]
  omega

theorem emits_put {data : Write Unit} (emits : Write.Emits data message)
    (fits : Attribute.headerSize + message.length ≤ Attribute.maxSize) :
    Write.Emits (put data) (wrap message) := by
  simp only [wrap, Attribute.encodeAll_cons, Attribute.encodeAll_nil, List.append_nil]
  apply Write.emits_bind
  · apply Write.emits_put
    rw [length_name]
    decide
  · exact Write.emits_putNest emits fits

/-- The name is short enough, and the data are a list of attributes. -/
theorem wrap_passes (wholeWords : message.length % 4 = 0) :
    ∀ attr ∈ [nameAttribute, dataAttribute message], schema.Passes attr := by
  intro attr attr_mem policy covers
  simp only [List.mem_cons, List.not_mem_nil, or_false] at attr_mem
  rcases attr_mem with rfl | rfl
  · cases covers
    simp only [nameAttribute, Policy.admits, trimNul_concat_zero, length_toUTF8]
    rfl
  · rw [kind_dataAttribute] at covers
    cases covers
    cases message with
    | nil => rfl
    | cons byte rest =>
        simp only [List.length_cons] at wholeWords
        have oneHeader : Attribute.headerSize ≤ (byte :: rest).length := by
          simp only [Attribute.headerSize, List.length_cons]
          omega
        exact decide_eq_true oneHeader

theorem parse_wrap (wholeWords : message.length % 4 = 0)
    (fits : Attribute.headerSize + message.length ≤ Attribute.maxSize) :
    AttributeTable.parse schema (wrap message) =
      .ok (AttributeTable.holding schema [nameAttribute, dataAttribute message]) := by
  apply AttributeTable.parse_encodeAll
  · intro attr attr_mem
    simp only [List.mem_cons, List.not_mem_nil, or_false] at attr_mem
    rcases attr_mem with rfl | rfl
    · rw [size_nameAttribute]
      decide
    · exact fits
  · exact wrap_passes wholeWords

theorem get?_wrap (message : Bytes) {attr : Attribute} {kind : Nat}
    (attr_mem : attr ∈ [nameAttribute, dataAttribute message]) (sameKind : attr.kind = kind)
    (covered : (schema.policy? kind).isSome = true) :
    (AttributeTable.holding schema [nameAttribute, dataAttribute message]).get? kind =
      some attr.payload := by
  have distinct : ([nameAttribute, dataAttribute message].map Attribute.kind).Nodup := by
    simp [kind_nameAttribute, kind_dataAttribute, Field.kind]
  subst sameKind
  exact AttributeTable.get?_holding_of_mem distinct attr_mem covered

/-- A written envelope is opened with the layout of the configuration. -/
theorem openMessage_wrap {config : Config} {layout : Layout}
    (hasLayout : config.layout = .ok layout) (wholeWords : message.length % 4 = 0)
    (fits : Attribute.headerSize + message.length ≤ Attribute.maxSize) :
    openMessage config (wrap message) = .ok ⟨layout, Bitwise.name, message⟩ := by
  have data := get?_wrap message (by simp) (kind_dataAttribute message) rfl
  have name := AttributeTable.text?_of_get?
    (get?_wrap message (by simp) kind_nameAttribute rfl)
  simp only [openMessage, bind_eq_ok_iff, mapError_eq_ok_iff]
  refine ⟨layout, hasLayout, _, parse_wrap wholeWords fits, some Bitwise.name, name, ?_⟩
  simp only [data]
  rfl

/-- A message that is accepted as it is is accepted in an envelope, and the one event says so. -/
theorem decode_wrap {config : Config} {layout : Layout} {expression : Bitwise}
    (hasLayout : config.layout = .ok layout) (wholeWords : message.length % 4 = 0)
    (fits : Attribute.headerSize + message.length ≤ Attribute.maxSize)
    (decoded : Bitwise.decode layout message = .ok expression) :
    decode config (wrap message) = ⟨.ok expression, [.built]⟩ := by
  simp only [decode, openMessage_wrap hasLayout wholeWords fits, Opened.decode, decoded]
  simp

/-- The envelope in which an expression is written. -/
def encoding (expression : Bitwise) : Bytes := wrap expression.encoding

variable {expression : Bitwise} {layout : Layout}

theorem encoding_wholeWords (expression : Bitwise) : expression.encoding.length % 4 = 0 :=
  Attribute.encodeAll_wholeWords expression.attributes

theorem encoding_fits (placed : expression.WellPlaced layout) :
    Attribute.headerSize + expression.encoding.length ≤ Attribute.maxSize := by
  have length_le := Bitwise.length_encoding_le placed
  simp only [Attribute.headerSize, Attribute.maxSize]
  omega

theorem length_encoding (placed : expression.WellPlaced layout) :
    (encoding expression).length = 16 + expression.encodedSize := by
  rw [encoding, length_wrap (encoding_wholeWords expression), Bitwise.length_encoding placed]

/-- The limit of a configuration decides whether an expression can be dumped, and nothing else
does. -/
theorem dump_eq (placed : expression.WellPlaced layout) (config : Config) :
    dump config expression =
      if 16 + expression.encodedSize ≤ config.dumpLimit.toNat then .ok (encoding expression)
      else .error (.encodingFailure .noSpace) := by
  have emits := emits_put (Bitwise.emits_put expression) (encoding_fits placed)
  rw [dump, emits.bytesWithin_eq, ← encoding, length_encoding placed]
  split
  · rfl
  · rfl

/-- A draft that was built by its envelope has been decoded from a message. -/
theorem exists_decode_of_buildEnvelope {draft : Draft} {config : Config}
    (built : (draft.buildEnvelope config).outcome = .ok expression) :
    ∃ message, (decode config message).outcome = .ok expression := by
  rw [Draft.buildEnvelope] at built
  cases encoded : draft.encodeEnvelope with
  | error error => simp [encoded] at built
  | ok message => exact ⟨message, by simpa [encoded] using built⟩

/-- Whatever was accepted under a configuration, from a message or from a draft, is written in 16
bytes more than its plain attributes take, if the limit allows for them, and is read back under
every configuration with room for its span. -/
theorem dump_decode_accepted {config : Config}
    (accepted : (∃ message, (decode config message).outcome = .ok expression) ∨
      ∃ draft : Draft, (draft.buildEnvelope config).outcome = .ok expression) :
    let size := expression.encoding.length
    let envelope := encoding expression
    (∀ limit, size ≤ limit →
      expression.dump.run (Writer.blank limit) = .ok () ⟨expression.encoding, limit⟩) ∧
    16 + size ≤ 576 ∧
    envelope.length = 16 + size ∧
    (∀ writing : Config,
      (16 + size ≤ writing.dumpLimit.toNat → dump writing expression = .ok envelope) ∧
      (writing.dumpLimit.toNat < 16 + size →
        dump writing expression = .error (.encodingFailure .noSpace))) ∧
    dump { config with dumpLimit := Config.dumpLimit {} } expression = .ok envelope ∧
    ∀ reading : Config, 8 ≤ reading.registerWords.toNat → reading.registerWords.toNat ≤ 1024 →
      expression.span ≤ reading.registerWords.toNat →
        decode reading envelope = ⟨.ok expression, [.built]⟩ := by
  intro size envelope
  have acceptedMessage : ∃ message, (decode config message).outcome = .ok expression := by
    rcases accepted with fromMessage | ⟨draft, built⟩
    · exact fromMessage
    · exact exists_decode_of_buildEnvelope built
  rcases acceptedMessage with ⟨message, decoded⟩
  rcases exists_decode_eq_ok decoded with ⟨layout, data, _, acceptedData⟩
  rcases Bitwise.decode_eq_ok_iff.mp acceptedData with ⟨table, _, describes⟩
  have placed := describes.wellPlaced
  have size_eq : size = expression.encodedSize := Bitwise.length_encoding placed
  have size_le := Bitwise.encodedSize_le placed
  have written (writing : Config) := dump_eq placed writing
  rw [← size_eq] at written size_le
  refine ⟨?_, ?_, ?_, ?_, ?_, ?_⟩
  · intro limit room
    exact Bitwise.dump_blank expression room
  · omega
  · rw [size_eq]
    exact length_encoding placed
  · intro writing
    rw [written writing]
    constructor
    · intro room
      exact if_pos room
    · intro tooLong
      exact if_neg (Nat.not_le_of_gt tooLong)
  · rw [written]
    apply if_pos
    have limit : (Config.dumpLimit {}).toNat = 4096 := rfl
    rw [limit]
    omega
  · intro reading minWords_le le_maxWords room
    let other : Layout := ⟨reading.registerWords.toNat, minWords_le, le_maxWords⟩
    have hasLayout : reading.layout = .ok other := dif_pos ⟨minWords_le, le_maxWords⟩
    have roomInside : expression.span ≤ other.words := room
    have decodedBack := Bitwise.decode_encoding (placed.of_span_le roomInside) describes.packed
    exact decode_wrap hasLayout (encoding_wholeWords expression) (encoding_fits placed) decodedBack

/-- A mask of five bytes next to a register, drafted and built: with a limit of 72 bytes the
envelope is written, with one less it is not, and 14 words are enough to read it back. -/
theorem dump_decode_accepted_mask :
    dump { dumpLimit := 72 } .striped = .ok (encoding .striped) ∧
      dump { dumpLimit := 71 } .striped = .error (.encodingFailure .noSpace) ∧
      decode { registerWords := 14 } (encoding .striped) = ⟨.ok .striped, [.built]⟩ := by
  have built : (Draft.striped.buildEnvelope {}).outcome = .ok .striped := by
    decide +kernel
  have size : Bitwise.striped.encoding.length = 56 := by decide +kernel
  rcases dump_decode_accepted (Or.inr ⟨.striped, built⟩) with ⟨_, _, _, written, _, readBack⟩
  rw [size] at written
  exact ⟨(written { dumpLimit := 72 }).1 (by decide), (written { dumpLimit := 71 }).2 (by decide),
    readBack { registerWords := 14 } (by decide) (by decide) (by decide)⟩

end Envelope

end PacketExpr
