import PacketExpr.Proofs.Draft.Spelling

/-!
# Drafts in envelopes

A draft can be built from its plain message or from an envelope.  The two encoders have the same
limit and the envelope needs 16 bytes more, so there are drafts that fit into a message and not into
an envelope.  None of them can be built: what an expression needs is far below the limit.  All other
drafts are opened from their envelopes with the very bytes of the plain message, so both ways end in
the same expression or in the same error.
-/

namespace PacketExpr

namespace Draft

variable {draft : Draft} {layout : Layout} {expression : Bitwise} {config : Config}

/-- What is built spells an expression, and no expression takes more than a few hundred bytes. -/
theorem envelope_fits_of_build (built : draft.build layout = .ok expression) :
    16 + draft.encoding.length ≤ encodeLimit := by
  have size_le := (build_eq_ok_iff_spells.mp built).1.length_encoding_le
  simp only [encodeLimit, Attribute.maxSize]
  omega

/-- A draft that has room in an envelope is decoded from it with its plain message as the data. -/
theorem buildEnvelope_eq (hasLayout : config.layout = .ok layout)
    (fits : 16 + draft.encoding.length ≤ encodeLimit) :
    draft.buildEnvelope config =
      Envelope.Opened.decode ⟨layout, Bitwise.name, draft.encoding⟩ := by
  have dataFits : Attribute.headerSize + draft.encoding.length ≤ Attribute.maxSize := by
    simp only [encodeLimit] at fits
    simp only [Attribute.headerSize]
    omega
  rw [buildEnvelope, encodeEnvelope_eq, if_pos fits]
  simp only [Envelope.decode,
    Envelope.openMessage_wrap hasLayout draft.encoding_wholeWords dataFits]

theorem build_eq_decode (fits : draft.encoding.length ≤ encodeLimit) (layout : Layout) :
    draft.build layout = (Bitwise.decode layout draft.encoding).mapError .bitwise := by
  rw [build, encode_eq, if_pos fits]
  rfl

/-- A draft that has room in an envelope has the same outcome both ways. -/
theorem same_outcome_of_fits (hasLayout : config.layout = .ok layout)
    (fits : 16 + draft.encoding.length ≤ encodeLimit) :
    (∃ expression, draft.build layout = .ok expression ∧
        draft.buildEnvelope config = ⟨.ok expression, [.built]⟩) ∨
      ∃ error, draft.build layout = .error (.bitwise error) ∧
        draft.buildEnvelope config = ⟨.error (.bitwise error), [.rejected error]⟩ := by
  rw [buildEnvelope_eq hasLayout fits, build_eq_decode (by omega), Envelope.Opened.decode,
    if_neg (by simp)]
  cases Bitwise.decode layout draft.encoding with
  | ok expression => exact Or.inl ⟨expression, rfl, rfl⟩
  | error error => exact Or.inr ⟨error, rfl, rfl⟩

/-- The data of an envelope are the plain message of the draft. -/
theorem data_of_encodeEnvelope {message : Bytes} (encoded : draft.encodeEnvelope = .ok message) :
    16 + draft.encoding.length ≤ encodeLimit ∧
      ∃ table, AttributeTable.parse Envelope.schema message = .ok table ∧
        table.get? Envelope.Field.data.kind = some draft.encoding := by
  rw [encodeEnvelope_eq] at encoded
  split at encoded
  · next fits =>
      cases encoded
      have data := Envelope.get?_wrap draft.encoding
        (List.mem_cons_of_mem _ (List.mem_singleton_self _)) (Envelope.kind_dataAttribute _) rfl
      refine ⟨fits, _, Envelope.parse_wrap draft.encoding_wholeWords ?_, data⟩
      simp only [encodeLimit] at fits
      simp only [Attribute.headerSize]
      omega
  · cases encoded

/-- The two ways to build a draft agree.  What is built from the plain message is built from the
envelope, which can be written then.  Whenever the envelope can be written, its data are the plain
message, and both ways have the same outcome.  And what cannot be built from the plain message is
not built from the envelope.  A draft that can be built is far shorter than the limit. -/
theorem buildEnvelope_agrees (draft : Draft) (hasLayout : config.layout = .ok layout) :
    (∀ expression, draft.build layout = .ok expression →
      (∃ message, draft.encodeEnvelope = .ok message) ∧
        draft.buildEnvelope config = ⟨.ok expression, [.built]⟩) ∧
    (∀ message, draft.encodeEnvelope = .ok message →
      ∃ data, draft.encode = .ok data ∧
        (∃ table, AttributeTable.parse Envelope.schema message = .ok table ∧
          table.get? Envelope.Field.data.kind = some data) ∧
        ((∃ expression, draft.build layout = .ok expression ∧
            draft.buildEnvelope config = ⟨.ok expression, [.built]⟩) ∨
          ∃ error, draft.build layout = .error (.bitwise error) ∧
            draft.buildEnvelope config = ⟨.error (.bitwise error), [.rejected error]⟩)) ∧
    ∀ error, draft.build layout = .error error →
      ∃ refused, (draft.buildEnvelope config).outcome = .error refused := by
  refine ⟨?_, ?_, ?_⟩
  · intro expression built
    have fits := envelope_fits_of_build built
    refine ⟨⟨_, by rw [encodeEnvelope_eq, if_pos fits]⟩, ?_⟩
    rcases same_outcome_of_fits hasLayout fits with
      ⟨other, builtOther, builtEnvelope⟩ | ⟨error, refused, _⟩
    · rw [built, Except.ok.injEq] at builtOther
      rw [builtOther, builtEnvelope]
    · rw [built] at refused
      cases refused
  · intro message encoded
    rcases data_of_encodeEnvelope encoded with ⟨fits, table, parsed, found⟩
    refine ⟨draft.encoding, ?_, ⟨table, parsed, found⟩, same_outcome_of_fits hasLayout fits⟩
    rw [encode_eq, if_pos (by omega)]
  · intro error failed
    cases encoded : draft.encodeEnvelope with
    | error refused => exact ⟨refused, by simp only [buildEnvelope, encoded]⟩
    | ok message =>
        rcases same_outcome_of_fits hasLayout (data_of_encodeEnvelope encoded).1 with
          ⟨expression, built, _⟩ | ⟨refused, _, builtEnvelope⟩
        · rw [failed] at built
          cases built
        · exact ⟨_, by rw [builtEnvelope]⟩

/-- A mask next to a register is built both ways, and next to another mask it is refused both
ways. -/
theorem buildEnvelope_agrees_mask :
    let twofold := { striped with maskRegister := some 4 }
    (∃ expression, striped.build Layout.standard = .ok expression ∧
      (∃ message, striped.encodeEnvelope = .ok message) ∧
      striped.buildEnvelope {} = ⟨.ok expression, [.built]⟩) ∧
    ∃ error refused, twofold.build Layout.standard = .error error ∧
      (twofold.buildEnvelope {}).outcome = .error refused := by
  intro twofold
  have hasLayout : Config.layout {} = .ok Layout.standard := rfl
  have refusedTwice : (twofold.build Layout.standard).isOk = false := by decide +kernel
  constructor
  · exact ⟨_, build_striped, (buildEnvelope_agrees striped hasLayout).1 _ build_striped⟩
  · cases built : twofold.build Layout.standard with
    | ok expression => simp [built, Except.isOk, Except.toBool] at refusedTwice
    | error error =>
        rcases (buildEnvelope_agrees twofold hasLayout).2.2 error built with ⟨refused, outcome⟩
        exact ⟨error, refused, rfl, outcome⟩

end Draft

end PacketExpr
