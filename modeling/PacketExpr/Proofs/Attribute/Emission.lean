import PacketExpr.Attribute.Writer
import PacketExpr.Proofs.Attribute.Contents

/-!
# What actions write

An action that writes attributes checks for room at each of its steps.  `Write.Emits` says that
these checks amount to a single one: the action writes given bytes if there is room for all of them,
and otherwise it fails and leaves what had been written before in place.  This is preserved by doing
one action after the other and by nesting, so it is enough to look at the single steps.

An attribute is added by padding everything that has been written.  That this pads the attribute and
nothing else is because what had been written before are whole words: `Writer.Sound` says this of a
writer, and every action that emits whole words keeps it.

An action that meets an attribute too long for its length field fails in every writer, which is
`Write.Refuses`.
-/

namespace PacketExpr

/-- What a failed action leaves behind: what had been written before is still there, perhaps with
more bytes behind it, and the budget is kept. -/
structure Writer.Extends (before after : Writer) : Prop where
  bytes : before.bytes <+: after.bytes
  limit : after.limit = before.limit
  length_le : after.bytes.length ≤ after.limit

/-- A writer holds whole words, within its budget. -/
structure Writer.Sound (writer : Writer) : Prop where
  wholeWords : writer.bytes.length % 4 = 0
  length_le : writer.bytes.length ≤ writer.limit

namespace Writer

theorem sound_blank (limit : Nat) : (blank limit).Sound where
  wholeWords := rfl
  length_le := Nat.zero_le _

theorem Extends.refl {writer : Writer} (within : writer.bytes.length ≤ writer.limit) :
    writer.Extends writer where
  bytes := List.prefix_refl _
  limit := rfl
  length_le := within

theorem Extends.of_append {writer after : Writer} {bytes : Bytes}
    (later : (writer.append bytes).Extends after) : writer.Extends after where
  bytes := (List.prefix_append _ _).trans later.bytes
  limit := later.limit
  length_le := later.length_le

theorem append_append (writer : Writer) (front back : Bytes) :
    (writer.append front).append back = writer.append (front ++ back) := by
  simp [append]

theorem append_nil (writer : Writer) : writer.append [] = writer := by
  simp [append]

@[simp]
theorem length_append (writer : Writer) (bytes : Bytes) :
    (writer.append bytes).bytes.length = writer.bytes.length + bytes.length :=
  List.length_append

@[simp]
theorem limit_append (writer : Writer) (bytes : Bytes) :
    (writer.append bytes).limit = writer.limit := rfl

theorem Sound.append {writer : Writer} {bytes : Bytes} (sound : writer.Sound)
    (wholeWords : bytes.length % 4 = 0)
    (room : writer.bytes.length + bytes.length ≤ writer.limit) : (writer.append bytes).Sound where
  wholeWords := by
    have before := sound.wholeWords
    rw [length_append]
    omega
  length_le := by
    rw [length_append, limit_append]
    exact room

/-- Behind whole words, padding the whole writer pads the bytes that were added last. -/
theorem pad_append {writer : Writer} (wholeWords : writer.bytes.length % 4 = 0) (bytes : Bytes) :
    (writer.append bytes).pad = writer.append bytes.padded := by
  rw [pad, append, append, Bytes.padded_append wholeWords]

/-- There is room if both the length field and the budget admit the attribute with its padding. -/
theorem hasRoom_iff {writer : Writer} {payloadSize : Nat} :
    writer.hasRoom payloadSize = true ↔
      Attribute.headerSize + payloadSize ≤ Attribute.maxSize ∧
        writer.bytes.length + paddedSize (Attribute.headerSize + payloadSize) ≤ writer.limit := by
  simp only [hasRoom]
  rw [Bool.and_eq_true, decide_eq_true_eq, decide_eq_true_eq]

end Writer

namespace Write

/-- A writer that holds whole words gets an attribute in its canonical encoding, if there is room.
-/
theorem put_eq {writer : Writer} (wholeWords : writer.bytes.length % 4 = 0) (type : UInt16)
    (payload : Bytes) :
    put type payload writer =
      if writer.hasRoom payload.length then
        .ok () (writer.append (Attribute.encode ⟨type, payload⟩))
      else
        .error .noSpace writer := by
  rw [Attribute.encode_eq_padded, ← Writer.pad_append wholeWords]
  rfl

/-- An action writes the given bytes, which are whole words, if there is room for all of them, and
it fails if not. -/
structure Emits (action : Write Unit) (bytes : Bytes) : Prop where
  wholeWords : bytes.length % 4 = 0
  succeeds : ∀ writer : Writer, writer.Sound →
    writer.bytes.length + bytes.length ≤ writer.limit →
      action writer = .ok () (writer.append bytes)
  fails : ∀ writer : Writer, writer.Sound →
    writer.limit < writer.bytes.length + bytes.length →
      ∃ left, action writer = .error .noSpace left ∧ writer.Extends left

theorem emits_put {type : UInt16} {payload : Bytes}
    (fits : Attribute.headerSize + payload.length ≤ Attribute.maxSize) :
    Emits (put type payload) (Attribute.encode ⟨type, payload⟩) where
  wholeWords := Attribute.encode_wholeWords _
  succeeds := by
    intro writer sound room
    rw [Attribute.length_encode] at room
    rw [put_eq sound.wholeWords]
    exact if_pos (Writer.hasRoom_iff.mpr ⟨fits, room⟩)
  fails := by
    intro writer sound tooLong
    rw [Attribute.length_encode] at tooLong
    refine ⟨writer, ?_, .refl sound.length_le⟩
    rw [put_eq sound.wholeWords]
    apply if_neg
    intro hasRoom
    have room := (Writer.hasRoom_iff.mp hasRoom).2
    exact absurd room (Nat.not_le_of_gt tooLong)

theorem emits_pure : Emits (pure ()) [] where
  wholeWords := rfl
  succeeds := by
    intro writer _ _
    rw [Writer.append_nil]
    rfl
  fails := by
    intro writer sound tooLong
    exact absurd sound.length_le (Nat.not_le_of_gt tooLong)

/-- What two actions emit one after the other is subject to one check for all of it: where there is
room for the first only, the second one fails and leaves the bytes of the first behind. -/
theorem emits_bind {first second : Write Unit} {front back : Bytes}
    (emitsFirst : Emits first front) (emitsSecond : Emits second back) :
    Emits (do first; second) (front ++ back) where
  wholeWords := by
    have wholeFront := emitsFirst.wholeWords
    have wholeBack := emitsSecond.wholeWords
    rw [List.length_append]
    omega
  succeeds := by
    intro writer sound room
    rw [List.length_append] at room
    have roomForFirst : writer.bytes.length + front.length ≤ writer.limit := by omega
    have done := emitsFirst.succeeds writer sound roomForFirst
    have soundBetween := sound.append emitsFirst.wholeWords roomForFirst
    rw [bind_eq_of_ok done, emitsSecond.succeeds _ soundBetween, Writer.append_append]
    simp only [Writer.length_append, Writer.limit_append]
    omega
  fails := by
    intro writer sound tooLong
    rw [List.length_append] at tooLong
    by_cases roomForFirst : writer.bytes.length + front.length ≤ writer.limit
    · have done := emitsFirst.succeeds writer sound roomForFirst
      have soundBetween := sound.append emitsFirst.wholeWords roomForFirst
      have fails := emitsSecond.fails (writer.append front) soundBetween
      simp only [Writer.length_append, Writer.limit_append] at fails
      rcases fails (by omega) with ⟨left, failed, later⟩
      exact ⟨left, by rw [bind_eq_of_ok done, failed], later.of_append⟩
    · rcases emitsFirst.fails writer sound (by omega) with ⟨left, failed, later⟩
      exact ⟨left, bind_eq_of_error failed, later⟩

/-- Closing a nested attribute makes its header what it is in the encoding. -/
theorem setLength_append (writer : Writer) (type : UInt16) (payload : Bytes) (length : Nat) :
    ((writer.append (Attribute.encodeHeader 0 type)).append payload).setLength
        writer.bytes.length length =
      writer.append (Attribute.encodeHeader length type ++ payload) := by
  simp [Writer.setLength, Writer.append, Attribute.encodeHeader, Bytes.ofUInt16]

/-- For a header alone only the budget matters. -/
theorem hasRoom_zero_iff {writer : Writer} :
    writer.hasRoom 0 = true ↔ writer.bytes.length + Attribute.headerSize ≤ writer.limit := by
  rw [Writer.hasRoom_iff]
  simp [Attribute.headerSize, Attribute.maxSize, paddedSize]

theorem openNest_eq_ok (type : UInt16) {writer : Writer}
    (room : writer.bytes.length + Attribute.headerSize ≤ writer.limit) :
    openNest type writer = .ok ⟨writer.bytes.length⟩
      (writer.append (Attribute.encodeHeader 0 (type ||| Attribute.nestedFlag))) :=
  if_pos (hasRoom_zero_iff.mpr room)

theorem openNest_eq_error (type : UInt16) {writer : Writer}
    (noRoom : writer.limit < writer.bytes.length + Attribute.headerSize) :
    openNest type writer = .error .noSpace writer := by
  apply if_neg
  rw [hasRoom_zero_iff]
  exact Nat.not_le_of_gt noRoom

/-- Opening a nested attribute leaves the writer sound: its header is a whole word. -/
theorem sound_opened (type : UInt16) {writer : Writer} (sound : writer.Sound)
    (room : writer.bytes.length + Attribute.headerSize ≤ writer.limit) :
    (writer.append (Attribute.encodeHeader 0 (type ||| Attribute.nestedFlag))).Sound :=
  sound.append (Attribute.encodeHeader_wholeWords _ _) room

theorem encode_of_wholeWords {type : UInt16} {payload : Bytes}
    (wholeWords : payload.length % 4 = 0) :
    Attribute.encode ⟨type, payload⟩ =
      Attribute.encodeHeader (Attribute.headerSize + payload.length) type ++ payload := by
  rw [Attribute.encode_eq_padded]
  apply Bytes.padded_of_wholeWords
  rw [List.length_append, Nat.add_mod, Attribute.encodeHeader_wholeWords, wholeWords]

/-- A nested attribute is emitted with the length of its payload in its header, which is a matter of
its parts alone: the header, the payload and the length are checked against the same budget. -/
theorem emits_putNest {type : UInt16} {inner : Write Unit} {payload : Bytes}
    (emits : Emits inner payload)
    (fits : Attribute.headerSize + payload.length ≤ Attribute.maxSize) :
    Emits (putNest type inner) (Attribute.encode ⟨type ||| Attribute.nestedFlag, payload⟩) := by
  have wholeWords := emits.wholeWords
  have encodedLength :
      (Attribute.encode ⟨type ||| Attribute.nestedFlag, payload⟩).length =
        Attribute.headerSize + payload.length := by
    rw [encode_of_wholeWords wholeWords, List.length_append, Attribute.length_encodeHeader]
  constructor
  · exact Attribute.encode_wholeWords _
  · intro writer sound room
    rw [encodedLength] at room
    have headerFits : writer.bytes.length + Attribute.headerSize ≤ writer.limit := by omega
    have opened := openNest_eq_ok type headerFits
    have written := emits.succeeds _ (sound_opened type sound headerFits)
    simp only [Writer.length_append, Writer.limit_append, Attribute.length_encodeHeader] at written
    have closed : closeNest ⟨writer.bytes.length⟩
        ((writer.append (Attribute.encodeHeader 0 (type ||| Attribute.nestedFlag))).append
          payload) =
        .ok () (writer.append (Attribute.encode ⟨type ||| Attribute.nestedFlag, payload⟩)) := by
      have size : writer.bytes.length + Attribute.headerSize + payload.length -
          writer.bytes.length = Attribute.headerSize + payload.length := by omega
      simp only [closeNest, Writer.length_append, Attribute.length_encodeHeader, size,
        if_pos fits, setLength_append, encode_of_wholeWords wholeWords]
    rw [putNest, bind_eq_of_ok opened, bind_eq_of_ok (written (by omega)), closed]
  · intro writer sound tooLong
    rw [encodedLength] at tooLong
    by_cases headerFits : writer.bytes.length + Attribute.headerSize ≤ writer.limit
    · have opened := openNest_eq_ok type headerFits
      have fails := emits.fails _ (sound_opened type sound headerFits)
      simp only [Writer.length_append, Writer.limit_append, Attribute.length_encodeHeader] at fails
      rcases fails (by omega) with ⟨left, failed, later⟩
      refine ⟨left, ?_, later.of_append⟩
      rw [putNest, bind_eq_of_ok opened, bind_eq_of_error failed]
    · refine ⟨writer, ?_, .refl sound.length_le⟩
      rw [putNest, bind_eq_of_error (openNest_eq_error type (by omega))]

/-- An action fails, however much room there is. -/
def Refuses (action : Write Unit) : Prop :=
  ∀ writer : Writer, writer.Sound → ∃ left, action writer = .error .noSpace left

theorem refuses_put {type : UInt16} {payload : Bytes}
    (tooLong : Attribute.maxSize < Attribute.headerSize + payload.length) :
    Refuses (put type payload) := by
  intro writer _
  refine ⟨writer, if_neg ?_⟩
  intro hasRoom
  have fits := (Writer.hasRoom_iff.mp hasRoom).1
  exact absurd fits (Nat.not_le_of_gt tooLong)

theorem refuses_bind_of_first {first second : Write Unit} (refuses : Refuses first) :
    Refuses (do first; second) := by
  intro writer sound
  rcases refuses writer sound with ⟨left, failed⟩
  exact ⟨left, bind_eq_of_error failed⟩

/-- What comes second is reached only if there is room for the first, and then it is refused
itself. -/
theorem refuses_bind_of_second {first second : Write Unit} {front : Bytes}
    (emits : Emits first front) (refuses : Refuses second) : Refuses (do first; second) := by
  intro writer sound
  by_cases room : writer.bytes.length + front.length ≤ writer.limit
  · rcases refuses _ (sound.append emits.wholeWords room) with ⟨left, failed⟩
    exact ⟨left, by rw [bind_eq_of_ok (emits.succeeds writer sound room), failed]⟩
  · rcases emits.fails writer sound (Nat.lt_of_not_le room) with ⟨left, failed, _⟩
    exact ⟨left, bind_eq_of_error failed⟩

/-- A nested attribute is refused if what follows its header fails wherever the header is. -/
theorem refuses_putNest {type : UInt16} {inner : Write Unit}
    (fails : ∀ writer : Writer, writer.Sound →
      writer.bytes.length + Attribute.headerSize ≤ writer.limit →
        ∃ left, (do inner; closeNest ⟨writer.bytes.length⟩)
          (writer.append (Attribute.encodeHeader 0 (type ||| Attribute.nestedFlag))) =
            .error .noSpace left) :
    Refuses (putNest type inner) := by
  intro writer sound
  by_cases room : writer.bytes.length + Attribute.headerSize ≤ writer.limit
  · rcases fails writer sound room with ⟨left, failed⟩
    exact ⟨left, by rw [putNest, bind_eq_of_ok (openNest_eq_ok type room), failed]⟩
  · have noRoom := openNest_eq_error type (Nat.lt_of_not_le room)
    exact ⟨writer, by rw [putNest, bind_eq_of_error noRoom]⟩

theorem refuses_putNest_of_inner {type : UInt16} {inner : Write Unit} (refuses : Refuses inner) :
    Refuses (putNest type inner) := by
  apply refuses_putNest
  intro writer sound room
  exact refuses_bind_of_first refuses _ (sound_opened type sound room)

/-- A payload that is written but does not fit the length field is only noticed on closing. -/
theorem refuses_putNest_of_tooLong {type : UInt16} {inner : Write Unit} {payload : Bytes}
    (emits : Emits inner payload)
    (tooLong : Attribute.maxSize < Attribute.headerSize + payload.length) :
    Refuses (putNest type inner) := by
  apply refuses_putNest
  intro writer sound room
  have soundInside := sound_opened type sound room
  generalize opened_eq :
    writer.append (Attribute.encodeHeader 0 (type ||| Attribute.nestedFlag)) = opened at soundInside
  have length : opened.bytes.length = writer.bytes.length + Attribute.headerSize := by
    rw [← opened_eq, Writer.length_append, Attribute.length_encodeHeader]
  by_cases roomInside : opened.bytes.length + payload.length ≤ opened.limit
  · have size : (opened.append payload).bytes.length - writer.bytes.length =
        Attribute.headerSize + payload.length := by
      rw [Writer.length_append, length]
      omega
    refine ⟨opened.append payload, ?_⟩
    rw [bind_eq_of_ok (emits.succeeds opened soundInside roomInside)]
    simp only [closeNest, size, if_neg (Nat.not_le_of_gt tooLong)]
  · rcases emits.fails opened soundInside (Nat.lt_of_not_le roomInside) with ⟨left, failed, _⟩
    exact ⟨left, bind_eq_of_error failed⟩

/-- In a fresh writer there is room for everything that does not exceed the limit. -/
theorem Emits.bytesWithin_eq {action : Write Unit} {bytes : Bytes} (emits : Emits action bytes)
    (limit : Nat) :
    bytesWithin limit action = if bytes.length ≤ limit then .ok bytes else .error .noSpace := by
  have length_blank : (Writer.blank limit).bytes.length = 0 := rfl
  split
  · next room =>
      have written := emits.succeeds _ (Writer.sound_blank limit) (by
        rw [length_blank, Nat.zero_add]
        exact room)
      simp only [bytesWithin, EStateM.run, written]
      rfl
  · next noRoom =>
      rcases emits.fails _ (Writer.sound_blank limit) (by
        rw [length_blank, Nat.zero_add]
        exact Nat.lt_of_not_le noRoom) with ⟨left, failed, _⟩
      simp only [bytesWithin, EStateM.run, failed]

theorem Refuses.bytesWithin_eq {action : Write Unit} (refuses : Refuses action) (limit : Nat) :
    bytesWithin limit action = .error .noSpace := by
  rcases refuses _ (Writer.sound_blank limit) with ⟨left, failed⟩
  simp only [bytesWithin, EStateM.run, failed]

end Write

end PacketExpr
