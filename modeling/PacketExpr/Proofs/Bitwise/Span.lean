import PacketExpr.Proofs.Bitwise.Placement

/-!
# Layouts in which a message is accepted

A message is read with the layout of a register file in hand, but the layout has no part in what is
read: it only decides whether the registers have their place in the file.  So a message that is
accepted in one layout makes the same expression in every layout with room for its span, and in all
other layouts the only thing wrong with it is a register that lies outside of the file.
-/

namespace PacketExpr

/-- A register begins outside of the file, or the value does not end inside of it. -/
inductive RegisterError.OutsideFile : RegisterError → Prop where
  | outOfRange (number : UInt32) : OutsideFile (.outOfRange number)
  | overflow (number : UInt32) (size : Nat) : OutsideFile (.overflow number size)

/-- A register that has its place in one layout has it in another one, or it leaves the file. -/
theorem Layout.resolveFor_of_other (other : Layout) {layout : Layout} {number : UInt32}
    {size : Nat} {register : Register} (resolved : layout.resolveFor number size = .ok register) :
    other.resolveFor number size = .ok register ∨
      ∃ error, other.resolveFor number size = .error error ∧ error.OutsideFile := by
  rcases resolveFor_eq_ok_iff.mp resolved with ⟨names, holds⟩
  have behindVerdict := Nat.not_lt.mpr holds.behindVerdict
  have size_ne := Nat.ne_of_gt holds.size_pos
  by_cases begins : register.word < other.words
  · have found : other.resolve number = .ok register := resolve_eq_ok_iff.mpr ⟨names, begins⟩
    by_cases overruns : register.word * 4 + size > other.words * 4
    · right
      refine ⟨.overflow register.number size, ?_, .overflow _ _⟩
      simp only [resolveFor, found, validate, if_neg behindVerdict, if_neg size_ne,
        if_pos overruns, bind, Except.bind]
    · left
      simp only [resolveFor, found, validate, if_neg behindVerdict, if_neg size_ne,
        if_neg overruns, bind, Except.bind, pure, Except.pure]
  · right
    refine ⟨.outOfRange number, ?_, .outOfRange _⟩
    simp only [resolveFor, resolve, names, if_neg begins, bind, Except.bind]

namespace Bitwise

variable {α β : Type}

/-- What the first check accepts, the second one accepts with the same result, or it refuses it
because of a register outside of its file. -/
def AgreesOrOutside (first second : Except BitwiseError α) : Prop :=
  ∀ result, first = .ok result →
    second = .ok result ∨ ∃ error, second = .error (.invalidRegister error) ∧ error.OutsideFile

theorem AgreesOrOutside.refl (check : Except BitwiseError α) : AgreesOrOutside check check :=
  fun _ accepted => Or.inl accepted

/-- Checks that agree, or of which one finds a place outside of its layout, can be followed by such
checks. -/
theorem AgreesOrOutside.bind {first second : Except BitwiseError α}
    {next other : α → Except BitwiseError β} (agrees : AgreesOrOutside first second)
    (agreeNext : ∀ value, AgreesOrOutside (next value) (other value)) :
    AgreesOrOutside (first >>= next) (second >>= other) := by
  intro result accepted
  rcases bind_eq_ok_iff.mp accepted with ⟨value, acceptedFirst, acceptedNext⟩
  rcases agrees value acceptedFirst with same | ⟨error, refused, outside⟩
  · rw [same]
    exact agreeNext value result acceptedNext
  · right
    exact ⟨error, by rw [refused]; rfl, outside⟩

variable {layout other : Layout} {table : AttributeTable} {length : Nat}

/-- A number names the same word in every layout that has the word, so only the room in the layout
makes a difference. -/
theorem checkRegister_agrees (number : UInt32) (length : Nat) :
    AgreesOrOutside (checkRegister layout number length) (checkRegister other number length) := by
  intro register accepted
  rw [checkRegister, mapError_eq_ok_iff] at accepted
  rw [checkRegister]
  rcases Layout.resolveFor_of_other other accepted with same | ⟨error, refused, outside⟩
  · left
    rw [same]
    rfl
  · right
    exact ⟨error, by rw [refused]; rfl, outside⟩

theorem readOperand_agrees (value register : Field) :
    AgreesOrOutside (readOperand layout table length value register)
      (readOperand other table length value register) := by
  simp only [readOperand]
  split
  · exact .refl _
  · apply AgreesOrOutside.bind (.refl _)
    intro number
    apply AgreesOrOutside.bind (checkRegister_agrees number length)
    intro place
    exact .refl _

theorem readTransform_agrees (operation : Operation) :
    AgreesOrOutside (readTransform layout table length operation)
      (readTransform other table length operation) := by
  cases operation with
  | boolean =>
      apply AgreesOrOutside.bind (.refl _)
      intro _
      apply AgreesOrOutside.bind (.refl _)
      intro _
      apply AgreesOrOutside.bind (.refl _)
      intro _
      apply AgreesOrOutside.bind (readOperand_agrees .mask .maskRegister)
      intro mask
      apply AgreesOrOutside.bind (readOperand_agrees .xor .xorRegister)
      intro xor
      exact .refl _
  | shiftLeft => exact .refl _
  | shiftRight => exact .refl _

/-- None of the checks but those of places reads the layout. -/
theorem ofTable_agrees : AgreesOrOutside (ofTable layout table) (ofTable other table) := by
  apply AgreesOrOutside.bind (.refl _)
  intro sourceNumber
  apply AgreesOrOutside.bind (.refl _)
  intro destinationNumber
  apply AgreesOrOutside.bind (.refl _)
  intro lengthNumber
  apply AgreesOrOutside.bind (.refl _)
  intro length
  apply AgreesOrOutside.bind (checkRegister_agrees sourceNumber length)
  intro source
  apply AgreesOrOutside.bind (checkRegister_agrees destinationNumber length)
  intro destination
  apply AgreesOrOutside.bind (.refl _)
  intro operation
  apply AgreesOrOutside.bind (readTransform_agrees operation)
  intro transform
  exact .refl _

theorem decode_agrees (message : Bytes) :
    AgreesOrOutside (decode layout message) (decode other message) := by
  apply AgreesOrOutside.bind (.refl _)
  intro table
  exact ofTable_agrees

/-- In another layout a register keeps its number, and all that it needs is room. -/
theorem DescribesOperand.of_holds {value register : Field} {operand : Operand}
    (describes : DescribesOperand layout table length value register operand)
    (holds : ∀ place ∈ operand.register?, other.Holds place length) :
    DescribesOperand other table length value register operand := by
  cases operand with
  | immediate immediate => exact describes
  | register place =>
      rcases describes with ⟨noValue, number, found, names, _⟩
      exact ⟨noValue, number, found, names, holds place rfl⟩

/-- Fields that describe an expression in one layout describe it in every layout with room for its
span. -/
theorem Describes.of_span_le {expression : Bitwise} (describes : Describes layout table expression)
    (room : expression.span ≤ other.words) : Describes other table expression := by
  have placed := describes.wellPlaced.of_span_le room
  have describesTransform : DescribesTransform other table expression.length
      expression.transform := by
    have inFirst := describes.transform
    have holds {operand : Operand} (operand_mem : operand ∈ expression.transform.operands) :
        ∀ place ∈ operand.register?, other.Holds place expression.length := by
      intro place isRegister
      exact placed.holds (operand_mem_registers operand_mem isRegister)
    generalize expression.transform = transform at inFirst holds ⊢
    cases transform with
    | boolean mask xor =>
        rcases inFirst with ⟨noData, describesMask, describesXor⟩
        exact ⟨noData, describesMask.of_holds (holds (by simp [Transform.operands])),
          describesXor.of_holds (holds (by simp [Transform.operands]))⟩
    | shiftLeft amount => exact inFirst
    | shiftRight amount => exact inFirst
  exact ⟨describes.source, describes.destination, describes.length, describes.length_le,
    placed.holds expression.source_mem_registers, placed.holds expression.destination_mem_registers,
    describes.operation, describesTransform⟩

theorem decode_of_span_le {message : Bytes} {expression : Bitwise}
    (accepted : decode layout message = .ok expression) (room : expression.span ≤ other.words) :
    decode other message = .ok expression := by
  rcases decode_eq_ok_iff.mp accepted with ⟨table, parsed, describes⟩
  exact decode_eq_ok_iff.mpr ⟨table, parsed, describes.of_span_le room⟩

theorem span_le_of_decode {message : Bytes} {expression : Bitwise}
    (accepted : decode layout message = .ok expression) : expression.span ≤ layout.words := by
  rcases decode_eq_ok_iff.mp accepted with ⟨table, _, describes⟩
  exact describes.wellPlaced.span_le

/-- A message makes no second expression, whatever the layout. -/
theorem decode_unique {message : Bytes} {expression found : Bitwise}
    (accepted : decode layout message = .ok expression)
    (acceptedToo : decode other message = .ok found) : found = expression := by
  rcases decode_agrees message expression accepted with same | ⟨error, refused, _⟩
  · rw [acceptedToo] at same
    exact Except.ok.inj same
  · rw [acceptedToo] at refused
    cases refused

/-- The span of an expression is what the message that it was read from asks of a layout.  With less
room a register lies outside of the file, and nothing else is wrong; with more room the message is
read as the same expression.  So a register file is large enough for the expression if and only if
the message is accepted in the layout of the file. -/
theorem decode_of_other_layout {message : Bytes} {expression : Bitwise}
    (accepted : decode layout message = .ok expression) :
    expression.span ≤ layout.words ∧
      (∀ other : Layout,
        (expression.span ≤ other.words → decode other message = .ok expression) ∧
        (other.words < expression.span → ∃ error,
          decode other message = .error (.invalidRegister error) ∧ error.OutsideFile) ∧
        (layout.words ≤ other.words → decode other message = .ok expression) ∧
        ∀ found, decode other message = .ok found → found = expression) ∧
      ∀ file : RegisterFile, 8 ≤ file.capacity → file.capacity ≤ 1024 →
        ∃ own, Layout.ofWords file.capacity = .ok own ∧
          (expression.fits file = true ↔ ∃ found, decode own message = .ok found) := by
  have span_le := span_le_of_decode accepted
  refine ⟨span_le, ?_, ?_⟩
  · intro other
    refine ⟨decode_of_span_le accepted, ?_, ?_, fun found => decode_unique accepted⟩
    · intro tooSmall
      rcases decode_agrees message expression accepted with same | refused
      · exact absurd (span_le_of_decode same) (Nat.not_le_of_gt tooSmall)
      · exact refused
    · intro larger
      exact decode_of_span_le accepted (Nat.le_trans span_le larger)
  · intro file minWords_le le_maxWords
    refine ⟨⟨file.capacity, minWords_le, le_maxWords⟩, dif_pos ⟨minWords_le, le_maxWords⟩, ?_⟩
    rw [fits, decide_eq_true_iff]
    constructor
    · intro room
      exact ⟨expression, decode_of_span_le accepted room⟩
    · rintro ⟨found, acceptedToo⟩
      rw [← decode_unique accepted acceptedToo]
      exact span_le_of_decode acceptedToo

/-- Five bytes that are flipped by a register at word 12 need 14 words. -/
theorem decode_of_other_layout_flip :
    decode ⟨14, by decide, by decide⟩ stripedMessage = .ok striped ∧
      (∃ error, decode ⟨13, by decide, by decide⟩ stripedMessage =
        .error (.invalidRegister error)) ∧
      ∃ own, Layout.ofWords 13 = .ok own ∧
        (striped.fits (RegisterFile.blank 13) = true ↔
          ∃ found, decode own stripedMessage = .ok found) := by
  rcases decode_of_other_layout decode_stripedMessage with ⟨_, others, files⟩
  have larger := (others ⟨14, by decide, by decide⟩).1 (by decide)
  have smaller := (others ⟨13, by decide, by decide⟩).2.1 (by decide)
  rcases smaller with ⟨error, refused, _⟩
  exact ⟨larger, ⟨error, refused⟩, files (RegisterFile.blank 13) (by decide) (by decide)⟩

end Bitwise

end PacketExpr
