import PacketExpr.Proofs.Bitwise.RoundTrip
import PacketExpr.Proofs.Record.Text

/-!
# Records tell expressions apart

A record determines the expression that it is made of, among those that are accepted in any layout:
their registers are behind the verdict, where a register has a number of its own, and each of their
immediates is what its bytes pack into.  As the text of a record determines the record, it
determines the expression too.
-/

namespace PacketExpr

namespace Layout

/-- Registers behind the verdict have numbers of their own. -/
theorem Holds.eq_of_number {layout otherLayout : Layout} {register other : Register}
    {size otherSize : Nat} (holds : layout.Holds register size)
    (otherHolds : otherLayout.Holds other otherSize) (same : register.number = other.number) :
    register = other := by
  apply Register.eq_of_number_eq ?_ ?_ same
  · exact Register.namedBy_iff_wordOfNumber?.mpr holds.wordOfNumber?_eq
  · exact Register.namedBy_iff_wordOfNumber?.mpr otherHolds.wordOfNumber?_eq

end Layout

namespace Record

/-- The record of an operand tells a register from an immediate and has the bytes of the latter,
which determine it, since described immediates are packed. -/
theorem eq_of_ofOperand {layout otherLayout : Layout} {table otherTable : AttributeTable}
    {length otherLength : Nat} {value register : Bitwise.Field} {operand other : Operand}
    (describes : Bitwise.DescribesOperand layout table length value register operand)
    (otherDescribes :
      Bitwise.DescribesOperand otherLayout otherTable otherLength value register other)
    (same : OperandRecord.ofOperand operand = OperandRecord.ofOperand other) : operand = other := by
  cases operand with
  | immediate immediate =>
      cases other with
      | immediate otherImmediate =>
          have packs := describes.packs rfl
          have sameBytes : immediate.bytes = otherImmediate.bytes :=
            OperandRecord.immediate.inj same
          rw [sameBytes, otherDescribes.packs rfl] at packs
          rw [Option.some.inj packs]
      | register otherPlace => cases same
  | register place =>
      cases other with
      | immediate otherImmediate => cases same
      | register otherPlace =>
          rcases describes with ⟨_, _, _, _, holds⟩
          rcases otherDescribes with ⟨_, _, _, _, otherHolds⟩
          rw [holds.eq_of_number otherHolds (OperandRecord.register.inj same)]

/-- The record names the operation and has the operands or the amount of it. -/
theorem eq_of_transform {layout otherLayout : Layout} {table otherTable : AttributeTable}
    {source destination otherSource otherDestination : Register} {length otherLength : Nat}
    {transform other : Transform}
    (describes : Bitwise.DescribesTransform layout table length transform)
    (otherDescribes : Bitwise.DescribesTransform otherLayout otherTable otherLength other)
    (same : ofExpression ⟨source, destination, length, transform⟩ =
      ofExpression ⟨otherSource, otherDestination, otherLength, other⟩) : transform = other := by
  cases transform with
  | boolean mask xor =>
      cases other with
      | boolean otherMask otherXor =>
          rcases describes with ⟨_, describesMask, describesXor⟩
          rcases otherDescribes with ⟨_, otherDescribesMask, otherDescribesXor⟩
          have sameMask : OperandRecord.ofOperand mask = OperandRecord.ofOperand otherMask :=
            Option.some.inj (congrArg Record.mask same)
          have sameXor : OperandRecord.ofOperand xor = OperandRecord.ofOperand otherXor :=
            Option.some.inj (congrArg Record.xor same)
          rw [eq_of_ofOperand describesMask otherDescribesMask sameMask,
            eq_of_ofOperand describesXor otherDescribesXor sameXor]
      | shiftLeft otherAmount => exact nomatch congrArg Record.operation same
      | shiftRight otherAmount => exact nomatch congrArg Record.operation same
  | shiftLeft amount =>
      cases other with
      | boolean otherMask otherXor => exact nomatch congrArg Record.operation same
      | shiftLeft otherAmount =>
          exact congrArg Transform.shiftLeft (Option.some.inj (congrArg Record.amount same))
      | shiftRight otherAmount => exact nomatch congrArg Record.operation same
  | shiftRight amount =>
      cases other with
      | boolean otherMask otherXor => exact nomatch congrArg Record.operation same
      | shiftLeft otherAmount => exact nomatch congrArg Record.operation same
      | shiftRight otherAmount =>
          exact congrArg Transform.shiftRight (Option.some.inj (congrArg Record.amount same))

theorem source_ofExpression (expression : Bitwise) :
    (ofExpression expression).source = expression.source.number := by
  rcases expression with ⟨source, destination, length, transform⟩
  cases transform <;> rfl

theorem destination_ofExpression (expression : Bitwise) :
    (ofExpression expression).destination = expression.destination.number := by
  rcases expression with ⟨source, destination, length, transform⟩
  cases transform <;> rfl

theorem length_ofExpression (expression : Bitwise) :
    (ofExpression expression).length = expression.length := by
  rcases expression with ⟨source, destination, length, transform⟩
  cases transform <;> rfl

/-- Accepted expressions are equal if their records are. -/
theorem eq_of_ofExpression {layout otherLayout : Layout} {table otherTable : AttributeTable}
    {expression other : Bitwise} (describes : Bitwise.Describes layout table expression)
    (otherDescribes : Bitwise.Describes otherLayout otherTable other)
    (same : ofExpression expression = ofExpression other) : expression = other := by
  have sameTransform : expression.transform = other.transform :=
    eq_of_transform describes.transform otherDescribes.transform same
  have sameSource : expression.source = other.source := by
    apply describes.holdsSource.eq_of_number otherDescribes.holdsSource
    rw [← source_ofExpression, same, source_ofExpression]
  have sameDestination : expression.destination = other.destination := by
    apply describes.holdsDestination.eq_of_number otherDescribes.holdsDestination
    rw [← destination_ofExpression, same, destination_ofExpression]
  have sameLength : expression.length = other.length := by
    rw [← length_ofExpression, same, length_ofExpression]
  rcases expression with ⟨source, destination, length, transform⟩
  rcases other with ⟨_, _, _, _⟩
  cases sameSource
  cases sameDestination
  cases sameLength
  cases sameTransform
  rfl

/-- Accepted expressions are equal if and only if their records are, if and only if the texts of
these are, with the time or without it. -/
theorem render_eq_iff {layout otherLayout : Layout} {table otherTable : AttributeTable}
    {expression other : Bitwise} (accepted : Bitwise.ofTable layout table = .ok expression)
    (otherAccepted : Bitwise.ofTable otherLayout otherTable = .ok other) :
    let record := ofExpression expression
    let otherRecord := ofExpression other
    (record = otherRecord ↔ expression = other) ∧
      (record.renderUntimed = otherRecord.renderUntimed ↔ expression = other) ∧
      ∀ time otherTime, (record.render time).toList = record.renderUntimed.toList.dropLast ++
          (',' :: (timeMember time).toList ++ ['\x7d']) ∧
        (record.render time = otherRecord.render otherTime ↔
          expression = other ∧ time = otherTime) := by
  intro record otherRecord
  have describes := Bitwise.ofTable_eq_ok_iff.mp accepted
  have otherDescribes := Bitwise.ofTable_eq_ok_iff.mp otherAccepted
  have faithful : record = otherRecord → expression = other :=
    eq_of_ofExpression describes otherDescribes
  refine ⟨⟨faithful, congrArg ofExpression⟩, ⟨?_, ?_⟩, ?_⟩
  · intro same
    exact faithful (renderUntimed_injective same)
  · intro same
    exact congrArg (fun expression => (ofExpression expression).renderUntimed) same
  · intro time otherTime
    refine ⟨toList_render record time, ?_, ?_⟩
    · intro same
      rcases render_injective same with ⟨sameRecord, sameTime⟩
      exact ⟨faithful sameRecord, sameTime⟩
    · rintro ⟨sameExpression, rfl⟩
      exact congrArg (fun expression => (ofExpression expression).render time) sameExpression

/-- Two expressions that differ in the form of the mask only, accepted in different layouts and with
different numbers for the same registers. -/
theorem render_eq_iff_forms :
    let one : Immediate := Immediate.ofWord 1
    let given : Bitwise := ⟨⟨4⟩, ⟨8⟩, 4, .boolean (.immediate one) (.immediate one)⟩
    let held : Bitwise := ⟨⟨4⟩, ⟨8⟩, 4, .boolean (.register ⟨4⟩) (.immediate one)⟩
    (ofExpression given).renderUntimed ≠ (ofExpression held).renderUntimed ∧
      ∀ time otherTime,
        (ofExpression given).render time ≠ (ofExpression held).render otherTime := by
  intro one given held
  have givenAccepted : Bitwise.ofTable Layout.standard
      ⟨#[none, some [0, 0, 0, 1], some [0, 0, 0, 2], some [0, 0, 0, 4],
        some [0, 8, 0, 1, 0, 0, 0, 1], some [0, 8, 0, 1, 0, 0, 0, 1]]⟩ = .ok given := by
    decide +kernel
  have heldAccepted : Bitwise.ofTable ⟨1024, by decide, by decide⟩
      ⟨#[none, some [0, 0, 0, 8], some [0, 0, 0, 12], some [0, 0, 0, 4], none,
        some [0, 8, 0, 1, 0, 0, 0, 1], none, none, some [0, 0, 0, 8]]⟩ = .ok held := by
    decide +kernel
  have different : given ≠ held := by decide
  rcases render_eq_iff givenAccepted heldAccepted with ⟨_, untimed, timed⟩
  refine ⟨fun same => different (untimed.mp same), ?_⟩
  intro time otherTime same
  exact different ((timed time otherTime).2.mp same).1

end Record

end PacketExpr
