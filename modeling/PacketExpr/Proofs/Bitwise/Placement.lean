import PacketExpr.Proofs.Bitwise.Description
import Mathlib.Data.Nat.Basic

/-!
# Where accepted expressions lie

An expression that has been accepted in a layout is well placed in it: its length is in bounds,
every register that it reads or writes lies behind the verdict and has all of its words inside the
file, its immediates have the length of the expression, and it shifts by less than a word.

The span of an expression is the smallest number of words that hold all of its registers, so a well
placed expression fits every register file that is as large as the layout.
-/

namespace PacketExpr

/-- The immediate value of an operand that is given with the expression. -/
def Operand.immediate? : Operand → Option Immediate
  | immediate value => some value
  | register _ => none

namespace Transform

/-- The immediate values among the operands. -/
def immediates : Transform → List Immediate
  | boolean mask xor => [mask, xor].filterMap Operand.immediate?
  | shiftLeft _ | shiftRight _ => []

/-- The amount of a shift. -/
def amount? : Transform → Option Nat
  | boolean .. => none
  | shiftLeft amount | shiftRight amount => some amount

/-- The operands of a transform, in either form. -/
def operands : Transform → List Operand
  | boolean mask xor => [mask, xor]
  | shiftLeft _ | shiftRight _ => []

theorem mem_registers_iff {transform : Transform} {register : Register} :
    register ∈ transform.registers ↔
      ∃ operand ∈ transform.operands, operand.register? = some register := by
  cases transform with
  | boolean mask xor => exact List.mem_filterMap
  | shiftLeft amount => simp [registers, operands]
  | shiftRight amount => simp [registers, operands]

theorem mem_immediates_iff {transform : Transform} {immediate : Immediate} :
    immediate ∈ transform.immediates ↔
      ∃ operand ∈ transform.operands, operand.immediate? = some immediate := by
  cases transform with
  | boolean mask xor => exact List.mem_filterMap
  | shiftLeft amount => simp [immediates, operands]
  | shiftRight amount => simp [immediates, operands]

end Transform

namespace Bitwise

/-- An expression keeps to a register file of the given layout. -/
structure WellPlaced (layout : Layout) (expression : Bitwise) : Prop where
  length_pos : 1 ≤ expression.length
  length_le : expression.length ≤ 255
  registers : ∀ register ∈ expression.registers, 4 ≤ register.word ∧
    register.word + wordCount expression.length ≤ layout.words
  immediates : ∀ immediate ∈ expression.transform.immediates, immediate.size = expression.length
  amount : ∀ amount ∈ expression.transform.amount?, amount < 32

theorem source_mem_registers (expression : Bitwise) : expression.source ∈ expression.registers :=
  List.mem_cons_self

theorem destination_mem_registers (expression : Bitwise) :
    expression.destination ∈ expression.registers :=
  List.mem_cons_of_mem _ List.mem_cons_self

theorem operand_mem_registers {expression : Bitwise} {operand : Operand} {register : Register}
    (operand_mem : operand ∈ expression.transform.operands)
    (isRegister : operand.register? = some register) : register ∈ expression.registers := by
  have transform_mem := Transform.mem_registers_iff.mpr ⟨operand, operand_mem, isRegister⟩
  exact List.mem_cons_of_mem _ (List.mem_cons_of_mem _ transform_mem)

theorem WellPlaced.mask_sizes {layout : Layout} {expression : Bitwise} {mask xor : Immediate}
    (placed : expression.WellPlaced layout)
    (isMask : expression.transform = .boolean (.immediate mask) (.immediate xor)) :
    mask.size = expression.length ∧ xor.size = expression.length := by
  have sizes := placed.immediates
  simpa [isMask, Transform.immediates, Operand.immediate?] using sizes

theorem foldl_max_le_iff {words : List Nat} {start limit : Nat} :
    words.foldl max start ≤ limit ↔ start ≤ limit ∧ ∀ word ∈ words, word ≤ limit := by
  induction words generalizing start with
  | nil => simp
  | cons word words ih =>
      rw [List.foldl_cons, ih]
      simp only [List.mem_cons, forall_eq_or_imp, Nat.max_le]
      exact and_assoc

/-- The span of an expression is the least number of words in which all of its registers lie. -/
theorem span_le_iff {expression : Bitwise} {limit : Nat} :
    expression.span ≤ limit ↔
      ∀ register ∈ expression.registers, register.word + wordCount expression.length ≤ limit := by
  have shifted : ∀ word, word ≤ limit - wordCount expression.length ∧
      wordCount expression.length ≤ limit ↔ word + wordCount expression.length ≤ limit := by
    intro word
    omega
  constructor
  · intro span_le register register_mem
    have room : wordCount expression.length ≤ limit := by
      simp only [span] at span_le
      omega
    refine (shifted _).mp ⟨?_, room⟩
    have largest_le : (expression.registers.map Register.word).foldl max 0 ≤
        limit - wordCount expression.length := by
      simp only [span] at span_le
      omega
    exact (foldl_max_le_iff.mp largest_le).2 _ (List.mem_map_of_mem register_mem)
  · intro inside
    have room := ((shifted _).mpr (inside _ expression.source_mem_registers)).2
    have largest_le : (expression.registers.map Register.word).foldl max 0 ≤
        limit - wordCount expression.length := by
      refine foldl_max_le_iff.mpr ⟨Nat.zero_le _, ?_⟩
      intro word word_mem
      rcases List.mem_map.mp word_mem with ⟨register, register_mem, rfl⟩
      exact ((shifted _).mpr (inside register register_mem)).1
    simp only [span]
    omega

theorem fits_iff {expression : Bitwise} {file : RegisterFile} :
    expression.fits file = true ↔ ∀ register ∈ expression.registers,
      register.word + wordCount expression.length ≤ file.capacity := by
  rw [fits, decide_eq_true_iff, span_le_iff]

theorem fits_congr {expression : Bitwise} {file other : RegisterFile}
    (sameCapacity : other.capacity = file.capacity) (fits : expression.fits file = true) :
    expression.fits other = true := by
  rw [fits_iff] at fits ⊢
  rwa [sameCapacity]

theorem WellPlaced.span_le {layout : Layout} {expression : Bitwise}
    (placed : expression.WellPlaced layout) : expression.span ≤ layout.words := by
  rw [span_le_iff]
  intro register register_mem
  exact (placed.registers register register_mem).2

/-- A well placed expression is well placed in every layout with room for its span. -/
theorem WellPlaced.of_span_le {layout other : Layout} {expression : Bitwise}
    (placed : expression.WellPlaced layout) (room : expression.span ≤ other.words) :
    expression.WellPlaced other where
  length_pos := placed.length_pos
  length_le := placed.length_le
  registers := by
    intro register register_mem
    exact ⟨(placed.registers register register_mem).1, span_le_iff.mp room register register_mem⟩
  immediates := placed.immediates
  amount := placed.amount

theorem WellPlaced.holds {layout : Layout} {expression : Bitwise}
    (placed : expression.WellPlaced layout) {register : Register}
    (register_mem : register ∈ expression.registers) :
    layout.Holds register expression.length where
  behindVerdict := (placed.registers register register_mem).1
  size_pos := placed.length_pos
  inFile := (placed.registers register register_mem).2

theorem DescribesOperand.holds {layout : Layout} {table : AttributeTable} {length : Nat}
    {value register : Field} {operand : Operand} {place : Register}
    (describes : DescribesOperand layout table length value register operand)
    (isRegister : operand.register? = some place) : layout.Holds place length := by
  cases operand with
  | immediate immediate => cases isRegister
  | register other =>
      cases isRegister
      rcases describes with ⟨_, _, _, _, holds⟩
      exact holds

theorem DescribesOperand.size_eq {layout : Layout} {table : AttributeTable} {length : Nat}
    {value register : Field} {operand : Operand} {immediate : Immediate}
    (describes : DescribesOperand layout table length value register operand)
    (isImmediate : operand.immediate? = some immediate) : immediate.size = length := by
  cases operand with
  | immediate other =>
      cases isImmediate
      rcases describes with ⟨_, _, _, _, sameSize⟩
      exact sameSize
  | register place => cases isImmediate

/-- Every operand of a described transform is described by two of the fields. -/
theorem Describes.operand {layout : Layout} {table : AttributeTable} {expression : Bitwise}
    (describes : Describes layout table expression) {operand : Operand}
    (operand_mem : operand ∈ expression.transform.operands) :
    ∃ value register,
      DescribesOperand layout table expression.length value register operand := by
  have describesTransform := describes.transform
  generalize expression.transform = transform at describesTransform operand_mem
  cases transform with
  | boolean mask xor =>
      rcases describesTransform with ⟨_, describesMask, describesXor⟩
      simp only [Transform.operands, List.mem_cons, List.not_mem_nil, or_false] at operand_mem
      rcases operand_mem with rfl | rfl
      · exact ⟨_, _, describesMask⟩
      · exact ⟨_, _, describesXor⟩
  | shiftLeft amount => cases operand_mem
  | shiftRight amount => cases operand_mem

theorem Describes.holds {layout : Layout} {table : AttributeTable} {expression : Bitwise}
    (describes : Describes layout table expression) {register : Register}
    (register_mem : register ∈ expression.registers) :
    layout.Holds register expression.length := by
  simp only [registers, List.mem_cons] at register_mem
  rcases register_mem with rfl | rfl | operand_mem
  · exact describes.holdsSource
  · exact describes.holdsDestination
  · rcases Transform.mem_registers_iff.mp operand_mem with ⟨operand, operand_mem, isRegister⟩
    rcases describes.operand operand_mem with ⟨_, _, describesOperand⟩
    exact describesOperand.holds isRegister

theorem Describes.wellPlaced {layout : Layout} {table : AttributeTable} {expression : Bitwise}
    (describes : Describes layout table expression) : expression.WellPlaced layout where
  length_pos := describes.holdsSource.size_pos
  length_le := describes.length_le
  registers := by
    intro register register_mem
    have holds := describes.holds register_mem
    exact ⟨holds.behindVerdict, holds.inFile⟩
  immediates := by
    intro immediate immediate_mem
    rcases Transform.mem_immediates_iff.mp immediate_mem with ⟨operand, operand_mem, isImmediate⟩
    rcases describes.operand operand_mem with ⟨_, _, describesOperand⟩
    exact describesOperand.size_eq isImmediate
  amount := by
    intro amount isAmount
    have describesTransform := describes.transform
    generalize expression.transform = transform at describesTransform isAmount
    cases transform with
    | boolean mask xor => cases isAmount
    | shiftLeft shift =>
        cases isAmount
        rcases describesTransform with ⟨_, _, _, _, _, _, _, amount_lt⟩
        exact amount_lt
    | shiftRight shift =>
        cases isAmount
        rcases describesTransform with ⟨_, _, _, _, _, _, _, amount_lt⟩
        exact amount_lt

theorem wellPlaced_of_ofTable {layout : Layout} {table : AttributeTable} {expression : Bitwise}
    (accepted : ofTable layout table = .ok expression) : expression.WellPlaced layout :=
  (ofTable_eq_ok_iff.mp accepted).wellPlaced

theorem decode_eq_ok_iff {layout : Layout} {message : Bytes} {expression : Bitwise} :
    decode layout message = .ok expression ↔
      ∃ table, AttributeTable.parse schema message = .ok table ∧
        Describes layout table expression := by
  simp only [decode, bind_eq_ok_iff, mapError_eq_ok_iff, ofTable_eq_ok_iff]

/-- A mask of five bytes, the last of which begins a second word. -/
def stripes : Immediate :=
  ⟨Vector.ofFn fun position => Bytes.wordAt [0xFF, 0, 0xFF, 0, 0xFF] position, 5, by decide,
    by decide⟩

/-- An expression with this mask next to a register, which needs 14 words. -/
def striped : Bitwise := ⟨⟨4⟩, ⟨8⟩, 5, .boolean (.immediate stripes) (.register ⟨12⟩)⟩

/-- A message for this expression, which does not name the operation. -/
def stripedMessage : Bytes :=
  [0, 8, 0, 1, 0, 0, 0, 8, 0, 8, 0, 2, 0, 0, 0, 12, 0, 8, 0, 3, 0, 0, 0, 5,
    0, 16, 0x80, 4, 0, 9, 0, 1, 0xFF, 0, 0xFF, 0, 0xFF, 0, 0, 0, 0, 8, 0, 9, 0, 0, 0, 16]

theorem decode_stripedMessage : decode ⟨16, by decide, by decide⟩ stripedMessage = .ok striped := by
  decide +kernel

end Bitwise

end PacketExpr
