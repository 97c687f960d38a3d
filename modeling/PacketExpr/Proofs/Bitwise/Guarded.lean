import PacketExpr.Envelope.Message
import PacketExpr.Proofs.Bitwise.Placement
import PacketExpr.Proofs.Bitwise.Trace
import PacketExpr.Proofs.Register.Access

/-!
# Evaluation without faults

Evaluation relies on what has been checked when an expression was accepted: it reads and writes
words without asking whether they are there, and it shifts without asking by how much.  Guarded
evaluation does the same work and asks each time.  It ends in a fault as soon as a word is outside
of the file or of an immediate, or as soon as a word would be shifted by its whole width or more.

`Bitwise.evalGuarded_eq_ok` says that guarded evaluation of an expression with proper length and
amount never faults and has the result of `Bitwise.eval`.
-/

namespace PacketExpr

/-- What evaluation must not do. -/
inductive Fault where
  | access (error : AccessError)
  /-- A word that no immediate has. -/
  | outsideImmediate
  /-- A shift of a word by 32 or more. -/
  | wideShift
deriving DecidableEq

/-- A step of evaluation that may fault. -/
abbrev Guarded := EStateM Fault RegisterFile

namespace Guarded

/-- Reads a word of the file. -/
def readWord (register : Register) (offset : Nat) : Guarded UInt32 :=
  EStateM.adaptExcept .access (Access.readWord register offset)

/-- Writes a word of the file. -/
def writeWord (register : Register) (offset : Nat) (value : UInt32) : Guarded Unit :=
  EStateM.adaptExcept .access (Access.writeWord register offset value)

/-- Reads a word of an operand. -/
def operandWord (operand : Operand) (offset : Nat) : Guarded UInt32 :=
  match operand with
  | .register place => readWord place offset
  | .immediate value =>
      match value.word? offset with
      | some word => pure word
      | none => throw .outsideImmediate

/-- Shifts a word toward its first bit. -/
def shiftLeft (word : UInt32) (amount : Nat) : Guarded UInt32 :=
  if amount < 32 then pure (word <<< UInt32.ofNat amount) else throw .wideShift

/-- Shifts a word toward its last bit. -/
def shiftRight (word : UInt32) (amount : Nat) : Guarded UInt32 :=
  if amount < 32 then pure (word >>> UInt32.ofNat amount) else throw .wideShift

/-- The bits that a left shift moves out of a word. -/
def carryLeft (word : UInt32) (amount : Nat) : Guarded UInt32 :=
  if amount = 0 then pure 0 else shiftRight word (32 - amount)

/-- The bits that a right shift moves out of a word. -/
def carryRight (word : UInt32) (amount : Nat) : Guarded UInt32 :=
  if amount = 0 then pure 0 else shiftLeft word (32 - amount)

/-- The mask for one of the words that `length` bytes occupy. -/
def valueMask (length offset : Nat) : Guarded UInt32 :=
  if offset + 1 = wordCount length then
    if length % 4 = 0 then pure 0xFFFFFFFF else shiftLeft 0xFFFFFFFF (8 * (4 - length % 4))
  else
    pure 0xFFFFFFFF

end Guarded

namespace Bitwise

/-- One turn of a boolean transform. -/
def booleanTurn (expression : Bitwise) (mask xor : Operand) (offset : Nat) : Guarded Unit := do
  let maskWord ← Guarded.operandWord mask offset
  let xorWord ← Guarded.operandWord xor offset
  let word ← Guarded.readWord expression.source offset
  Guarded.writeWord expression.destination offset ((word &&& maskWord) ^^^ xorWord)

/-- One turn of a left shift; gives the carry for the next turn. -/
def shiftLeftTurn (expression : Bitwise) (amount : Nat) (carry : UInt32) (offset : Nat) :
    Guarded UInt32 := do
  let read ← Guarded.readWord expression.source offset
  let mask ← Guarded.valueMask expression.length offset
  let shifted ← Guarded.shiftLeft (read &&& mask) amount
  Guarded.writeWord expression.destination offset (shifted ||| carry)
  Guarded.carryLeft (read &&& mask) amount

/-- One turn of a right shift; gives the carry for the next turn. -/
def shiftRightTurn (expression : Bitwise) (amount : Nat) (carry : UInt32) (offset : Nat) :
    Guarded UInt32 := do
  let word ← Guarded.readWord expression.source offset
  let shifted ← Guarded.shiftRight word amount
  let mask ← Guarded.valueMask expression.length offset
  Guarded.writeWord expression.destination offset ((carry ||| shifted) &&& mask)
  Guarded.carryRight word amount

/-- The transform of the words of a file, turn by turn. -/
def runGuarded (expression : Bitwise) : Guarded Unit :=
  let offsets := List.range (wordCount expression.length)
  match expression.transform with
  | .boolean mask xor => offsets.foldlM (fun _ => expression.booleanTurn mask xor) ()
  | .shiftLeft amount => discard (offsets.reverse.foldlM (expression.shiftLeftTurn amount) 0)
  | .shiftRight amount => discard (offsets.foldlM (expression.shiftRightTurn amount) 0)

/-- Evaluates the expression and checks every access and every shift. -/
def evalGuarded (expression : Bitwise) : Guarded Unit := do
  if expression.fits (← get) then
    expression.runGuarded

/-- Evaluates expressions one after the other. -/
def evalAll (expressions : List Bitwise) (file : RegisterFile) : RegisterFile :=
  expressions.foldl (fun file expression => expression.eval file) file

end Bitwise

namespace Guarded

variable {α : Type} {file : RegisterFile}

theorem readWord_eq_ok {register : Register} {offset : Nat}
    (inside : register.word + offset < file.capacity) :
    readWord register offset file = .ok (file.word (register.word + offset)) file := by
  simp only [readWord, EStateM.adaptExcept, Access.readWord_eq_ok inside]

theorem writeWord_eq_ok {register : Register} {offset : Nat} (value : UInt32)
    (inside : register.word + offset < file.capacity) :
    writeWord register offset value file = .ok () (file.set (register.word + offset) value) := by
  simp only [writeWord, EStateM.adaptExcept, Access.writeWord, if_pos inside]

/-- Every word of an operand can be read: the words of a register lie inside the file, and an
immediate has room for more words than any value has. -/
theorem operandWord_eq_ok {operand : Operand} {offset : Nat} (offset_lt : offset < 64)
    (inside : ∀ place ∈ operand.register?, place.word + offset < file.capacity) :
    operandWord operand offset file = .ok (operand.word file offset) file := by
  cases operand with
  | immediate value =>
      have present : value.word? offset = some (value.word offset) := by
        simp [Immediate.word, Immediate.word?, offset_lt]
      simp only [operandWord, present]
      rfl
  | register place => exact readWord_eq_ok (inside place rfl)

theorem shiftLeft_eq_ok (word : UInt32) {amount : Nat} (amount_lt : amount < 32) :
    shiftLeft word amount file = .ok (word <<< UInt32.ofNat amount) file := by
  rw [shiftLeft, if_pos amount_lt]
  rfl

theorem shiftRight_eq_ok (word : UInt32) {amount : Nat} (amount_lt : amount < 32) :
    shiftRight word amount file = .ok (word >>> UInt32.ofNat amount) file := by
  rw [shiftRight, if_pos amount_lt]
  rfl

/-- A carry is taken by a shift of what is left of a word, which is less than a word unless the
amount is zero. -/
theorem carryLeft_eq_ok (word : UInt32) (amount : Nat) :
    carryLeft word amount file = .ok (PacketExpr.carryLeft word amount) file := by
  rw [carryLeft, PacketExpr.carryLeft]
  split
  · rfl
  · exact shiftRight_eq_ok word (by omega)

theorem carryRight_eq_ok (word : UInt32) (amount : Nat) :
    carryRight word amount file = .ok (PacketExpr.carryRight word amount) file := by
  rw [carryRight, PacketExpr.carryRight]
  split
  · rfl
  · exact shiftLeft_eq_ok word (by omega)

theorem valueMask_eq_ok (length offset : Nat) :
    valueMask length offset file = .ok (Bitwise.valueMask length offset) file := by
  rw [valueMask, Bitwise.valueMask, lastWordMask]
  split
  · split
    · rfl
    · exact shiftLeft_eq_ok _ (by omega)
  · rfl

/-- A loop whose turns do not fault in files of some capacity has the result of the fold that it
carries out, provided that the turns keep the capacity. -/
theorem foldlM_eq_ok (turn : α → Nat → Guarded α)
    (step : α × RegisterFile → Nat → α × RegisterFile) (offsets : List Nat) {capacity : Nat}
    (turns : ∀ offset ∈ offsets, ∀ state : α × RegisterFile, state.2.capacity = capacity →
      turn state.1 offset state.2 = .ok (step state offset).1 (step state offset).2)
    (keeps : ∀ state offset, (step state offset).2.capacity = state.2.capacity)
    (state : α × RegisterFile) (large : state.2.capacity = capacity) :
    offsets.foldlM turn state.1 state.2 =
      .ok (offsets.foldl step state).1 (offsets.foldl step state).2 := by
  induction offsets generalizing state with
  | nil => rfl
  | cons offset offsets ih =>
      rw [List.foldlM_cons, List.foldl_cons,
        bind_eq_of_ok (turns offset List.mem_cons_self state large)]
      apply ih
      · intro later later_mem
        exact turns later (List.mem_cons_of_mem _ later_mem)
      · rw [keeps, large]

end Guarded

namespace Bitwise

variable {expression : Bitwise} {file : RegisterFile} {offset : Nat}

theorem inside_of_fits (fits : expression.fits file = true) {register : Register}
    (register_mem : register ∈ expression.registers)
    (offset_lt : offset < wordCount expression.length) :
    register.word + offset < file.capacity := by
  have room := fits_iff.mp fits register register_mem
  omega

/-- A turn of a boolean transform stays inside the file and does what the turn without checks
does. -/
theorem booleanTurn_eq_ok {mask xor : Operand}
    (isBoolean : expression.transform = .boolean mask xor)
    (length_le : expression.length ≤ 255) (fits : expression.fits file = true)
    (offset_lt : offset < wordCount expression.length) :
    expression.booleanTurn mask xor offset file =
      .ok () (expression.booleanStep mask xor file offset) := by
  have offset_lt_64 : offset < 64 := by
    simp only [wordCount] at offset_lt
    omega
  have operandInside : ∀ operand ∈ [mask, xor], ∀ place ∈ operand.register?,
      place.word + offset < file.capacity := by
    intro operand operand_mem place isRegister
    have operand_mem' : operand ∈ expression.transform.operands := by
      rw [isBoolean]
      exact operand_mem
    exact inside_of_fits fits (operand_mem_registers operand_mem' isRegister) offset_lt
  have readMask := Guarded.operandWord_eq_ok offset_lt_64 (operandInside mask (by simp))
  have readXor := Guarded.operandWord_eq_ok offset_lt_64 (operandInside xor (by simp))
  have readSource := Guarded.readWord_eq_ok
    (inside_of_fits fits expression.source_mem_registers offset_lt)
  rw [booleanTurn, bind_eq_of_ok readMask, bind_eq_of_ok readXor,
    bind_eq_of_ok readSource]
  exact Guarded.writeWord_eq_ok _
    (inside_of_fits fits expression.destination_mem_registers offset_lt)

/-- A turn of a left shift stays inside the file and its shifts are of less than a word. -/
theorem shiftLeftTurn_eq_ok {amount : Nat} (amount_lt : amount < 32)
    (fits : expression.fits file = true) (offset_lt : offset < wordCount expression.length)
    (carry : UInt32) :
    expression.shiftLeftTurn amount carry offset file =
      .ok (expression.shiftLeftStep amount offset (carry, file)).1
        (expression.shiftLeftStep amount offset (carry, file)).2 := by
  have readSource := Guarded.readWord_eq_ok
    (inside_of_fits fits expression.source_mem_registers offset_lt)
  have destinationInside := inside_of_fits fits expression.destination_mem_registers offset_lt
  rw [shiftLeftTurn, bind_eq_of_ok readSource,
    bind_eq_of_ok (Guarded.valueMask_eq_ok ..),
    bind_eq_of_ok (Guarded.shiftLeft_eq_ok _ amount_lt),
    bind_eq_of_ok (Guarded.writeWord_eq_ok _ destinationInside)]
  exact Guarded.carryLeft_eq_ok ..

theorem shiftRightTurn_eq_ok {amount : Nat} (amount_lt : amount < 32)
    (fits : expression.fits file = true) (offset_lt : offset < wordCount expression.length)
    (carry : UInt32) :
    expression.shiftRightTurn amount carry offset file =
      .ok (expression.shiftRightStep amount (carry, file) offset).1
        (expression.shiftRightStep amount (carry, file) offset).2 := by
  have readSource := Guarded.readWord_eq_ok
    (inside_of_fits fits expression.source_mem_registers offset_lt)
  have destinationInside := inside_of_fits fits expression.destination_mem_registers offset_lt
  rw [shiftRightTurn, bind_eq_of_ok readSource,
    bind_eq_of_ok (Guarded.shiftRight_eq_ok _ amount_lt),
    bind_eq_of_ok (Guarded.valueMask_eq_ok ..),
    bind_eq_of_ok (Guarded.writeWord_eq_ok _ destinationInside)]
  exact Guarded.carryRight_eq_ok ..

/-- A run with checks is one without, turn by turn; no turn changes the size of the file, so the
next one is inside as well. -/
theorem runGuarded_eq_ok (length_le : expression.length ≤ 255)
    (amount_lt : ∀ amount ∈ expression.transform.amount?, amount < 32)
    (fits : expression.fits file = true) :
    expression.runGuarded file = .ok () (expression.run file) := by
  cases transform_eq : expression.transform with
  | boolean mask xor =>
      let step : Unit × RegisterFile → Nat → Unit × RegisterFile :=
        fun state offset => ((), expression.booleanStep mask xor state.2 offset)
      have loop := Guarded.foldlM_eq_ok (fun _ => expression.booleanTurn mask xor) step
        (List.range (wordCount expression.length))
        (by
          intro offset offset_mem state sameCapacity
          exact booleanTurn_eq_ok transform_eq length_le (fits_congr sameCapacity fits)
            (List.mem_range.mp offset_mem))
        (fun _ _ => RegisterFile.capacity_set ..) ((), file) rfl
      have folds : (List.range (wordCount expression.length)).foldl step ((), file) =
          ((), (List.range (wordCount expression.length)).foldl
            (expression.booleanStep mask xor) file) :=
        List.foldl_hom (fun file => ((), file)) (fun _ _ => rfl)
      simp only [runGuarded, run, transform_eq, loop, folds]
  | shiftLeft amount =>
      have shift_lt := amount_lt amount (by rw [transform_eq]; rfl)
      have loop := Guarded.foldlM_eq_ok (expression.shiftLeftTurn amount)
        (fun state offset => expression.shiftLeftStep amount offset state)
        (List.range (wordCount expression.length)).reverse
        (by
          intro offset offset_mem state sameCapacity
          exact shiftLeftTurn_eq_ok shift_lt (fits_congr sameCapacity fits)
            (List.mem_range.mp (List.mem_reverse.mp offset_mem)) state.1)
        (fun _ _ => RegisterFile.capacity_set ..) (0, file) rfl
      simp only [runGuarded, run, transform_eq, discard, Functor.discard, Functor.mapConst,
        EStateM.map, Function.comp, loop, List.foldl_reverse]
  | shiftRight amount =>
      have shift_lt := amount_lt amount (by rw [transform_eq]; rfl)
      have loop := Guarded.foldlM_eq_ok (expression.shiftRightTurn amount)
        (expression.shiftRightStep amount) (List.range (wordCount expression.length))
        (by
          intro offset offset_mem state sameCapacity
          exact shiftRightTurn_eq_ok shift_lt (fits_congr sameCapacity fits)
            (List.mem_range.mp offset_mem) state.1)
        (fun _ _ => RegisterFile.capacity_set ..) (0, file) rfl
      simp only [runGuarded, run, transform_eq, discard, Functor.discard, Functor.mapConst,
        EStateM.map, Function.comp, loop]

theorem evalGuarded_eq_ok (length_le : expression.length ≤ 255)
    (amount_lt : ∀ amount ∈ expression.transform.amount?, amount < 32) (file : RegisterFile) :
    expression.evalGuarded file = .ok () (expression.eval file) := by
  have getFile : (get : Guarded RegisterFile) file = .ok file file := rfl
  rw [evalGuarded, bind_eq_of_ok getFile, eval]
  split
  · rename_i fits
    exact runGuarded_eq_ok length_le amount_lt fits
  · rfl

end Bitwise

end PacketExpr
