import PacketExpr.Register.Basic

/-!
# Register files

A register file is an array of words.  `RegisterFile.word` and `RegisterFile.set` serve evaluation,
which has checked beforehand that every word it touches is there.  The other operations check each
access: they are `Access` actions, and one that leaves the file fails, keeping what it had stored
up to there.
-/

namespace PacketExpr

/-- The words that the evaluation of expressions for one packet works on. -/
structure RegisterFile where
  words : Array UInt32
deriving DecidableEq

/-- The fault of a checked access. -/
inductive AccessError where
  | outsideFile
deriving DecidableEq

/-- A step that uses a register file with checked accesses. -/
abbrev Access := EStateM AccessError RegisterFile

namespace RegisterFile

def blank (capacity : Nat) : RegisterFile := ⟨Array.replicate capacity 0⟩

def capacity (file : RegisterFile) : Nat := file.words.size

/-- The word at a position, zero outside of the file. -/
def word (file : RegisterFile) (position : Nat) : UInt32 := file.words.getD position 0

/-- The file with the word at a position replaced; outside of the file nothing changes. -/
def set (file : RegisterFile) (position : Nat) (value : UInt32) : RegisterFile :=
  ⟨file.words.setIfInBounds position value⟩

/-- The `size` bytes of a value at a register, zero bytes standing for what is outside. -/
def bytesAt (file : RegisterFile) (register : Register) (size : Nat) : Bytes :=
  (Bytes.ofWords ((List.range (wordCount size)).map fun offset =>
    file.word (register.word + offset))).take size

/-- The words that are not zero, with their positions in ascending order. -/
def nonzeroWords (file : RegisterFile) : List (Nat × UInt32) :=
  (file.words.toList.zipIdx.map Prod.swap).filter fun entry => entry.2 != 0

@[simp] theorem capacity_blank (capacity : Nat) : (blank capacity).capacity = capacity := by
  simp [blank, RegisterFile.capacity]

@[simp] theorem capacity_set (file : RegisterFile) (position : Nat) (value : UInt32) :
    (file.set position value).capacity = file.capacity := by
  simp [set, capacity]

theorem word_set (file : RegisterFile) (position : Nat) (value : UInt32) (other : Nat) :
    (file.set position value).word other =
      if position = other ∧ position < file.capacity then value else file.word other := by
  simp only [word, set, capacity, Array.getD_eq_getD_getElem?, Array.getElem?_setIfInBounds]
  grind

end RegisterFile

namespace Access

/-- Reads the word `offset` words behind a register. -/
def readWord (register : Register) (offset : Nat) : Access UInt32 := fun file =>
  match file.words[register.word + offset]? with
  | some word => .ok word file
  | none => .error .outsideFile file

/-- Replaces the word `offset` words behind a register. -/
def writeWord (register : Register) (offset : Nat) (value : UInt32) : Access Unit := fun file =>
  if register.word + offset < file.capacity then
    .ok () (file.set (register.word + offset) value)
  else
    .error .outsideFile file

/-- Reads a number of words one after the other, the first of them `offset` words behind a
register. -/
def readWords (register : Register) (offset : Nat) : (count : Nat) → Access (List UInt32)
  | 0 => pure []
  | count + 1 => do
    let word ← readWord register offset
    let words ← readWords register (offset + 1) count
    return word :: words

/-- Writes words one after the other, the first of them `offset` words behind a register. -/
def writeWords (register : Register) (offset : Nat) : List UInt32 → Access Unit
  | [] => pure ()
  | word :: words => do
    writeWord register offset word
    writeWords register (offset + 1) words

/-- Stores a byte string at a register; the rest of a partial last word becomes zero. -/
def store (register : Register) (bytes : Bytes) : Access Unit :=
  writeWords register 0 (Bytes.toWords bytes)

/-- Loads the first `size` bytes at a register. -/
def load (register : Register) (size : Nat) : Access Bytes := do
  let words ← readWords register 0 (wordCount size)
  return (Bytes.ofWords words).take size

end Access

end PacketExpr
