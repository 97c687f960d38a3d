import PacketExpr.Bitwise.Basic

/-!
# Evaluation of bitwise expressions

`Bitwise.eval` works word by word, reading and writing one file: where the destination overlaps what
is still to be read, later words see what earlier ones have written.  Boolean transforms and right
shifts go from the first word to the last, left shifts from the last to the first, and shifts hand
the bits that leave one word to the next.

The bytes that pad a partial last word are no part of the value: a left shift clears them before it
shifts, a right shift clears them afterwards.  A register file that is too small for the expression
is left as it is, so evaluation never touches a word outside of the file.
-/

namespace PacketExpr

/-- The bits of the last of the words that `length` bytes occupy which belong to those bytes. -/
def lastWordMask (length : Nat) : UInt32 :=
  if length % 4 = 0 then 0xFFFFFFFF else 0xFFFFFFFF <<< UInt32.ofNat (8 * (4 - length % 4))

/-- The bits that a left shift moves out of a word, at the low end of the next word. -/
def carryLeft (word : UInt32) (amount : Nat) : UInt32 :=
  if amount = 0 then 0 else word >>> UInt32.ofNat (32 - amount)

/-- The bits that a right shift moves out of a word, at the high end of the next word. -/
def carryRight (word : UInt32) (amount : Nat) : UInt32 :=
  if amount = 0 then 0 else word <<< UInt32.ofNat (32 - amount)

namespace Bitwise

/-- The mask for one of the words that `length` bytes occupy: all of its bits count unless it is the
last word. -/
def valueMask (length offset : Nat) : UInt32 :=
  if offset + 1 = wordCount length then lastWordMask length else 0xFFFFFFFF

/-- One word of a boolean transform. -/
def booleanStep (expression : Bitwise) (mask xor : Operand) (file : RegisterFile) (offset : Nat) :
    RegisterFile :=
  let word := file.word (expression.source.word + offset)
  file.set (expression.destination.word + offset)
    ((word &&& mask.word file offset) ^^^ xor.word file offset)

/-- One word of a left shift, with the bits that come from the word behind it. -/
def shiftLeftStep (expression : Bitwise) (amount : Nat) (offset : Nat)
    (state : UInt32 × RegisterFile) : UInt32 × RegisterFile :=
  let word := state.2.word (expression.source.word + offset)
    &&& valueMask expression.length offset
  (carryLeft word amount,
    state.2.set (expression.destination.word + offset)
      ((word <<< UInt32.ofNat amount) ||| state.1))

/-- One word of a right shift, with the bits that come from the word before it. -/
def shiftRightStep (expression : Bitwise) (amount : Nat) (state : UInt32 × RegisterFile)
    (offset : Nat) : UInt32 × RegisterFile :=
  let word := state.2.word (expression.source.word + offset)
  (carryRight word amount,
    state.2.set (expression.destination.word + offset)
      ((state.1 ||| (word >>> UInt32.ofNat amount)) &&& valueMask expression.length offset))

/-- The transform of the words of a file that is large enough. -/
def run (expression : Bitwise) (file : RegisterFile) : RegisterFile :=
  let offsets := List.range (wordCount expression.length)
  match expression.transform with
  | .boolean mask xor => offsets.foldl (expression.booleanStep mask xor) file
  | .shiftLeft amount => (offsets.foldr (expression.shiftLeftStep amount) (0, file)).2
  | .shiftRight amount => (offsets.foldl (expression.shiftRightStep amount) (0, file)).2

/-- Evaluates the expression; a file that is too small for it stays as it is. -/
def eval (expression : Bitwise) (file : RegisterFile) : RegisterFile :=
  if expression.fits file then expression.run file else file

end Bitwise

end PacketExpr
