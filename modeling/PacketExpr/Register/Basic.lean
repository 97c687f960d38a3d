import PacketExpr.Bytes

/-!
# Registers

Registers are places in a file of 32-bit words.  A message names them by numbers of two kinds: 0 to
4 are the wide registers of four words each, of which number 0 holds the verdict, and from 8 on the
numbers count single words, beginning behind the verdict.  The numbers 5 to 7 name nothing.

`Layout.resolve` finds the word that a number names in a file of a given size, and `Register.number`
gives back the number under which a register is written: the wide one wherever there is one.
-/

namespace PacketExpr

/-- What can be wrong with a register, an access to it, or a register file. -/
inductive RegisterError where
  | unknown (number : UInt32)
  | outOfRange (number : UInt32)
  /-- The verdict is no place for values. -/
  | verdict
  /-- An access needs at least one byte. -/
  | zeroLength
  /-- The access starts inside the file and ends outside of it. -/
  | overflow (number : UInt32) (size : Nat)
  /-- Register files of so many words do not exist. -/
  | invalidCapacity (words : Nat)
  /-- The file has fewer words than its layout asks for. -/
  | fileTooSmall (layout capacity : Nat)
deriving DecidableEq

namespace RegisterError

def message : RegisterError → String
  | unknown number => s!"register {number} does not exist"
  | outOfRange number => s!"register {number} is outside of the register file"
  | verdict => "verdict register can't hold value data"
  | zeroLength => "access of zero bytes"
  | overflow number size => s!"{size} bytes from register {number} overrun the register file"
  | invalidCapacity words => s!"register file of {words} words is not supported"
  | fileTooSmall layout capacity =>
    s!"register file of {capacity} words is smaller than the layout of {layout} words"

end RegisterError

/-- A place in a register file, by the position of its first word. -/
structure Register where
  word : Nat
deriving DecidableEq

namespace Register

/-- Number of words in a wide register; the verdict is as wide. -/
def wideWords : Nat := 4

def lastWide : Nat := 4

def firstSingle : Nat := 8

/-- Number of words in the default file; only there do wide registers exist. -/
def defaultWords : Nat := 20

/-- Number of words in the smallest file: the verdict and one wide register. -/
def minWords : Nat := 8

def maxWords : Nat := 1024

/-- The number that names the register: the wide register that starts at its word, or else the
single-word register. -/
def number (register : Register) : UInt32 :=
  if register.word < defaultWords ∧ register.word % wideWords = 0 then
    UInt32.ofNat (register.word / wideWords)
  else
    UInt32.ofNat (register.word + firstSingle - wideWords)

end Register

/-- The size of the register file that expressions are checked against. -/
structure Layout where
  words : Nat
  minWords_le : Register.minWords ≤ words
  le_maxWords : words ≤ Register.maxWords
deriving DecidableEq

namespace Layout

def standard : Layout := ⟨Register.defaultWords, by decide, by decide⟩

/-- The layout of a file of so many words. -/
def ofWords (words : Nat) : Except RegisterError Layout :=
  if bounds : Register.minWords ≤ words ∧ words ≤ Register.maxWords then
    .ok ⟨words, bounds.1, bounds.2⟩
  else
    .error (.invalidCapacity words)

/-- The word that a register number names in a file without end; none for the unused numbers. -/
def wordOfNumber? (number : Nat) : Option Nat :=
  if number ≤ Register.lastWide then
    some (number * Register.wideWords)
  else if Register.firstSingle ≤ number then
    some (number - Register.firstSingle + Register.wideWords)
  else
    none

/-- The number of a register names its word, unless it begins inside the verdict. -/
theorem wordOfNumber?_number {register : Register}
    (begins : register.word = 0 ∨ Register.wideWords ≤ register.word)
    (inFile : register.word < Register.maxWords) :
    wordOfNumber? register.number.toNat = some register.word := by
  simp only [Register.wideWords, Register.maxWords] at begins inFile
  unfold Register.number
  split
  · rename_i wide
    simp only [Register.defaultWords, Register.wideWords] at wide
    have number : (UInt32.ofNat (register.word / 4)).toNat = register.word / 4 := by
      rw [UInt32.toNat_ofNat']
      exact Nat.mod_eq_of_lt (by omega)
    simp only [Register.wideWords, number, wordOfNumber?, Register.lastWide]
    rw [if_pos (by omega), show register.word / 4 * 4 = register.word by omega]
  · rename_i single
    simp only [Register.defaultWords, Register.wideWords] at single
    have number : (UInt32.ofNat (register.word + 8 - 4)).toNat = register.word + 4 := by
      rw [UInt32.toNat_ofNat']
      exact Nat.mod_eq_of_lt (by omega)
    simp only [Register.wideWords, Register.firstSingle, number, wordOfNumber?, Register.lastWide]
    rw [if_neg (by omega), if_pos (by omega),
      show register.word + 4 - 8 + 4 = register.word by omega]

def resolve (layout : Layout) (number : UInt32) : Except RegisterError Register :=
  match wordOfNumber? number.toNat with
  | none => .error (.unknown number)
  | some word => if word < layout.words then .ok ⟨word⟩ else .error (.outOfRange number)

/-- Checks that `size` bytes of a value have their place at a register. -/
def validate (layout : Layout) (register : Register) (size : Nat) : Except RegisterError Unit :=
  if register.word < Register.wideWords then
    .error .verdict
  else if size = 0 then
    .error .zeroLength
  else if register.word * 4 + size > layout.words * 4 then
    .error (.overflow register.number size)
  else
    .ok ()

/-- The register that a number names, if `size` bytes of a value have their place there. -/
def resolveFor (layout : Layout) (number : UInt32) (size : Nat) :
    Except RegisterError Register := do
  let register ← layout.resolve number
  layout.validate register size
  return register

end Layout

end PacketExpr
