import PacketExpr.Error

/-!
# Configuration

The expressions of one rule set share the size of the register files that they work on and the
number of bytes that an expression may take when it is written.
-/

namespace PacketExpr

/-- The settings of a rule set. -/
structure Config where
  /-- Size of the register files in words. -/
  registerWords : UInt64 := UInt64.ofNat Register.defaultWords
  /-- Number of bytes that the message of an expression may have. -/
  dumpLimit : UInt64 := 4096
deriving DecidableEq

namespace Config

/-- The layout that the expressions are checked against. -/
def layout (config : Config) : Except RegisterError Layout :=
  Layout.ofWords config.registerWords.toNat

/-- A register file of so many words for the expressions of the rule set, unless it is too small for
them. -/
def registers (config : Config) (capacity : Nat) : Except RegisterError RegisterFile := do
  let layout ← config.layout
  if capacity < layout.words then
    .error (.fileTooSmall layout.words capacity)
  else
    .ok (RegisterFile.blank capacity)

end Config

end PacketExpr
