import PacketExpr.Text.Hex
import PacketExpr.Text.Shapeless

/-!
# Quoted text

A message that names a piece of text which comes from outside puts it between double quotes.
Quotation marks and backslashes in it get a backslash, the usual control characters are written as
a backslash and a letter, and every other character without a shape of its own is written by its
code point.  All other characters stand for themselves, the apostrophe among them.
-/

namespace PacketExpr

namespace Text

/-- The hexadecimal digits of a number, without leading zeros. -/
def hexDigits (number : Nat) : List Char := Nat.toDigits 16 number

/-- What is written for a character between the quotes. -/
def quoteChar (c : Char) : List Char :=
  match c with
  | '\x00' => ['\\', '0']
  | '\t' => ['\\', 't']
  | '\n' => ['\\', 'n']
  | '\r' => ['\\', 'r']
  | '"' => ['\\', '"']
  | '\\' => ['\\', '\\']
  | _ =>
    if isShapeless c then
      ['\\', 'u', '\x7b'] ++ hexDigits c.toNat ++ ['\x7d']
    else
      [c]

/-- The text between quotes. -/
def quoted (text : String) : String :=
  String.ofList (['"'] ++ text.toList.flatMap quoteChar ++ ['"'])

end Text

end PacketExpr
