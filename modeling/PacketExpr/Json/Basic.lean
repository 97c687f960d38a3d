import PacketExpr.Decimal.Shortest
import PacketExpr.Text.Quoted

/-!
# Reading JSON text

Pieces of JSON text are read off the front of a list of characters.  Text is read from left to right
and the first fault counts; `JsonError` lists the faults, of which the last four are about text that
is proper JSON but not what is looked for.

The readers of JSON text stand for those of the library serde_json.  That it tells the faults apart
in this way, and describes what it has found in these words, is assumed of it.
-/

namespace PacketExpr

/-- A value as far as an error text describes it. -/
inductive JsonFound where
  | null
  | boolean (value : Bool)
  | integer (value : Int)
  | float (negative : Bool) (magnitude : Binary64)
  | string (text : String)
  | sequence
  | mapping
deriving DecidableEq

/-- Why a text cannot be read. -/
inductive JsonError where
  /-- The text is not JSON. -/
  | malformed
  /-- The text ends too early. -/
  | unexpectedEnd
  /-- There is a value of another type than `expected`. -/
  | wrongType (found : JsonFound) (expected : String)
  /-- There is a value of the right type that is not allowed for `expected`. -/
  | wrongValue (found : JsonFound) (expected : String)
  /-- A mapping has a key that is none of `expected`. -/
  | unknownField (name : String) (expected : List String)
  /-- A mapping has a key twice. -/
  | duplicateField (name : String)
deriving DecidableEq

namespace JsonFound

/-- Floating-point numbers are positional from 0.00001 to below ten to the power 16. -/
def floatStyle : DecimalStyle := ⟨-5, 15⟩

/-- The text of a floating-point number. -/
def floatText (negative : Bool) (magnitude : Binary64) : String :=
  String.ofList ((if negative then ['-'] else []) ++ floatStyle.render (Decimal.shortest magnitude))

/-- How an error text calls a value. -/
def description : JsonFound → String
  | null => "null"
  | boolean value => "boolean `" ++ toString value ++ "`"
  | integer value => "integer `" ++ toString value ++ "`"
  | float negative magnitude => "floating point `" ++ floatText negative magnitude ++ "`"
  | string text => "string " ++ Text.quoted text
  | sequence => "sequence"
  | mapping => "map"

end JsonFound

namespace JsonError

/-- The text of an error; text that is not JSON gets none. -/
def message? : JsonError → Option String
  | malformed | unexpectedEnd => none
  | wrongType found expected =>
    some ("invalid type: " ++ found.description ++ ", expected " ++ expected)
  | wrongValue found expected =>
    some ("invalid value: " ++ found.description ++ ", expected " ++ expected)
  | unknownField name expected =>
    some ("unknown field `" ++ name ++ "`, expected "
      ++ String.intercalate " or " (expected.map fun field => "`" ++ field ++ "`"))
  | duplicateField name => some ("duplicate field `" ++ name ++ "`")

end JsonError

namespace Json

/-- The four characters that may stand between the parts of a text. -/
def isBlank (c : Char) : Bool := c == ' ' || c == '\t' || c == '\n' || c == '\r'

/-- The characters from the next one on that is not blank. -/
def skipBlanks (chars : List Char) : List Char := chars.dropWhile isBlank

/-- The characters behind a fixed word. -/
def readWord : (word chars : List Char) → Except JsonError (List Char)
  | [], chars => .ok chars
  | _ :: _, [] => .error .unexpectedEnd
  | expected :: word, c :: chars =>
    if c = expected then readWord word chars else .error .malformed

end Json

end PacketExpr
