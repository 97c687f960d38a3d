import PacketExpr.Config.Basic
import PacketExpr.Json.Number
import PacketExpr.Json.String

/-!
# The JSON form of a configuration

A configuration is written as a mapping of two fields.  It is read from such a mapping, in which a
field may be missing but not repeated, or from a sequence of up to two numbers; what is missing has
its default value.

The fields, their defaults and the check of the layout belong to a configuration.  Everything else
here stands for what the library serde_json does with a record of two optional 64-bit numbers that
admits no other keys, and it is assumed of the library that

* it reads a text from left to right, in one pass, and reports the first fault;
* what it accepts is the JSON grammar, with blanks between any two tokens and behind the last;
* the value of a field is an integer without fraction and exponent from 0 to 2^64 - 1, and any other
  number, any other value, a key without a field and a repeated key are faults of their own kinds;
* a sequence gives the fields in their order, from the first one on;
* it prints the two fields in their order, without blanks and in decimal digits.
-/

namespace PacketExpr

namespace Config

/-- The fields of the mapping. -/
inductive Field where
  | registerWords
  | dumpLimit
deriving DecidableEq

namespace Field

/-- The key of a field. -/
def name : Field → String
  | registerWords => "register_words"
  | dumpLimit => "dump_limit"

/-- The field with a key. -/
def ofName? (key : String) : Option Field :=
  [registerWords, dumpLimit].find? fun field => field.name == key

end Field

/-- The JSON text of a configuration, without blanks. -/
def toJson (config : Config) : String :=
  "\x7b\"register_words\":" ++ toString config.registerWords ++ ",\"dump_limit\":"
    ++ toString config.dumpLimit ++ "\x7d"

/-- The values that a text gives. -/
structure Given where
  registerWords : Option UInt64 := none
  dumpLimit : Option UInt64 := none
deriving DecidableEq

namespace Given

/-- The value of a field, if the text gives one. -/
def get? (given : Given) : Field → Option UInt64
  | .registerWords => given.registerWords
  | .dumpLimit => given.dumpLimit

/-- The values with one more. -/
def set (given : Given) (field : Field) (value : UInt64) : Given :=
  match field with
  | .registerWords => { given with registerWords := some value }
  | .dumpLimit => { given with dumpLimit := some value }

/-- Number of fields without a value. -/
def missing (given : Given) : Nat :=
  (if given.registerWords.isNone then 1 else 0) + (if given.dumpLimit.isNone then 1 else 0)

/-- Whether no field has a value. -/
def isBlank (given : Given) : Bool := given.registerWords.isNone && given.dumpLimit.isNone

/-- A value for a field that had none leaves fewer fields without a value. -/
theorem missing_set_lt {given : Given} {field : Field} (value : UInt64)
    (isNew : given.get? field = none) : (given.set field value).missing < given.missing := by
  cases field <;> simp_all [get?, set, missing]

/-- The configuration with default values for what is not given. -/
def toConfig (given : Given) : Config where
  registerWords := given.registerWords.getD ({} : Config).registerWords
  dumpLimit := given.dumpLimit.getD ({} : Config).dumpLimit

end Given

/-- What error texts call the value of a field. -/
def valueShape : String := "usize"

/-- What error texts call a configuration. -/
def configShape : String := "struct Config"

/-- Describes the value that comes next, which is not one that is looked for.  Of a sequence or a
mapping only the bracket is read. -/
def readFound : List Char → Except JsonError JsonFound
  | [] => .error .unexpectedEnd
  | 'n' :: rest => do
    let _ ← Json.readWord "ull".toList rest
    return .null
  | 't' :: rest => do
    let _ ← Json.readWord "rue".toList rest
    return .boolean true
  | 'f' :: rest => do
    let _ ← Json.readWord "alse".toList rest
    return .boolean false
  | '"' :: rest => do
    let (text, _) ← Json.readString rest
    return .string text
  | '[' :: _ => .ok .sequence
  | '\x7b' :: _ => .ok .mapping
  | c :: rest =>
    if Json.startsNumber c then do
      let (number, _) ← Json.readNumber (c :: rest)
      return number.toFound
    else
      .error .malformed

/-- Reads the value of a field. -/
def readValue (chars : List Char) : Except JsonError (UInt64 × List Char) :=
  match Json.skipBlanks chars with
  | [] => .error .unexpectedEnd
  | c :: rest =>
    if Json.startsNumber c then do
      let (number, behind) ← Json.readNumber (c :: rest)
      match number with
      | .natural value => .ok (value, behind)
      | .negative _ => .error (.wrongValue number.toFound valueShape)
      | .float .. => .error (.wrongType number.toFound valueShape)
    else do
      let found ← readFound (c :: rest)
      .error (.wrongType found valueShape)

/-- Reads up to the opening quotation mark of the next key, or up to the end of the mapping: the
first key comes at once, any other one behind a comma. -/
def readKeyStart (isFirst : Bool) (chars : List Char) :
    Except JsonError (Bool × List Char) :=
  match Json.skipBlanks chars with
  | [] => .error .unexpectedEnd
  | '\x7d' :: rest => .ok (false, rest)
  | c :: rest =>
    if isFirst then
      if c = '"' then .ok (true, rest) else .error .malformed
    else if c = ',' then
      match Json.skipBlanks rest with
      | [] => .error .unexpectedEnd
      | '"' :: behind => .ok (true, behind)
      | _ => .error .malformed
    else
      .error .malformed

/-- Reads the colon behind a key. -/
def readColon (chars : List Char) : Except JsonError (List Char) :=
  match Json.skipBlanks chars with
  | [] => .error .unexpectedEnd
  | ':' :: rest => .ok rest
  | _ => .error .malformed

/-- The field that a key names. -/
def fieldOfKey (key : String) : Except JsonError Field :=
  match Field.ofName? key with
  | some field => .ok field
  | none => .error (.unknownField key [Field.registerWords.name, Field.dumpLimit.name])

/-- Reads the rest of a mapping, some fields of which are given already.  No field is read twice, so
this ends when none is missing. -/
def readMapping (given : Given) (chars : List Char) : Except JsonError (Given × List Char) := do
  let (isKey, start) ← readKeyStart given.isBlank chars
  if isKey then
    let (key, behindKey) ← Json.readString start
    let field ← fieldOfKey key
    match _ : given.get? field with
    | some _ => .error (.duplicateField key)
    | none =>
      let (value, behindValue) ← readColon behindKey >>= readValue
      readMapping (given.set field value) behindValue
  else
    return (given, start)
termination_by given.missing
decreasing_by exact Given.missing_set_lt _ (by assumption)

/-- Reads the next value of a sequence, none at its end: the first value comes at once, any other
one behind a comma.  The closing bracket is left. -/
def readElement (isFirst : Bool) (chars : List Char) :
    Except JsonError (Option UInt64 × List Char) :=
  match Json.skipBlanks chars with
  | [] => .error .unexpectedEnd
  | ']' :: rest => .ok (none, ']' :: rest)
  | c :: rest =>
    let value (chars : List Char) : Except JsonError (Option UInt64 × List Char) := do
      let (number, behind) ← readValue chars
      return (some number, behind)
    if isFirst then
      value (c :: rest)
    else if c = ',' then
      match Json.skipBlanks rest with
      | ']' :: _ => .error .malformed
      | behind => value behind
    else
      .error .malformed

/-- Reads the end of a sequence, behind which nothing more of it may come. -/
def readSequenceEnd (chars : List Char) : Except JsonError (List Char) :=
  match Json.skipBlanks chars with
  | [] => .error .unexpectedEnd
  | ']' :: rest => .ok rest
  | _ => .error .malformed

/-- Reads a sequence, from behind its opening bracket on. -/
def readSequence (chars : List Char) : Except JsonError (Given × List Char) := do
  let (registerWords, behindFirst) ← readElement true chars
  let (dumpLimit, behindSecond) ← readElement false behindFirst
  let rest ← readSequenceEnd behindSecond
  return (⟨registerWords, dumpLimit⟩, rest)

/-- Reads the values that a text gives, with the characters behind them. -/
def readGiven (chars : List Char) : Except JsonError (Given × List Char) :=
  match Json.skipBlanks chars with
  | '[' :: rest => readSequence rest
  | '\x7b' :: rest => readMapping {} rest
  | other => do
    let found ← readFound other
    .error (.wrongType found configShape)

/-- Reads a configuration from a text that holds nothing else. -/
def readText (text : String) : Except JsonError Config := do
  let (given, rest) ← readGiven text.toList
  if (Json.skipBlanks rest).isEmpty then .ok given.toConfig else .error .malformed

/-- The configuration that a text gives, provided that its register files can be. -/
def ofJson (text : String) : Except Error Config := do
  let config ← (readText text).mapError .json
  let _ ← config.layout.mapError .invalidConfig
  return config

end Config

end PacketExpr
