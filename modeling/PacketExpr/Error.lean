import PacketExpr.Bitwise.Message
import PacketExpr.Envelope.Field
import PacketExpr.Json.Basic
import PacketExpr.Offload

/-!
# Errors of whole expressions

Handling an expression as a whole can fail in each of its parts: the configuration, the envelope,
the attributes of the expression itself, and offloading.
-/

namespace PacketExpr

/-- Why an expression cannot be made, written or offloaded. -/
inductive Error where
  | bitwise (error : BitwiseError)
  /-- The envelope is no proper stream of attributes, or attributes do not fit into a message. -/
  | stream (error : AttributeError)
  | offload (error : OffloadError)
  | json (error : JsonError)
  | invalidConfig (error : RegisterError)
  | unknownExpression (name : String)
  | missingField (field : Envelope.Field)
  | encodingFailure (error : AttributeError)
deriving DecidableEq

namespace Error

/-- The text of an error; there is none for text that is not JSON. -/
def message? : Error → Option String
  | bitwise error => some error.message
  | stream error => some error.message
  | offload error => some error.message
  | json error => error.message?
  | invalidConfig error => some ("Invalid configuration: " ++ error.message)
  | unknownExpression name => some ("Unknown expression " ++ Text.quoted name)
  | missingField field => some ("Expression attribute " ++ field.label ++ " is missing")
  | encodingFailure error => some ("Couldn't encode expression: " ++ error.message)

end Error

end PacketExpr
