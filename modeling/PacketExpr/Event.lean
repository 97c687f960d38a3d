import PacketExpr.Error
import PacketExpr.Record

/-!
# Events

What is done with an expression leaves a trace in a log.  An operation that is logged gives its
outcome together with the events that it emits, in order; the writing of the log is left to the
program that calls it.
-/

namespace PacketExpr

/-- Something that is worth a line in a log. -/
inductive Event where
  | unknownExpression (name : String)
  | rejected (error : BitwiseError)
  | built
  | notOffloaded (error : OffloadError)
  | recorded (record : Record)
deriving DecidableEq

namespace Event

inductive Level where
  | debug
  | info
  | warning
deriving DecidableEq

def level : Event → Level
  | unknownExpression _ | rejected _ => .warning
  | built | notOffloaded _ => .debug
  | recorded _ => .info

/-- The line of an event that happens at the given time. -/
def message (event : Event) (timestamp : String) : String :=
  match event with
  | unknownExpression name => "Unknown expression " ++ Text.quoted name
  | rejected error => "Rejected " ++ Bitwise.name ++ " expression: " ++ error.message
  | built => "Built " ++ Bitwise.name ++ " expression"
  | notOffloaded error => "Can't offload " ++ Bitwise.name ++ " expression: " ++ error.message
  | recorded record => record.render timestamp

end Event

/-- An outcome with the events that it was logged by. -/
structure Logged (α : Type) where
  outcome : Except Error α
  events : List Event

namespace Bitwise

/-- Offloads the expression, logging a refusal. -/
def offloadLogged (expression : Bitwise) (context : OffloadContext) :
    Logged (MaskEntry × OffloadContext) :=
  match expression.offload context with
  | .ok entry => ⟨.ok entry, []⟩
  | .error error => ⟨.error (.offload error), [.notOffloaded error]⟩

end Bitwise

end PacketExpr
