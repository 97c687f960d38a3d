import PacketExpr.Attribute.Table

/-!
# Fields of an envelope

An expression travels in an envelope of two attributes: the name of the kind of expression, and the
attributes that this kind of expression has.
-/

namespace PacketExpr

namespace Envelope

/-- The attributes of an envelope. -/
inductive Field where
  | name
  | data
deriving DecidableEq

namespace Field

def kind : Field → Nat
  | name => 1
  | data => 2

def type (field : Field) : UInt16 := UInt16.ofNat field.kind

/-- What error texts call a field. -/
def label : Field → String
  | name => "Name"
  | data => "Data"

end Field

/-- Largest number of bytes in a name. -/
def maxNameSize : Nat := 15

/-- The attributes that an envelope may have. -/
def schema : Schema := #[.unspecified, .text maxNameSize, .nested]

end Envelope

end PacketExpr
