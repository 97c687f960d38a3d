import PacketExpr.Bitwise.Basic

/-!
# Offloading

Hardware that matches packet fields can do the work of some expressions: it can mask a field before
it is compared.  The compiler of hardware rules keeps for each register the size of the field that
was loaded into it and the mask that applies to that field, and `Bitwise.offload` adds an expression
to what it knows.  That succeeds for boolean expressions that mask a register in place with an
immediate and flip no bits, provided that they work on the whole field.  An expression that is
refused leaves no trace.
-/

namespace PacketExpr

/-- Why hardware cannot run an expression. -/
inductive OffloadError where
  | shift
  | registersDiffer
  | nonzeroXor
  | maskInRegister
  | lengthDiffers
deriving DecidableEq

namespace OffloadError

def reason : OffloadError → String
  | shift => "shift"
  | registersDiffer => "source and destination differ"
  | nonzeroXor => "non zero xor"
  | maskInRegister => "mask in register"
  | lengthDiffers => "length differs from loaded field"

def message (error : OffloadError) : String := "Offload not supported: " ++ error.reason

end OffloadError

structure OffloadEntry where
  length : Option Nat
  mask : Option Bytes
deriving DecidableEq

/-- What is known of the registers of one hardware rule. -/
structure OffloadContext where
  entry? : Register → Option OffloadEntry

namespace OffloadContext

def empty : OffloadContext := ⟨fun _ => none⟩

/-- The context with the entry of one register replaced. -/
def set (context : OffloadContext) (register : Register) (entry : OffloadEntry) :
    OffloadContext :=
  ⟨fun other => if other = register then some entry else context.entry? other⟩

/-- The size of the field in a register, if it is known. -/
def length? (context : OffloadContext) (register : Register) : Option Nat :=
  (context.entry? register).bind OffloadEntry.length

/-- The mask of the field in a register, if there is one. -/
def mask? (context : OffloadContext) (register : Register) : Option Bytes :=
  (context.entry? register).bind OffloadEntry.mask

/-- Records that a field of `length` bytes was loaded into a register. -/
def setLength (context : OffloadContext) (register : Register) (length : Nat) : OffloadContext :=
  context.set register ⟨some length, context.mask? register⟩

end OffloadContext

/-- The mask that an offloaded expression puts on a field. -/
structure MaskEntry where
  register : Register
  mask : Bytes
  length : Nat
deriving DecidableEq

namespace Bitwise

/-- The mask by which hardware can do the work of the expression. -/
def offloadMask (expression : Bitwise) : Except OffloadError Bytes :=
  match expression.transform with
  | .shiftLeft _ | .shiftRight _ => .error .shift
  | .boolean mask xor =>
    if expression.source ≠ expression.destination then
      .error .registersDiffer
    else
      match xor with
      | .register _ => .error .nonzeroXor
      | .immediate flipped =>
        if flipped.isZero then
          match mask with
          | .register _ => .error .maskInRegister
          | .immediate kept => .ok kept.bytes
        else
          .error .nonzeroXor

/-- Adds the expression to what is known of its register. -/
def offload (expression : Bitwise) (context : OffloadContext) :
    Except OffloadError (MaskEntry × OffloadContext) := do
  let mask ← expression.offloadMask
  let register := expression.destination
  if (context.length? register).any (· ≠ expression.length) then
    .error .lengthDiffers
  else
    .ok (⟨register, mask, expression.length⟩,
      context.set register ⟨some expression.length, some mask⟩)

end Bitwise

end PacketExpr
