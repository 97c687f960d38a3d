import PacketExpr.Bitwise.Eval
import PacketExpr.Config.Json
import PacketExpr.Draft
import PacketExpr.Proofs.Bitwise.Guarded
import PacketExpr.Proofs.Bytes.Number
import PacketExpr.Proofs.Bitwise.Safety
import PacketExpr.Proofs.Bitwise.Carry
import PacketExpr.Proofs.Bitwise.Shift
import PacketExpr.Proofs.Attribute.Contents
import PacketExpr.Proofs.Bytes.Packing
import PacketExpr.Proofs.Attribute.Emission
import PacketExpr.Proofs.Attribute.Session
import PacketExpr.Proofs.Immediate
import PacketExpr.Proofs.Bitwise.Encoding
import PacketExpr.Proofs.Bitwise.RoundTrip
import PacketExpr.Proofs.Bitwise.Boolean
import PacketExpr.Proofs.Attribute.Format
import PacketExpr.Proofs.Bitwise.Span
import PacketExpr.Proofs.Attribute.Forest
import PacketExpr.Proofs.Bitwise.Acceptance
import PacketExpr.Proofs.Bitwise.Padding
import PacketExpr.Proofs.Envelope.RoundTrip
import PacketExpr.Proofs.Offload.Eligible
import PacketExpr.Proofs.Offload.Rule
import PacketExpr.Proofs.Offload.History
import PacketExpr.Proofs.Offload.MaskSize
import PacketExpr.Proofs.Bitwise.Locality
import PacketExpr.Proofs.Bitwise.Chain
import PacketExpr.Proofs.Register.Access
import PacketExpr.Proofs.Bytes.Bits
import PacketExpr.Proofs.Network
import PacketExpr.Proofs.Draft.Encoding
import PacketExpr.Proofs.Draft.Spelling
import PacketExpr.Proofs.Draft.Envelope
import PacketExpr.Proofs.Draft.Network
import PacketExpr.Proofs.Attribute.Level
import PacketExpr.Proofs.Immediate.Decoding
import PacketExpr.Proofs.Violation
import PacketExpr.Proofs.Bitwise.Rejection
import PacketExpr.Proofs.Bitwise.Rearrangement
import PacketExpr.Proofs.Draft.Fields
import PacketExpr.Proofs.Bitwise.Feedback
import PacketExpr.Proofs.Bitwise.Idempotence
import PacketExpr.Proofs.Envelope.Rejection
import PacketExpr.Proofs.Attribute.Calls
import PacketExpr.Proofs.Register.Storage
import PacketExpr.Proofs.Immediate.Packing
import PacketExpr.Proofs.Record.Expression
import PacketExpr.Proofs.Json.Number
import PacketExpr.Proofs.Json.String
import PacketExpr.Proofs.Json.Token
import PacketExpr.Proofs.Config.Json
