import ForeignCall.Alignment
import ForeignCall.Bytes
import ForeignCall.CType.Basic
import ForeignCall.CType.Name
import ForeignCall.Call
import ForeignCall.Callback
import ForeignCall.Callback.Description
import ForeignCall.Callback.Script
import ForeignCall.Error
import ForeignCall.ErrorSlot.Basic
import ForeignCall.ErrorSlot.Operation
import ForeignCall.ErrorSlot.SystemMessage
import ForeignCall.Layout.Access
import ForeignCall.Layout.Basic
import ForeignCall.Layout.Leaves
import ForeignCall.Loader.Installation
import ForeignCall.Loader.Library
import ForeignCall.Loader.Platform
import ForeignCall.Loader.Session
import ForeignCall.Native.FormattedText
import ForeignCall.Native.Function
import ForeignCall.Native.Memory
import ForeignCall.Native.ProbeType
import ForeignCall.Native.World
import ForeignCall.NativeType.Basic
import ForeignCall.NativeType.Chunk
import ForeignCall.NativeType.Lowering
import ForeignCall.Number.FixedPoint
import ForeignCall.Number.FloatArithmetic
import ForeignCall.Number.FloatFormat
import ForeignCall.Scalar
import ForeignCall.Signature.Abi
import ForeignCall.Signature.Basic
import ForeignCall.Signature.Interface
import ForeignCall.Text.Blank
import ForeignCall.Text.Utf16
import ForeignCall.Text.Utf8
import ForeignCall.Value.Basic
import ForeignCall.Value.Coercion
import ForeignCall.Value.Encoding
import ForeignCall.Value.ReturnSlot
import ForeignCall.Proofs.Alignment
import ForeignCall.Proofs.Layout.Placement
import ForeignCall.Proofs.Layout.Leaves
import ForeignCall.Proofs.NativeType.UnionMembers
import ForeignCall.Proofs.NativeType.Placement
import ForeignCall.Proofs.NativeType.RegisterClass
import ForeignCall.Proofs.NativeType.Chunks
import ForeignCall.Proofs.Bytes
import ForeignCall.Proofs.Integer
import ForeignCall.Proofs.Value.RoundTrip
import ForeignCall.Proofs.Value.ResultSlot
import ForeignCall.Proofs.Value.Coercion
import ForeignCall.Proofs.Call.Marshalling
import ForeignCall.Proofs.Call.Outcome
import ForeignCall.Proofs.Call.Callback
import ForeignCall.Proofs.Layout.Construction
import ForeignCall.Proofs.Layout.Bounds
import ForeignCall.Proofs.Layout.FieldWrites
import ForeignCall.Proofs.Layout.FieldCopy
import ForeignCall.Proofs.Layout.Paths
import ForeignCall.Proofs.ErrorSlot.Pieces
import ForeignCall.Proofs.ErrorSlot.Reading
import ForeignCall.Proofs.Loader.Operation
import ForeignCall.Proofs.Loader.LatestOperation
import ForeignCall.Proofs.Loader.References
import ForeignCall.Proofs.Loader.Ownership
import ForeignCall.Proofs.ErrorSlot.History
import ForeignCall.Proofs.Text.Utf16
import ForeignCall.Proofs.ErrorSlot.Appending
import ForeignCall.Proofs.ErrorSlot.SystemMessage
import ForeignCall.Proofs.Signature.Accepted
import ForeignCall.Proofs.Signature.Checks
import ForeignCall.Proofs.Text.Utf8Lossy
import ForeignCall.Proofs.ErrorSlot.Extent
import ForeignCall.Proofs.Loader.SlotHistory
