import ForeignCall.Callback

/-!
# Descriptions of callbacks

The text that describes a callback for a person who looks for a fault: its entry point and its
signature.
-/

namespace ForeignCall

/-- The convention in a description. -/
def Abi.describe : Abi → String
  | .default => "Default"
  | .sysv => "SysV"
  | .stdcall => "Stdcall"
  | .msCdecl => "MsCdecl"
  | .win64 => "Win64"

/-- The integer type in a description. -/
def IntType.describe : IntType → String
  | .int8 => "Int8"
  | .uint8 => "UInt8"
  | .int16 => "Int16"
  | .uint16 => "UInt16"
  | .int32 => "Int32"
  | .uint32 => "UInt32"
  | .int64 => "Int64"
  | .uint64 => "UInt64"
  | .intptr => "IntPtr"
  | .uintptr => "UIntPtr"

/-- The scalar type in a description. -/
def Scalar.describe : Scalar → String
  | .int t => t.describe
  | .float32 => "Float32"
  | .float64 => "Float64"
  | .pointer => "Pointer"

/-- The type of a result or an argument in a description; callbacks pass no aggregates. -/
def CType.primitiveText : CType → String
  | .void => "Primitive(Void)"
  | .object (.scalar s) => "Primitive(" ++ s.describe ++ ")"
  | .object (.aggregate .struct _) => "Struct"
  | .object (.aggregate .union _) => "Union"

/-- A group of named parts in a description. -/
def describeParts (name : String) (parts : List (String × String)) : String :=
  name ++ " \x7b " ++ ", ".intercalate (parts.map fun part => part.1 ++ ": " ++ part.2) ++ " \x7d"

/-- The description of the signature. -/
def Signature.describe (sig : Signature) : String :=
  let args := sig.args.map fun t => (CType.object t).primitiveText
  describeParts "Signature" [
    ("abi", sig.abi.describe),
    ("result", sig.result.primitiveText),
    ("args", "[" ++ ", ".intercalate args ++ "]"),
    ("variadic", if sig.isVariadic then "true" else "false"),
    ("fixed_count", toString sig.fixedCount)]

/-- The description of the callback, whose entry point is written as `code`. -/
def Callback.describe {σ : Type} (cb : Callback σ) (code : String) : String :=
  describeParts "Callback" [("code", code), ("signature", cb.signature.describe)]

end ForeignCall
