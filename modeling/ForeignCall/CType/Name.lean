import ForeignCall.Error
import ForeignCall.Text.Blank

/-!
# Names of types and conventions

Types are named as in C, and each has a canonical name besides.  Names are read without regard to
blanks around them and to case.  `long` has the width of a register, and `bool` is an unsigned
byte.
-/

namespace ForeignCall

/-- The primitive type with the given name in lower case. -/
def CType.ofName? : String → Option CType
  | "void" => some .void
  | "int8" | "sint8" | "signed char" => some (.scalar (.int .int8))
  | "uint8" | "unsigned char" | "bool" => some (.scalar (.int .uint8))
  | "int16" | "sint16" | "short" => some (.scalar (.int .int16))
  | "uint16" | "unsigned short" => some (.scalar (.int .uint16))
  | "int32" | "sint32" | "int" => some (.scalar (.int .int32))
  | "uint32" | "unsigned int" | "unsigned" => some (.scalar (.int .uint32))
  | "int64" | "sint64" | "long long" | "long" => some (.scalar (.int .int64))
  | "uint64" | "unsigned long long" | "unsigned long" => some (.scalar (.int .uint64))
  | "intptr" | "intptr_t" | "ssize_t" | "ptrdiff_t" => some (.scalar (.int .intptr))
  | "uintptr" | "uintptr_t" | "size_t" => some (.scalar (.int .uintptr))
  | "float" => some (.scalar .float32)
  | "double" => some (.scalar .float64)
  | "pointer" | "void*" | "void *" => some (.scalar .pointer)
  | _ => none

/-- Reads the name of a primitive type. -/
def CType.parse (s : String) : Except DescriptorError CType :=
  match CType.ofName? (foldName s) with
  | some t => .ok t
  | none => .error (.unknownType (foldName s))

/-- Reads the name of a calling convention. -/
def Abi.parse (s : String) : Except DescriptorError Abi :=
  match Abi.ofName? (foldName s) with
  | some a => .ok a
  | none => .error (.unknownAbi (foldName s))

theorem CType.ofName?_name (t : CType) {n : String} (h : t.name? = some n) :
    CType.ofName? n = some t := by
  match t with
  | .void => cases h; rfl
  | .object (.scalar (.int i)) => cases h; cases i <;> rfl
  | .object (.scalar .float32) => cases h; rfl
  | .object (.scalar .float64) => cases h; rfl
  | .object (.scalar .pointer) => cases h; rfl

end ForeignCall
