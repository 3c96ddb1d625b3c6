/-!
# Calling conventions

The conventions that a signature can name.  On this target only the convention of the platform
exists, under two names.
-/

namespace ForeignCall

inductive Abi where
  /-- The convention of the platform. -/
  | default
  /-- The System V convention, which is the platform's. -/
  | sysv
  | stdcall
  | msCdecl
  | win64
  deriving DecidableEq, Repr, Inhabited

namespace Abi

def name : Abi → String
  | default => "default"
  | sysv => "sysv"
  | stdcall => "stdcall"
  | msCdecl => "ms_cdecl"
  | win64 => "win64"

/-- Whether calls can use the convention on this target. -/
def isSupported : Abi → Bool
  | default | sysv => true
  | stdcall | msCdecl | win64 => false

/-- The convention with the given name in lower case. -/
def ofName? : String → Option Abi
  | "default" | "cdecl" => some default
  | "sysv" => some sysv
  | "stdcall" => some stdcall
  | "ms_abi" | "ms_cdecl" => some msCdecl
  | "win64" => some win64
  | _ => none

theorem ofName?_name (a : Abi) : ofName? a.name = some a := by
  cases a <;> rfl

end Abi

end ForeignCall
