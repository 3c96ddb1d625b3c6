import ForeignCall.NativeType.Lowering
import ForeignCall.Signature.Basic

/-!
# Call interfaces

A call interface is what a signature comes down to before a call: a convention that the target
supports and the types of the result and the arguments as the machine sees them.
-/

namespace ForeignCall

/-- A prepared description of a function; a result of nothing is `void`. -/
structure CallInterface where
  abi : Abi
  result : Option NativeType
  args : List NativeType
  arity : Arity

/-- Prepares the call interface of the signature. -/
def Signature.interface (sig : Signature) : Except DescriptorError CallInterface :=
  if sig.abi.isSupported then
    .ok {
      abi := sig.abi
      result := sig.result.lower
      args := sig.args.map ObjectType.lower
      arity := sig.arity }
  else .error (.unsupportedAbi sig.abi)

end ForeignCall
