import ForeignCall.Error

/-!
# Signatures

A signature describes a function: convention, result and parameters.  That of a variadic function
lists the arguments of one call, of which the first few are declared (`Arity`).

`Signature.ofTypes` checks a description: no argument is `void`, a variadic call has at least as
many arguments as are declared, and its other arguments have no type that C promotes.
-/

namespace ForeignCall

/-- The convention of a function's parameters. -/
inductive Arity where
  /-- All arguments are declared. -/
  | fixed
  /-- The first `declared` arguments are declared, and others may follow. -/
  | variadic (declared : Nat)
  deriving DecidableEq, Repr

/-- The description of a function. -/
structure Signature where
  abi : Abi
  result : CType
  args : List ObjectType
  arity : Arity
  deriving DecidableEq

/-- Whether C promotes values of the type where no parameter is declared. -/
def Scalar.isPromoted : Scalar → Bool
  | .float32 => true
  | .int .int8 | .int .uint8 | .int .int16 | .int .uint16 => true
  | _ => false

namespace Signature

/-- Whether arguments may follow the declared ones. -/
def isVariadic (sig : Signature) : Bool :=
  match sig.arity with
  | .fixed => false
  | .variadic _ => true

/-- The number of declared arguments. -/
def fixedCount (sig : Signature) : Nat :=
  match sig.arity with
  | .fixed => sig.args.length
  | .variadic declared => declared

/-- The object types of the arguments, none of which may be `void`. -/
def argumentTypes (types : List CType) : Except DescriptorError (List ObjectType) :=
  (CType.objects types).mapError .voidArgument

/-- Checks that no argument numbered from `index` on has a type that is promoted. -/
def checkPromoted (index : Nat) : List ObjectType → Except DescriptorError Unit
  | [] => .ok ()
  | .scalar s :: rest =>
    if s.isPromoted then .error (.unpromotedArgument index s) else checkPromoted (index + 1) rest
  | .aggregate .. :: rest => checkPromoted (index + 1) rest

/-- The arguments that follow the declared ones, checked. -/
def checkTrailing (arity : Arity) (args : List ObjectType) : Except DescriptorError Unit :=
  match arity with
  | .fixed => .ok ()
  | .variadic declared => checkPromoted declared (args.drop declared)

/-- Checks that as many arguments are given as are declared. -/
def checkCount (arity : Arity) (count : Nat) : Except DescriptorError Unit :=
  match arity with
  | .fixed => .ok ()
  | .variadic declared =>
    if count < declared then .error (.fixedCountExceeds declared count) else .ok ()

/-- The signature with the given parts and the convention of the platform. -/
def ofTypes (result : CType) (args : List CType) (arity : Arity) :
    Except DescriptorError Signature := do
  checkCount arity args.length
  let types ← argumentTypes args
  checkTrailing arity types
  return { abi := .default, result := result, args := types, arity := arity }

/-- The signature of a function all of whose parameters are declared. -/
def fixed (result : CType) (args : List CType) : Except DescriptorError Signature :=
  ofTypes result args .fixed

/-- The signature of one call of a variadic function with the given number of declared
parameters. -/
def variadic (result : CType) (args : List CType) (declared : Nat) :
    Except DescriptorError Signature :=
  ofTypes result args (.variadic declared)

/-- The signature with another convention, which the target has to support. -/
def withAbi (sig : Signature) (abi : Abi) : Except DescriptorError Signature :=
  if abi.isSupported then .ok { sig with abi := abi } else .error (.unsupportedAbi abi)

end Signature

end ForeignCall
