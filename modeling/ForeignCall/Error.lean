import ForeignCall.Signature.Abi
import ForeignCall.Value.Basic

/-!
# Errors

An error says what went wrong: descriptions that make no sense (`DescriptorError`), arguments that
do not fit a description (`ArgumentError`), and failures of the loader, whose text comes from the
platform (`Error.loader`).  Each cause has one message.
-/

namespace ForeignCall

/-! ## Kinds -/

inductive ErrorKind where
  /-- A library could not be opened. -/
  | load
  /-- A symbol was not found. -/
  | resolve
  /-- A library was not released. -/
  | release
  /-- A type, layout, convention or signature is malformed. -/
  | descriptor
  /-- An argument or a result does not fit its type. -/
  | argument
  deriving DecidableEq, Repr

def ErrorKind.describe : ErrorKind → String
  | load => "failed to load library"
  | resolve => "failed to resolve symbol"
  | release => "failed to release library"
  | descriptor => "invalid call descriptor"
  | argument => "invalid argument"

/-- The full text of an error of this kind with the given message. -/
def ErrorKind.display (kind : ErrorKind) (message : String) : String :=
  kind.describe ++ ": " ++ message

/-! ## Descriptions -/

/-- Why a description is refused. -/
inductive DescriptorError where
  | unknownType (name : String)
  | unknownAbi (name : String)
  | unsupportedAbi (abi : Abi)
  | noFields
  | voidField (index : Nat)
  | fixedCountExceeds (fixed count : Nat)
  | voidArgument (index : Nat)
  /-- A trailing argument of a variadic call has a type that is always promoted. -/
  | unpromotedArgument (index : Nat) (type : Scalar)
  | variadicCallback
  | aggregateInCallback
  deriving DecidableEq

def DescriptorError.message : DescriptorError → String
  | unknownType name => s!"unsupported primitive type '{name}'"
  | unknownAbi name => s!"unsupported ABI '{name}'"
  | unsupportedAbi abi => s!"ABI '{abi.name}' is not available on this target"
  | noFields => "an aggregate needs at least one field"
  | voidField index => s!"field {index} of an aggregate cannot be void"
  | fixedCountExceeds fixed count =>
    s!"fixed argument count ({fixed}) exceeds the number of arguments ({count})"
  | voidArgument index => s!"argument {index} cannot be void"
  | unpromotedArgument index type =>
    s!"variadic argument {index} of type {type.name} must be passed as its promoted type"
  | variadicCallback => "variadic callbacks are not supported"
  | aggregateInCallback => "callbacks cannot pass aggregates by value"

/-! ## Arguments -/

/-- Why a value, a buffer or a list of arguments is refused. -/
inductive ArgumentError where
  /-- Values of this kind never convert to the type. -/
  | mismatch (given : ValueKind) (expected : CType)
  | outOfRange (n : Int) (type : IntType)
  | aggregateLength (size given : Nat)
  | bufferLength (size given : Nat)
  | fieldOutOfRange (index count : Nat)
  | nullFunction
  | argumentCount (expected given : Nat)
  /-- The argument at the index does not convert to its type. -/
  | inArgument (index : Nat) (cause : ArgumentError)
  deriving DecidableEq

def ArgumentError.message : ArgumentError → String
  | mismatch given expected => s!"cannot pass a {given.describe} as {expected.describe}"
  | outOfRange n type => s!"{n} is out of range for {type.name}"
  | aggregateLength size given => s!"aggregate of {size} bytes given {given} bytes"
  | bufferLength size given => s!"aggregate of {size} bytes given a buffer of {given} bytes"
  | fieldOutOfRange index count =>
    s!"field {index} out of range for an aggregate of {count} fields"
  | nullFunction => "function address is null"
  | argumentCount expected given =>
    s!"function expected {expected} argument(s) but received {given}"
  | inArgument index cause => s!"argument {index}: {cause.message}"

/-! ## All errors -/

/-- The loader operations that fail with a text of the platform. -/
inductive LoaderStage where
  | load | resolve | release
  deriving DecidableEq, Repr

def LoaderStage.kind : LoaderStage → ErrorKind
  | load => .load
  | resolve => .resolve
  | release => .release

inductive Error where
  | loader (stage : LoaderStage) (text : String)
  | descriptor (cause : DescriptorError)
  | argument (cause : ArgumentError)
  deriving DecidableEq

namespace Error

def kind : Error → ErrorKind
  | loader stage _ => stage.kind
  | descriptor _ => .descriptor
  | argument _ => .argument

/-- The message, without the words for the kind. -/
def message : Error → String
  | loader _ text => text
  | descriptor cause => cause.message
  | argument cause => cause.message

def display (e : Error) : String := e.kind.display e.message

end Error

instance : Coe DescriptorError Error := ⟨.descriptor⟩

instance : Coe ArgumentError Error := ⟨.argument⟩

end ForeignCall
