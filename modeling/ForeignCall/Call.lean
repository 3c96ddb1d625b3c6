import ForeignCall.Signature.Interface
import ForeignCall.Value.Coercion
import ForeignCall.Value.ReturnSlot

/-!
# Calls

A native function takes the memory of its arguments and gives the bytes of its result; a machine
enters the function at an address (`Machine`).  `Signature.call` converts the arguments, stores
each into a slot of its own, enters the function and reads its result.  Nothing is entered unless
the address is not null, the number of arguments is right and every argument converts.

Slots are whole words, and at least one.  A slot starts as zeros, so what follows a value in its
slot is zero.
-/

namespace ForeignCall

/-- A native function over a world `σ`: the slots of its arguments to the bytes of its result. -/
abbrev NativeFunction (σ : Type) := List Bytes → σ → Bytes × σ

/-- What enters native functions by their addresses. -/
structure Machine (σ : Type) where
  enter : Address → NativeFunction σ

/-- A slot for a value of `size` bytes: zeros, in whole words and at least one. -/
def emptySlot (size : Nat) : Bytes :=
  Bytes.zeros (wordSize * max 1 ((size + (wordSize - 1)) / wordSize))

/-- The slot of an argument of type `t`. -/
def argumentSlot (t : ObjectType) (v : Value) : Bytes := v.store (emptySlot t.size)

/-- The slot of a result of type `t` before the call. -/
def emptyResultSlot (t : CType) : Bytes := emptySlot (max t.size wordSize)

/-- The result slot after a function gave `result`: a narrow integer is widened to a register, and
of any other result the bytes of its type are kept. -/
def returnResult (t : CType) (result slot : Bytes) : Bytes :=
  (Value.load t result).storeResult t slot

namespace Signature

/-- The slots of the arguments numbered from `index` on, or the first that does not convert. -/
def argumentSlots (index : Nat) : List ObjectType → List Value →
    Except ArgumentError (List Bytes)
  | t :: ts, v :: vs =>
    match v.coerceObject t with
    | .error e => .error (.inArgument index e)
    | .ok w =>
      match argumentSlots (index + 1) ts vs with
      | .ok slots => .ok (argumentSlot t w :: slots)
      | .error e => .error e
  | _, _ => .ok []

/-- The slots of the arguments of a call at the address, if the call can be made. -/
def prepare (sig : Signature) (code : Address) (values : List Value) :
    Except Error (List Bytes) :=
  if code = Address.null then .error (ArgumentError.nullFunction)
  else if values.length ≠ sig.args.length then
    .error (ArgumentError.argumentCount sig.args.length values.length)
  else
    match argumentSlots 0 sig.args values with
    | .error e => .error e
    | .ok slots =>
      match sig.interface with
      | .error e => .error e
      | .ok _ => .ok slots

/-- Calls the function at the address with the values, converted to the types of the
parameters. -/
def call {σ : Type} (sig : Signature) (machine : Machine σ) (code : Address)
    (values : List Value) (world : σ) : Except Error Value × σ :=
  match sig.prepare code values with
  | .error e => (.error e, world)
  | .ok slots =>
    let (result, world) := machine.enter code slots world
    let slot := returnResult sig.result result (emptyResultSlot sig.result)
    (.ok (Value.loadResult sig.result slot), world)

end Signature

end ForeignCall
