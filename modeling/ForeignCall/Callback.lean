import ForeignCall.Call

/-!
# Callbacks

A callback is a handler that native code enters like a function.  The arguments arrive as values of
the declared types, and what the handler answers is converted to the declared result.  A handler
that fails, or whose answer does not convert, makes the native caller see zero.
-/

namespace ForeignCall

/-- Code that answers a list of values, or fails, and may change a state `σ`. -/
abbrev Handler (σ : Type) := List Value → σ → Option Value × σ

/-- A handler with the signature under which native code enters it. -/
structure Callback (σ : Type) where
  signature : Signature
  handler : Handler σ

namespace Callback

/-- A callback with the signature, which must not be variadic and must not pass aggregates. -/
def ofHandler {σ : Type} (sig : Signature) (handler : Handler σ) :
    Except DescriptorError (Callback σ) :=
  if sig.isVariadic then .error .variadicCallback
  else if sig.result.isAggregate || sig.args.any (fun t => (CType.object t).isAggregate) then
    .error .aggregateInCallback
  else
    match sig.interface with
    | .error e => .error e
    | .ok _ => .ok ⟨sig, handler⟩

/-- The values that arrive in the slots of the arguments. -/
def arguments (sig : Signature) (slots : List Bytes) : List Value :=
  List.zipWith (fun t slot => Value.load (.object t) (slot.take t.size)) sig.args slots

/-- The result slot after the handler gave its answer: zeros unless the answer converts. -/
def resultSlot (t : CType) (answer : Option Value) : Bytes :=
  let empty := Bytes.zeros (max t.size wordSize)
  match answer with
  | none => empty
  | some v =>
    match v.coerce t with
    | .ok w => w.storeResult t empty
    | .error _ => empty

/-- The callback as a native function: runs the handler once on the arguments. -/
def enter {σ : Type} (cb : Callback σ) : NativeFunction σ := fun slots state =>
  let (answer, state) := cb.handler (arguments cb.signature slots) state
  (resultSlot cb.signature.result answer, state)

/-- The machine in which every address is the entry of the callback. -/
def machine {σ : Type} (cb : Callback σ) : Machine σ := ⟨fun _ => cb.enter⟩

end Callback

/-- An address as a function pointer type of the given size, which must be that of an address. -/
def Address.asFunction? (size : Nat) (a : Address) : Option Address :=
  if size = wordSize then some a else none

end ForeignCall
