import ForeignCall.Callback.Script
import ForeignCall.Native.Memory

/-!
# The world of native code

What native functions can read and change: memory, a note that one of them takes, and the callbacks
that were made, each at an address of its own.
-/

namespace ForeignCall

/-- What native functions can read and change. -/
structure NativeWorld where
  memory : Memory
  /-- The last number that was noted. -/
  noted : Int
  callbacks : List (Callback Script.Memory × Script.Memory)

namespace NativeWorld

/-- The address of the callback at the index. -/
def callbackAddress (index : Nat) : Address := BitVec.ofNat 64 (0x7f0000000000 + 16 * index)

/-- A world without callbacks. -/
def start (memory : Memory) : NativeWorld := ⟨memory, 0, []⟩

/-- The world with one more callback, and its address. -/
def install (w : NativeWorld) (cb : Callback Script.Memory) : Address × NativeWorld :=
  (callbackAddress w.callbacks.length,
    { w with callbacks := w.callbacks ++ [(cb, Script.Memory.start)] })

/-- The world with one more region of memory, and its address. -/
def allocate (w : NativeWorld) (bytes : Bytes) : Address × NativeWorld :=
  let (address, memory) := w.memory.allocate bytes
  (address, { w with memory := memory })

/-- Enters the callback at the index; there is no result if there is none. -/
def enterCallback (index : Nat) : NativeFunction NativeWorld := fun slots w =>
  match w.callbacks[index]? with
  | some (cb, memory) =>
    let (result, memory) := cb.enter slots memory
    (result, { w with callbacks := w.callbacks.set index (cb, memory) })
  | none => ([], w)

/-- The machine that enters callbacks by their addresses. -/
def callbackMachine : Machine NativeWorld where
  enter code slots w :=
    match (List.range w.callbacks.length).find? (fun i => callbackAddress i == code) with
    | some index => enterCallback index slots w
    | none => ([], w)

end NativeWorld

end ForeignCall
