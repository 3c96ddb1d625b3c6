import ForeignCall.Native.FormattedText
import ForeignCall.Native.World
import ForeignCall.Number.FloatArithmetic
import ForeignCall.Text.Utf8

/-!
# Native functions

The functions that calls are tried on, as tables of names: those of a probe library, one for each
shape of call, some of the C library, and sample functions.  A function reads its arguments from
their slots and may enter callbacks.
-/

namespace ForeignCall.Native

/-- A function that may enter others by their addresses. -/
abbrev Body := Machine NativeWorld → NativeFunction NativeWorld

/-! ## Arguments and results -/

/-- The slot of the argument at the index. -/
def slotAt (slots : List Bytes) (index : Nat) : Bytes := slots[index]?.getD []

/-- The argument at the index as a value of the scalar type. -/
def argument (slots : List Bytes) (index : Nat) (s : Scalar) : Value :=
  Value.loadScalar s (slotAt slots index)

/-- The argument at the index as an integer of the type. -/
def integer (slots : List Bytes) (index : Nat) (t : IntType) : Int :=
  ((argument slots index (.int t)).asInteger).getD 0

/-- The argument at the index as a number of the scalar type. -/
def number (slots : List Bytes) (index : Nat) (s : Scalar) : Double :=
  ((argument slots index s).asDouble).getD .zero

/-- The argument at the index as an address. -/
def address (slots : List Bytes) (index : Nat) : Address :=
  ((argument slots index .pointer).asAddress).getD .null

/-- The bytes of an integer result, wrapped to its type. -/
def integerResult (t : IntType) (n : Int) : Bytes := (Value.ofInt t n).encode

/-- A function that gives the bytes it computes from its slots. -/
def pureBody (f : List Bytes → Bytes) : Body := fun _ slots w => (f slots, w)

/-- A function that returns its only argument, of `size` bytes. -/
def echo (size : Nat) : Body := pureBody fun slots => (slotAt slots 0).take size

/-! ## Formatted output -/

/-- Writes a formatted text into a buffer of `room` bytes, cut to leave a zero byte behind it, and
gives the length of the whole text. -/
def printInto (buffer : Address) (room : Nat) (format : Address) (slots : List Bytes)
    (w : NativeWorld) : Int × NativeWorld :=
  let text := formatText w.memory none (w.memory.readCString format) slots
  let memory :=
    if room = 0 then w.memory else w.memory.write buffer (text.take (room - 1) ++ [0])
  (text.length, { w with memory := memory })

/-! ## The probe library -/

/-- The text that the probe library greets with. -/
def greeting : Bytes := Utf8.encode "Hello from the probe bridge" ++ [0]

/-- Memory with the static text of the probe library, and its address. -/
def staticMemory : Address × Memory := Memory.empty.allocate greeting

/-- The functions that the probe library exports. -/
def probeFunctions : List (String × Body) := [
  ("probe_add_ints", pureBody fun slots =>
    integerResult .int32 (integer slots 0 .int32 + integer slots 1 .int32)),
  ("probe_variadic_sum", pureBody fun slots =>
    let count := (integer slots 0 .int32).toNat
    integerResult .int32
      ((List.range count).foldl (fun sum i => sum + integer slots (i + 1) .int32) 0)),
  ("probe_variadic_format", fun _ slots w =>
    let room := (integer slots 1 .uintptr).toNat
    if address slots 0 = .null || room = 0 then (integerResult .int32 (-1), w)
    else
      let (length, w) := printInto (address slots 0) room (address slots 2) (slots.drop 3) w
      (integerResult .int32 length, w)),
  ("probe_call_callback", fun machine slots w =>
    if address slots 0 = .null then (integerResult .int32 (-1), w)
    else
      let slot := argumentSlot (.scalar (.int .int32)) (argument slots 1 (.int .int32))
      let (result, w) := machine.enter (address slots 0) [slot] w
      (result.take 4, w)),
  ("probe_pair_id", pureBody fun slots => (slotAt slots 0).take 4),
  ("probe_pair_weight", pureBody fun slots => Bytes.slice (slotAt slots 0) 8 8),
  ("probe_pair_total", pureBody fun slots =>
    let weight := number [Bytes.slice (slotAt slots 0) 8 8] 0 .float64
    (Value.float64 ((Double.ofInt (integer slots 0 .int32)).add weight)).encode),
  ("probe_ref_read", fun _ slots w =>
    let ref := w.memory.read (address slots 0) 16
    let value := address [Bytes.slice ref 8 8] 0
    if address slots 0 = .null || value = .null then (integerResult .int32 (-1), w)
    else if integer [ref] 0 .int32 = 0 then (integerResult .int32 0, w)
    else (w.memory.read value 4, w)),
  ("probe_word_bits", echo 8),
  ("probe_word_is", pureBody fun slots =>
    integerResult .int32 (if address slots 0 = address slots 1 then 1 else 0)),
  ("probe_greeting", pureBody fun _ => (Value.pointer staticMemory.1).encode)]

/-! ## The C library -/

/-- The integer at the start of a text, after blanks and a sign. -/
def leadingInteger (text : Bytes) : Int :=
  let chars := text.map fun b => Char.ofNat b.toNat
  let rest := chars.dropWhile fun c => c == ' ' || ('\t' ≤ c && c ≤ '\r')
  let digits (cs : List Char) : Int :=
    ((cs.takeWhile Char.isDigit).foldl (fun n c => 10 * n + (c.toNat - '0'.toNat)) 0 : Nat)
  match rest with
  | '-' :: cs => -digits cs
  | '+' :: cs => digits cs
  | cs => digits cs

/-- The functions of the C library that are known. -/
def cFunctions : List (String × Body) := [
  ("abs", pureBody fun slots => integerResult .int32 (integer slots 0 .int32).natAbs),
  ("atoi", fun _ slots w =>
    let n := leadingInteger (w.memory.readCString (address slots 0))
    (integerResult .int32 (max IntType.int64.least (min n IntType.int64.greatest)), w)),
  ("labs", pureBody fun slots => integerResult .int64 (integer slots 0 .int64).natAbs),
  ("strlen", fun _ slots w =>
    (integerResult .uintptr (w.memory.readCString (address slots 0)).length, w)),
  ("malloc", fun _ slots w =>
    let (a, w) := w.allocate (Bytes.zeros (integer slots 0 .uintptr).toNat)
    ((Value.pointer a).encode, w)),
  ("free", fun _ _ w => ([], w)),
  ("snprintf", fun _ slots w =>
    let room := (integer slots 1 .uintptr).toNat
    let (length, w) := printInto (address slots 0) room (address slots 2) (slots.drop 3) w
    (integerResult .int32 length, w))]

/-! ## Sample functions -/

/-- The sum of the argument types' numbers with the weights 1, 2, 3 and so on, each product first
and then from left to right. -/
def weightedSum (types : List Scalar) (slots : List Bytes) : Double :=
  let products := types.mapIdx fun i s => (Double.ofInt (i + 1)).mul (number slots i s)
  match products with
  | [] => .zero
  | first :: others => others.foldl Double.add first

/-- The sample functions: echoes of every size, and functions of mixed arguments. -/
def sampleFunctions : List (String × Body) := [
  ("echo_i8", echo 1), ("echo_u8", echo 1), ("echo_i16", echo 2), ("echo_u16", echo 2),
  ("echo_i32", echo 4), ("echo_u32", echo 4), ("echo_i64", echo 8), ("echo_u64", echo 8),
  ("echo_isize", echo 8), ("echo_usize", echo 8), ("echo_f32", echo 4), ("echo_f64", echo 8),
  ("echo_pointer", echo 8), ("echo_bytes3", echo 3), ("echo_floats2", echo 8),
  ("echo_floats3", echo 12), ("echo_long_double2", echo 16), ("echo_longs3", echo 24),
  ("echo_nested", echo 24), ("echo_int_float", echo 4), ("echo_long_double", echo 8),
  ("echo_float_double", echo 8), ("echo_floats2_or_long", echo 8),
  ("echo_longs_or_double", echo 16),
  ("touch", fun _ slots w => ([], { w with noted := integer slots 0 .int32 })),
  ("scale", pureBody fun slots =>
    (Value.float64 ((number slots 0 (.int .int16)).mul (number slots 1 .float64))).encode),
  ("negate", pureBody fun slots => integerResult .int8 (-integer slots 0 .int8)),
  ("weigh", pureBody fun slots =>
    let types : List Scalar := [.int .int8, .int .uint16, .int .int32, .int .uint64, .int .int64,
      .int .uint8, .int .int16, .int .uint32, .float32, .float64]
    (Value.float64 (weightedSum types slots)).encode)]

/-! ## The machine -/

/-- All functions. -/
def functions : List (String × Body) := probeFunctions ++ cFunctions ++ sampleFunctions

/-- The address of the function at the index among all. -/
def functionAddress (index : Nat) : Address := BitVec.ofNat 64 (0x550000000000 + 16 * index)

/-- The address of the function with the name. -/
def addressOf? (name : String) : Option Address :=
  (functions.findIdx? (·.1 == name)).map functionAddress

/-- The symbols of functions, with their addresses. -/
def symbols (table : List (String × Body)) : List (Bytes × Address) :=
  table.filterMap fun entry => (addressOf? entry.1).map (Utf8.encode entry.1, ·)

/-- The machine that enters functions and callbacks by their addresses. -/
def machine : Machine NativeWorld where
  enter code slots w :=
    match (List.range functions.length).find? (fun i => functionAddress i == code) with
    | some index =>
      match functions[index]? with
      | some (_, body) => body NativeWorld.callbackMachine slots w
      | none => ([], w)
    | none => NativeWorld.callbackMachine.enter code slots w

end ForeignCall.Native
