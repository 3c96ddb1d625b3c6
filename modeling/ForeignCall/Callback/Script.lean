import ForeignCall.Callback
import ForeignCall.Number.FloatArithmetic

/-!
# Scripted handlers

Small handlers described by data (`Script`).  They keep the number of their calls, a running total
and the arguments of every call so far.
-/

namespace ForeignCall

/-- A small handler. -/
inductive Script where
  /-- Answers the value. -/
  | constant (value : Value)
  /-- Answers the argument at the index, and fails if there is none. -/
  | argument (index : Nat)
  | fail
  /-- Fails if the first argument equals the value or is missing. -/
  | failIf (value : Value) (otherwise : Script)
  /-- Answers the sum of the integers among the arguments. -/
  | sumIntegers
  /-- Answers the sum of the numbers among the arguments. -/
  | sumNumbers
  /-- Answers how often it was called. -/
  | countCalls
  /-- Adds the first argument to the running total, and answers that. -/
  | accumulate
  /-- Answers the values in turn, again and again. -/
  | cycle (values : List Value)
  /-- Answers the number of arguments. -/
  | countArguments

namespace Script

/-- What a script remembers. -/
structure Memory where
  calls : Nat
  total : Int
  seen : List (List Value)
  deriving Inhabited

/-- The memory of a script that was never called. -/
def Memory.start : Memory := ⟨0, 0, []⟩

/-- What the script answers to the arguments. -/
def answer (values : List Value) (memory : Memory) : Script → Option Value × Memory
  | constant v => (some v, memory)
  | argument index => (values[index]?, memory)
  | fail => (none, memory)
  | failIf v otherwise =>
    match values with
    | [] => (none, memory)
    | first :: _ => if first.equal v then (none, memory) else answer values memory otherwise
  | sumIntegers =>
    (some (.ofInt .int64 (values.map fun v => v.asInteger.getD 0).sum), memory)
  | sumNumbers =>
    let sum := values.foldl (fun sum v => sum.add (v.asDouble.getD .zero)) Double.zero
    (some (.float64 sum), memory)
  | countCalls =>
    (some (.ofInt .int32 (memory.calls + 1)), { memory with calls := memory.calls + 1 })
  | accumulate =>
    let total := memory.total + ((values.head?.bind Value.asInteger).getD 0)
    (some (.ofInt .int64 total), { memory with total := total })
  | cycle answers =>
    (answers[memory.calls % answers.length]?, { memory with calls := memory.calls + 1 })
  | countArguments => (some (.ofInt .uintptr values.length), memory)

/-- The script as a handler, which also notes the arguments of each call. -/
def handler (script : Script) : Handler Memory := fun values memory =>
  script.answer values { memory with seen := memory.seen ++ [values] }

end Script

end ForeignCall
