import ForeignCall.Proofs.Call.Marshalling
import ForeignCall.Proofs.Value.ResultSlot

/-!
# How calls end

A call either fails before anything is entered, or enters the function once with every argument in
its slot and gives its result.  `Machine.recorded` lists what is entered, so that "never" and "once"
are statements about a list, and `CallOutcome` has one case for each way in which a call can end.

The result is read from a slot that is widened for narrow integers and plain for all other types;
both ways give the value that the function's bytes spell (`loadResult_returnResult`).
-/

namespace ForeignCall

variable {σ : Type}

/-- The entry of a native function: its address, and the slots that it finds. -/
structure Entry where
  code : Address
  slots : List Bytes

/-- The machine, with a list of what it enters beside its world. -/
def Machine.recorded (machine : Machine σ) : Machine (σ × List Entry) where
  enter code slots := fun (world, log) =>
    let (result, world) := machine.enter code slots world
    (result, world, log ++ [⟨code, slots⟩])

/-- The ways in which a call of the function at `code` can end, in a world with a list of what was
entered before: its answer, the world after it and the list after it. -/
inductive CallOutcome (sig : Signature) (machine : Machine σ) (code : Address)
    (values : List Value) (world : σ) (log : List Entry) :
    Except Error Value × σ × List Entry → Prop where
  | nullFunction (null : code = .null) :
    CallOutcome sig machine code values world log
      (.error (.argument .nullFunction), world, log)
  | argumentCount (entry : code ≠ .null) (count : values.length ≠ sig.args.length) :
    CallOutcome sig machine code values world log
      (.error (.argument (.argumentCount sig.args.length values.length)), world, log)
  | inArgument (entry : code ≠ .null) (count : values.length = sig.args.length)
    {i : Nat} {cause : ArgumentError} (refused : Value.FirstRefused sig.args values i cause) :
    CallOutcome sig machine code values world log
      (.error (.argument (.inArgument i cause)), world, log)
  | entered (entry : code ≠ .null) (count : values.length = sig.args.length)
    {slots : List Bytes} (marshalled : Marshalled sig.args values slots)
    {result : Bytes} {after : σ} (enters : machine.enter code slots world = (result, after)) :
    CallOutcome sig machine code values world log
      (.ok (Value.loadResult sig.result
          (returnResult sig.result result (emptyResultSlot sig.result))),
        after, log ++ [⟨code, slots⟩])

/-! ## Results -/

theorem loadResult_returnResult {t : CType} {result : Bytes} (h : t.size ≤ result.length) :
    Value.loadResult t (returnResult t result (emptyResultSlot t)) = Value.load t result := by
  rw [Value.loadResult_eq_load, returnResult,
    Value.load_storeResult (Value.hasType_load h) (max_le_length_emptyResultSlot t)]

/-- The function gives back the bytes of its only argument, of type `t`. -/
def NativeFunction.IsIdentity (f : NativeFunction σ) (t : ObjectType) : Prop :=
  ∀ slot world, (f [slot] world).1 = slot.take t.size

/-! ## Calls -/

namespace Signature

theorem call_error {sig : Signature} {code : Address} {values : List Value} {e : Error}
    (h : sig.prepare code values = .error e) (machine : Machine σ) (world : σ) :
    sig.call machine code values world = (.error e, world) := by
  rw [call, h]

theorem call_ok {sig : Signature} {code : Address} {values : List Value} {slots : List Bytes}
    (h : sig.prepare code values = .ok slots) (machine : Machine σ) (world : σ) :
    sig.call machine code values world =
      (.ok (Value.loadResult sig.result (returnResult sig.result
          (machine.enter code slots world).1 (emptyResultSlot sig.result))),
        (machine.enter code slots world).2) := by
  rw [call, h]

theorem callOutcome {sig : Signature} (h : sig.Constructed) (machine : Machine σ)
    (code : Address) (values : List Value) (world : σ) (log : List Entry) :
    CallOutcome sig machine code values world log
      (sig.call machine.recorded code values (world, log)) := by
  by_cases null : code = .null
  · rw [call_error (sig.prepare_null null values)]
    exact .nullFunction null
  cases accepted : sig.accept values with
  | error e =>
    rw [call_error (prepare_error null accepted)]
    obtain ⟨count, rfl⟩ | ⟨count, i, cause, refused, rfl⟩ := accept_error accepted
    · exact .argumentCount null count
    · exact .inArgument null count refused
  | ok ws =>
    have converted := converted_of_accept accepted
    rw [call_ok (prepare_ok h null accepted)]
    exact .entered null converted.length converted.marshalled rfl

/-- A call of an identity function gives its argument, converted to the type. -/
theorem call_identity {t : ObjectType} {v w : Value} (h : v.coerceObject t = .ok w)
    {machine : Machine σ} {code : Address} (entry : code ≠ .null)
    (identity : (machine.enter code).IsIdentity t) (world : σ) {sig : Signature}
    (typed : fixed (.object t) [.object t] = .ok sig) :
    (sig.call machine code [v] world).1 = .ok w := by
  have constructed : sig.Constructed := .ofTypes typed
  obtain rfl : _ = sig := Except.ok.inj ((fixed_objects (.object t) [t]).symm.trans typed)
  have accepted : accept ⟨.default, .object t, [t], .fixed⟩ [v] = .ok [w] := by
    simp only [accept, Value.coerceEach, h]
    rfl
  have typed := Value.hasType_coerceObject h
  have front := (holdsArgument_argumentSlot typed).front
  rw [call_ok (prepare_ok constructed entry accepted)]
  show Except.ok (Value.loadResult (.object t) (returnResult (.object t)
    (machine.enter code [argumentSlot t w] world).1 (emptyResultSlot (.object t)))) = _
  rw [identity, front, loadResult_returnResult (Value.length_encode typed).ge,
    Value.load_encode typed]

/-- A call enters nothing, or enters its function once with every argument in its slot; in
particular a call of an identity function gives back its argument. -/
theorem call_marshals :
    (∀ (sig : Signature) (machine : Machine σ) (code : Address) (values : List Value) (world : σ)
        (log : List Entry), sig.Constructed →
      CallOutcome sig machine code values world log
        (sig.call machine.recorded code values (world, log))) ∧
    (∀ (t : ObjectType) (v w : Value) (machine : Machine σ) (code : Address) (world : σ),
      v.coerceObject t = .ok w → code ≠ .null → (machine.enter code).IsIdentity t →
      ∃ sig, fixed (.object t) [.object t] = .ok sig ∧
        (sig.call machine code [v] world).1 = .ok w) := by
  refine ⟨fun sig machine code values world log h => callOutcome h machine code values world log,
    fun t v w machine code world converts entry identity => ?_⟩
  have typed := fixed_objects (.object t) [t]
  exact ⟨_, typed, call_identity converts entry identity world typed⟩

/-- A machine in which every function gives back the single byte of its argument. -/
def byteMachine : Machine Unit where
  enter _ slots world := ((slots.headD []).take 1, world)

theorem call_marshals_int8 :
    CallOutcome ⟨.default, .scalar (.int .int8), [.scalar (.int .int8)], .fixed⟩ byteMachine 1
      [.ofInt .int64 (-5)] () []
      (call ⟨.default, .scalar (.int .int8), [.scalar (.int .int8)], .fixed⟩ byteMachine.recorded 1
        [.ofInt .int64 (-5)] ((), [])) ∧
    ∃ sig, fixed (.scalar (.int .int8)) [.scalar (.int .int8)] = .ok sig ∧
      (sig.call byteMachine 1 [.ofInt .int64 (-5)] ()).1 = .ok (.ofInt .int8 (-5)) :=
  ⟨call_marshals.1 _ _ _ _ _ _ (.ofTypes (fixed_objects (.scalar (.int .int8)) [_])),
    call_marshals.2 (.scalar (.int .int8)) (.ofInt .int64 (-5)) (.ofInt .int8 (-5)) byteMachine 1 ()
      rfl (by decide) (fun _ _ => rfl)⟩

end Signature

end ForeignCall
