import ForeignCall.Callback
import ForeignCall.Proofs.Call.Outcome

/-!
# Calls of callbacks

A callback that is called with its own signature is the handler between two conversions: that of
the arguments before it (`Callback.arguments_argumentSlots`) and that of its answer after it
(`Callback.load_resultSlot`).  `Signature.plainCall` says what such a handler does without any
memory; `Callback.call_eq_plainCall` is the agreement for one call and `runEach` carries it to runs.
-/

namespace ForeignCall

variable {σ : Type}

/-! ## Runs -/

/-- Takes a step for each input in turn, and lists what the steps answer. -/
def runEach {ι ρ : Type} (step : ι → σ → ρ × σ) : List ι → σ → List ρ × σ
  | [], s => ([], s)
  | i :: is, s =>
    let (answer, s) := step i s
    let (answers, s) := runEach step is s
    (answer :: answers, s)

theorem runEach_congr {ι ρ : Type} {step step' : ι → σ → ρ × σ}
    (h : ∀ i s, step i s = step' i s) (is : List ι) (s : σ) :
    runEach step is s = runEach step' is s := by
  induction is generalizing s with
  | nil => rfl
  | cons i is ih => simp only [runEach, h, ih]

/-- The handler, with a list of the arguments that it was run on beside its state. -/
def Handler.recorded (handler : Handler σ) : Handler (σ × List (List Value)) :=
  fun values (state, log) =>
    let (answer, state) := handler values state
    (answer, state, log ++ [values])

namespace Signature

/-- The value that the caller of a handler receives: the handler's answer if it converts to the
result, and zero if it does not or the handler failed. -/
def reply : CType → Option Value → Value
  | .void, _ => .void
  | .object t, none => .zero (.object t)
  | .object t, some v =>
    match v.coerceObject t with
    | .ok w => w
    | .error _ => .zero (.object t)

/-- The handler between the conversions of its arguments and of its answer. -/
def plainCall (sig : Signature) (handler : Handler σ) (values : List Value) (state : σ) :
    Except Error Value × σ :=
  match sig.accept values with
  | .error e => (.error (.argument e), state)
  | .ok ws =>
    let (answer, state) := handler ws state
    (.ok (reply sig.result answer), state)

/-- Over a run, the handler is run once on each list that is accepted, as it was accepted. -/
theorem runEach_plainCall_recorded (sig : Signature) (handler : Handler σ)
    (lists : List (List Value)) (state : σ) (log : List (List Value)) :
    runEach (sig.plainCall handler.recorded) lists (state, log) =
      let (answers, after) := runEach (sig.plainCall handler) lists state
      (answers, after, log ++ lists.filterMap fun values => (sig.accept values).toOption) := by
  induction lists generalizing state log with
  | nil => rw [List.filterMap_nil, List.append_nil]; rfl
  | cons values lists ih =>
    simp only [runEach, plainCall, Handler.recorded]
    cases accepted : sig.accept values with
    | error e => rw [ih]; simp only [List.filterMap_cons, accepted, Except.toOption]
    | ok ws =>
      simp only [List.filterMap_cons, accepted, Except.toOption]
      rw [ih, List.append_assoc]
      rfl

end Signature

namespace Callback

theorem ofHandler_ok {sig : Signature} (constructed : sig.Constructed)
    (fixed : sig.isVariadic = false) (result : sig.result.isAggregate = false)
    (args : ∀ t ∈ sig.args, (CType.object t).isAggregate = false) (handler : Handler σ) :
    ofHandler sig handler = .ok ⟨sig, handler⟩ := by
  obtain ⟨interface, prepared⟩ := constructed.interface_ok
  have scalars : sig.args.any (fun t => (CType.object t).isAggregate) = false := by
    rw [List.any_eq_false]
    exact fun t ht => by rw [args t ht]; decide
  simp only [ofHandler, fixed, result, scalars, prepared, Bool.or_self, if_false,
    Bool.false_eq_true]

/-- What was stored into the slots of the arguments arrives at the handler. -/
theorem arguments_argumentSlots {sig : Signature} {values ws : List Value}
    (h : Value.Converted sig.args values ws) :
    arguments sig (List.zipWith argumentSlot sig.args ws) = ws := by
  unfold arguments
  generalize sig.args = ts at h ⊢
  induction h with
  | nil => rfl
  | cons head tail ih =>
    rw [List.zipWith_cons_cons, List.zipWith_cons_cons, ih,
      load_argumentSlot (Value.hasType_coerceObject head)]

theorem length_resultSlot (t : CType) (answer : Option Value) :
    (resultSlot t answer).length = max t.size wordSize := by
  unfold resultSlot
  split
  · exact Bytes.length_zeros _
  · split
    · rw [Value.length_storeResult, Bytes.length_zeros]
    · exact Bytes.length_zeros _

/-- What the caller finds in the result slot is the reply. -/
theorem load_resultSlot (t : CType) (answer : Option Value) :
    Value.load t (resultSlot t answer) = Signature.reply t answer := by
  have zeros : Value.load t (Bytes.zeros (max t.size wordSize)) = .zero t :=
    Value.load_zeros (Nat.le_max_left _ _)
  cases t with
  | void => rfl
  | object t =>
    cases answer with
    | none => exact zeros
    | some v =>
      simp only [resultSlot, Signature.reply, Value.coerce]
      cases converts : v.coerceObject t with
      | error e => exact zeros
      | ok w =>
        exact Value.load_storeResult (Value.hasType_coerceObject converts) (Bytes.length_zeros _).ge

/-- One call of a callback with its own signature. -/
theorem call_eq_plainCall {sig : Signature} (constructed : sig.Constructed) (handler : Handler σ)
    {machine : Machine σ} {code : Address} (entry : code ≠ .null)
    (enters : machine.enter code = (Callback.mk sig handler).enter) (values : List Value)
    (state : σ) :
    sig.call machine code values state = sig.plainCall handler values state := by
  cases accepted : sig.accept values with
  | error e =>
    rw [Signature.call_error (Signature.prepare_error entry accepted), Signature.plainCall,
      accepted]
  | ok ws =>
    have arrived := arguments_argumentSlots (Signature.converted_of_accept accepted)
    rw [Signature.call_ok (Signature.prepare_ok constructed entry accepted), enters,
      Signature.plainCall, accepted]
    simp only [enter, arrived]
    rw [loadResult_returnResult (by rw [length_resultSlot]; exact Nat.le_max_left _ _),
      load_resultSlot]

/-- A callback that is called with its own signature behaves as the plain handler, over every run;
the handler is run once on each list of arguments that is accepted and on no other. -/
theorem run_eq_plain (sig : Signature) (constructed : sig.Constructed)
    (fixed : sig.isVariadic = false) (result : sig.result.isAggregate = false)
    (args : ∀ t ∈ sig.args, (CType.object t).isAggregate = false) (handler : Handler σ) :
    (ofHandler sig handler = .ok ⟨sig, handler⟩ ∧
      ∀ (machine : Machine σ) (code : Address), code ≠ .null →
        machine.enter code = (Callback.mk sig handler).enter →
        ∀ (lists : List (List Value)) (state : σ),
          runEach (sig.call machine code) lists state =
            runEach (sig.plainCall handler) lists state) ∧
    (ofHandler sig handler.recorded = .ok ⟨sig, handler.recorded⟩ ∧
      ∀ (machine : Machine (σ × List (List Value))) (code : Address), code ≠ .null →
        machine.enter code = (Callback.mk sig handler.recorded).enter →
        ∀ (lists : List (List Value)) (state : σ) (log : List (List Value)),
          runEach (sig.call machine code) lists (state, log) =
            let (answers, after) := runEach (sig.plainCall handler) lists state
            (answers, after,
              log ++ lists.filterMap fun values => (sig.accept values).toOption)) := by
  refine ⟨⟨ofHandler_ok constructed fixed result args handler, ?_⟩,
    ofHandler_ok constructed fixed result args handler.recorded, ?_⟩
  · intro machine code entry enters lists state
    exact runEach_congr (call_eq_plainCall constructed handler entry enters) lists state
  · intro machine code entry enters lists state log
    rw [runEach_congr (call_eq_plainCall constructed handler.recorded entry enters)]
    exact sig.runEach_plainCall_recorded handler lists state log

/-- A handler that adds its argument to a total and answers the total. -/
def totalHandler : Handler Int := fun values total =>
  match values.head?.bind Value.asInteger with
  | some n => (some (.ofInt .int64 (total + n)), total + n)
  | none => (none, total)

/-- The signature of the total as a short integer. -/
def totalSignature : Signature :=
  ⟨.default, .scalar (.int .int16), [.scalar (.int .int8)], .fixed⟩

theorem run_eq_plain_total :
    runEach (totalSignature.call (Callback.mk totalSignature totalHandler).machine 1)
        [[.ofInt .int64 (-5)], [], [.ofInt .uint8 200], [.ofInt .int8 2]] 0 =
      ([.ok (.ofInt .int16 (-5)), .error (.argument (.argumentCount 1 0)),
        .error (.argument (.inArgument 0 (.outOfRange 200 .int8))), .ok (.ofInt .int16 (-3))],
        -3) ∧
    runEach (totalSignature.call (Callback.mk totalSignature totalHandler.recorded).machine 1)
        [[.ofInt .int64 (-5)], []] (0, []) =
      ([.ok (.ofInt .int16 (-5)), .error (.argument (.argumentCount 1 0))],
        -5, [[.ofInt .int8 (-5)]]) := by
  have run := run_eq_plain totalSignature
    (.ofTypes (Signature.fixed_objects (.scalar (.int .int16)) [.scalar (.int .int8)])) rfl rfl
    (by decide) totalHandler
  exact ⟨(run.1.2 _ 1 (by decide) rfl _ 0).trans rfl,
    (run.2.2 _ 1 (by decide) rfl _ 0 []).trans rfl⟩

end Callback

end ForeignCall
