import ForeignCall.Proofs.Value.RoundTrip

/-!
# What converts, and to what

A value converts to an integer type exactly if it is an integer in the range of the type, and stays
the same integer (`coerce_int_eq_ok_iff`), so intermediate types make no difference
(`coerceThrough_eq_ok_iff`).  Numbers convert to the floating-point types by way of the `float64`
they are read as (`coerce_float32_eq_ok_iff`, `coerce_float64_eq_ok_iff`).  To the other types
exactly the values of a few variants convert.  A value of a type is not changed by converting it to
the type (`coerce_of_hasType`); only for `float32` this says nothing, since a `float64` is made of
it first.
-/

namespace ForeignCall

namespace Value

/-- The value is an integer or a floating-point number. -/
inductive IsNumber : Value → Prop where
  | int (t : IntType) (pattern : BitVec t.bits) : IsNumber (int t pattern)
  | float32 (x : Single) : IsNumber (float32 x)
  | float64 (x : Double) : IsNumber (float64 x)

/-- The value converted to integer types one after the other. -/
def coerceThrough (v : Value) : List IntType → Except ArgumentError Value
  | [] => .ok v
  | t :: ts =>
    match v.coerce (.scalar (.int t)) with
    | .ok w => w.coerceThrough ts
    | .error e => .error e

variable {v w : Value} {t : IntType} {n : Int}

/-! ## Integers -/

theorem coerce_int_of_asInteger (h : v.asInteger = some n) :
    v.coerce (.scalar (.int t)) =
      if t.Fits n then .ok (ofInt t n) else .error (.outOfRange n t) := by
  simp only [coerce, coerceObject, coerceScalar, h]

theorem coerce_int_eq_ok_iff : v.coerce (.scalar (.int t)) = .ok w ↔
    ∃ n, v.asInteger = some n ∧ t.Fits n ∧ ofInt t n = w := by
  cases h : v.asInteger with
  | none => simp [coerce, coerceObject, coerceScalar, h]
  | some n =>
    rw [coerce_int_of_asInteger h]
    by_cases fits : t.Fits n <;> simp [fits]

/-- A value of an integer type is known by its integer. -/
theorem ofInt_eq_iff (fits : t.Fits n) :
    ofInt t n = w ↔ w.HasType (.scalar (.int t)) ∧ w.asInteger = some n := by
  constructor
  · rintro rfl
    exact ⟨hasType_ofInt t n, asInteger_ofInt_of_fits fits⟩
  · rintro ⟨typed, same⟩
    match w with
    | int u p =>
      obtain rfl : u = t := typed
      rw [← Option.some.inj same, ofInt, u.wrap_toInt]

theorem asInteger_of_coerce_int (h : v.coerce (.scalar (.int t)) = .ok w) :
    w.asInteger = v.asInteger := by
  obtain ⟨n, same, fits, rfl⟩ := coerce_int_eq_ok_iff.1 h
  rw [same, asInteger_ofInt_of_fits fits]

/-- What an integer converts to depends on the integer alone, not on its type. -/
theorem coerce_int_congr {u : Value} (h : v.asInteger = some n) (same : u.asInteger = v.asInteger)
    (t : IntType) : u.coerce (.scalar (.int t)) = v.coerce (.scalar (.int t)) := by
  rw [coerce_int_of_asInteger h, coerce_int_of_asInteger (same.trans h)]

/-- Types on the way can refuse an integer, but they do not change it. -/
theorem coerceThrough_eq_ok_iff (ts : List IntType) :
    v.coerceThrough (ts ++ [t]) = .ok w ↔ v.coerce (.scalar (.int t)) = .ok w ∧
      ∀ u ∈ ts, ∃ x, v.coerce (.scalar (.int u)) = .ok x := by
  induction ts generalizing v with
  | nil =>
    rw [List.nil_append, coerceThrough]
    cases v.coerce (.scalar (.int t)) <;> simp [coerceThrough]
  | cons u ts ih =>
    rw [List.cons_append, coerceThrough, List.forall_mem_cons]
    cases first : v.coerce (.scalar (.int u)) with
    | error e => simp
    | ok x =>
      obtain ⟨n, integer, -⟩ := coerce_int_eq_ok_iff.1 first
      have same := coerce_int_congr integer (asInteger_of_coerce_int first)
      simp only [ih, same, Except.ok.injEq, exists_eq', true_and]

/-! ## The other types -/

theorem asAddress_eq_some_iff {a : Address} :
    v.asAddress = some a ↔ v = pointer a ∨ v = int .intptr a ∨ v = int .uintptr a := by
  constructor
  · intro h
    cases v with
    | pointer b => exact .inl (congrArg pointer (Option.some.inj h))
    | int t p =>
      cases t with
      | intptr => exact .inr (.inl (congrArg (int .intptr) (Option.some.inj h)))
      | uintptr => exact .inr (.inr (congrArg (int .uintptr) (Option.some.inj h)))
      | _ => cases h
    | _ => cases h
  · rintro (rfl | rfl | rfl) <;> rfl

theorem coerce_pointer_eq_ok_iff : v.coerce (.scalar .pointer) = .ok w ↔
    ∃ a, pointer a = w ∧ (v = pointer a ∨ v = int .intptr a ∨ v = int .uintptr a) := by
  simp only [← asAddress_eq_some_iff]
  cases h : v.asAddress <;> simp [coerce, coerceObject, coerceScalar, h]

theorem exists_asDouble_iff : (∃ x, v.asDouble = some x) ↔ v.IsNumber := by
  constructor
  · rintro ⟨x, h⟩
    cases v with
    | int t p => exact .int t p
    | float32 y => exact .float32 y
    | float64 y => exact .float64 y
    | _ => cases h
  · intro h
    cases h <;> exact ⟨_, rfl⟩

theorem coerce_float32_eq_ok_iff : v.coerce (.scalar .float32) = .ok w ↔
    ∃ x, v.asDouble = some x ∧ float32 x.narrow = w := by
  cases h : v.asDouble <;> simp [coerce, coerceObject, coerceScalar, h]

theorem coerce_float64_eq_ok_iff : v.coerce (.scalar .float64) = .ok w ↔
    ∃ x, v.asDouble = some x ∧ float64 x = w := by
  cases h : v.asDouble <;> simp [coerce, coerceObject, coerceScalar, h]

theorem coerce_void_eq_ok_iff : v.coerce .void = .ok w ↔ v = void ∧ w = void := by
  cases v <;> simp [coerce, eq_comm]

theorem coerce_aggregate_eq_ok_iff {kind : AggregateKind} {fields : Fields} :
    v.coerce (.object (.aggregate kind fields)) = .ok w ↔ w = v ∧
      ∃ bytes, v = aggregate bytes ∧ bytes.length = (ObjectType.aggregate kind fields).size := by
  cases v with
  | aggregate bytes =>
    by_cases size : bytes.length = (ObjectType.aggregate kind fields).size <;>
      simp [coerce, coerceObject, size, eq_comm]
  | _ => simp [coerce, coerceObject]

/-! ## All types -/

/-- A value of a type converts to the type and stays as it is. -/
theorem coerce_of_hasType {t : CType} (h : w.HasType t) (wide : t ≠ .scalar .float32) :
    w.coerce t = .ok w := by
  match t, w with
  | .void, void => rfl
  | .object (.scalar (.int _)), int u p =>
    obtain rfl : u = _ := h
    exact coerce_int_eq_ok_iff.2 ⟨_, rfl, u.fits_toInt p, (int_eq_ofInt u p).symm⟩
  | .object (.scalar .float32), float32 _ => exact absurd rfl wide
  | .object (.scalar .float64), float64 _ => rfl
  | .object (.scalar .pointer), pointer _ => rfl
  | .object (.aggregate _ _), aggregate _ => exact coerce_aggregate_eq_ok_iff.2 ⟨rfl, _, rfl, h⟩

theorem eq_of_coerce_aggregate {t : CType} (aggregate : t.isAggregate = true)
    (h : v.coerce t = .ok w) : w = v := by
  match t with
  | .object (.aggregate _ _) => exact (coerce_aggregate_eq_ok_iff.1 h).1

/-- Of every type, what converts to it and to what. -/
structure ConvertsByRules (v : Value) : Prop where
  outcome : ∀ t, (∃ e, v.coerce t = .error e ∧ (Error.argument e).kind = .argument) ∨
    ∃ w, v.coerce t = .ok w ∧ w.HasType t ∧ (t.isAggregate → w = v)
  integer : ∀ t w, v.coerce (.scalar (.int t)) = .ok w ↔
    ∃ n, v.asInteger = some n ∧ t.Fits n ∧ w.HasType (.scalar (.int t)) ∧ w.asInteger = some n
  through : ∀ ts t w, v.coerceThrough (ts ++ [t]) = .ok w ↔
    v.coerce (.scalar (.int t)) = .ok w ∧ ∀ u ∈ ts, ∃ x, v.coerce (.scalar (.int u)) = .ok x
  pointer : ∀ w, v.coerce (.scalar .pointer) = .ok w ↔
    ∃ a, .pointer a = w ∧ (v = .pointer a ∨ v = .int .intptr a ∨ v = .int .uintptr a)
  number : (∃ x, v.asDouble = some x) ↔ v.IsNumber
  float32 : ∀ w, v.coerce (.scalar .float32) = .ok w ↔
    ∃ x, v.asDouble = some x ∧ .float32 x.narrow = w
  float64 : ∀ w, v.coerce (.scalar .float64) = .ok w ↔ ∃ x, v.asDouble = some x ∧ .float64 x = w
  void : ∀ w, v.coerce .void = .ok w ↔ v = .void ∧ w = .void
  aggregate : ∀ kind fields w, v.coerce (.object (.aggregate kind fields)) = .ok w ↔ w = v ∧
    ∃ bytes, v = .aggregate bytes ∧ bytes.length = (ObjectType.aggregate kind fields).size
  again : ∀ t w, t ≠ .scalar .float32 → v.coerce t = .ok w → w.coerce t = .ok w

theorem convertsByRules (v : Value) : v.ConvertsByRules := by
  refine ⟨fun t => ?_, fun t w => ?_, fun ts t w => coerceThrough_eq_ok_iff ts,
    fun w => coerce_pointer_eq_ok_iff, exists_asDouble_iff, fun w => coerce_float32_eq_ok_iff,
    fun w => coerce_float64_eq_ok_iff, fun w => coerce_void_eq_ok_iff,
    fun kind fields w => coerce_aggregate_eq_ok_iff,
    fun t w wide h => coerce_of_hasType (hasType_coerce h) wide⟩
  · cases h : v.coerce t with
    | error e => exact .inl ⟨e, rfl, rfl⟩
    | ok w => exact .inr ⟨w, rfl, hasType_coerce h, fun agg => eq_of_coerce_aggregate agg h⟩
  · rw [coerce_int_eq_ok_iff]
    refine exists_congr fun n => and_congr_right fun _ => and_congr_right fun fits => ?_
    exact ofInt_eq_iff fits

/-- Every value converts by the rules, and the range of an integer type is that of its patterns in
two's complement. -/
theorem coerce_accepts_exactly :
    (∀ v : Value, v.ConvertsByRules) ∧ ∀ (t : IntType) (n : Int), t.Fits n ↔
      if t.isSigned then -2 ^ (t.bits - 1) ≤ n ∧ n < 2 ^ (t.bits - 1)
      else 0 ≤ n ∧ n < 2 ^ t.bits :=
  ⟨convertsByRules, IntType.fits_iff⟩

theorem coerce_accepts_exactly_byte :
    (ofInt .int64 200).coerceThrough [.int16, .uint8] = .ok (ofInt .uint8 200) ∧
    (¬ ∃ w, (ofInt .uint8 200).coerce (.scalar (.int .int8)) = .ok w) ∧
    (ofInt .uintptr 200).coerce (.scalar .pointer) = .ok (pointer 200) ∧
    (pointer 200).coerce (.scalar .pointer) = .ok (pointer 200) := by
  have rules := coerce_accepts_exactly.1
  have address : (ofInt .uintptr 200).coerce (.scalar .pointer) = .ok (pointer 200) :=
    ((rules (ofInt .uintptr 200)).pointer _).2 ⟨200, rfl, .inr (.inr rfl)⟩
  refine ⟨?_, ?_, address, (rules (ofInt .uintptr 200)).again _ _ (by decide) address⟩
  · refine ((rules (ofInt .int64 200)).through [.int16] .uint8 _).2 ⟨rfl, ?_⟩
    exact List.forall_mem_singleton.2 ⟨_, rfl⟩
  · rintro ⟨w, h⟩
    obtain ⟨n, same, fits, -⟩ := ((rules (ofInt .uint8 200)).integer .int8 w).1 h
    rw [← Option.some.inj same] at fits
    exact absurd fits (by decide)

end Value

end ForeignCall
