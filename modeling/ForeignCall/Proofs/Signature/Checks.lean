import ForeignCall.Proofs.Signature.Construction
import Mathlib.Order.Bounds.Basic

/-!
# What the checks of a signature refuse

A description of a function is accepted exactly if as many arguments are given as are declared, none
of them is `void`, and none that follows the declared ones has one of the types that C promotes
(`Signature.Acceptable`).  When it breaks several rules, the count is reported before a `void`, and
a `void` before a promoted type; of several arguments that break a rule, the first is named
(`Signature.RefusedFor`, `ofTypes_eq_error_iff`).  No rule is about aggregates, so an aggregate may
stand at every position.
-/

namespace ForeignCall

/-! ## The first index -/

section First

variable {P : Nat → Prop} {i n : Nat}

theorem isLeast_zero_iff (zero : P 0) : IsLeast {j | P j} i ↔ 0 = i := by
  constructor
  · rintro ⟨-, least⟩
    exact (Nat.le_zero.1 (least zero)).symm
  · rintro rfl
    exact ⟨zero, fun j _ => Nat.zero_le j⟩

/-- Counted from index `n` on. -/
theorem isLeast_from_iff :
    IsLeast {j | n ≤ j ∧ P j} i ↔ ∃ k, n + k = i ∧ IsLeast {j | P (n + j)} k := by
  constructor
  · rintro ⟨⟨late, holds⟩, least⟩
    obtain ⟨k, rfl⟩ := Nat.exists_eq_add_of_le late
    refine ⟨k, rfl, holds, fun j hj => ?_⟩
    exact Nat.le_of_add_le_add_left (least ⟨Nat.le_add_right n j, hj⟩)
  · rintro ⟨k, rfl, holds, least⟩
    refine ⟨⟨Nat.le_add_right n k, holds⟩, ?_⟩
    rintro j ⟨late, hj⟩
    obtain ⟨m, rfl⟩ := Nat.exists_eq_add_of_le late
    exact Nat.add_le_add_left (least hj) n

theorem isLeast_succ_iff (zero : ¬ P 0) :
    IsLeast {j | P j} i ↔ ∃ k, k + 1 = i ∧ IsLeast {j | P (j + 1)} k := by
  have later : {j | P j} = {j | 1 ≤ j ∧ P j} := by
    ext j
    exact ⟨fun hj => ⟨Nat.pos_of_ne_zero fun h => zero (h ▸ hj), hj⟩, And.right⟩
  rw [later, isLeast_from_iff]
  simp only [Nat.add_comm 1]

end First

theorem CType.objects_eq_error_iff {types : List CType} {index : Nat} :
    objects types = .error index ↔ IsLeast {i | types[i]? = some void} index := by
  induction types generalizing index with
  | nil => exact iff_of_false nofun fun h => nomatch h.1
  | cons t rest ih =>
    cases t with
    | void => rw [isLeast_zero_iff (by rfl), objects, Except.error.injEq]
    | object t =>
      rw [isLeast_succ_iff (by simp), objects]
      simp only [List.getElem?_cons_succ, ← ih]
      cases objects rest <;> simp

/-! ## The rules -/

/-- The scalars that C promotes where no parameter is declared. -/
def promotedScalars : List Scalar :=
  [.float32, .int .int8, .int .uint8, .int .int16, .int .uint16]

theorem Scalar.isPromoted_iff_mem {s : Scalar} : s.isPromoted = true ↔ s ∈ promotedScalars := by
  cases s with
  | int t => cases t <;> decide
  | _ => decide

/-- The number of declared arguments of a description with `count` arguments. -/
def Arity.declared (count : Nat) : Arity → Nat
  | .fixed => count
  | .variadic declared => declared

namespace Signature

/-- The argument at the index has a type that C promotes. -/
def PromotedAt (args : List CType) (i : Nat) : Prop :=
  ∃ s ∈ promotedScalars, args[i]? = some (.scalar s)

/-- The arguments keep all rules for a function with so many declared parameters. -/
structure Acceptable (args : List CType) (declared : Nat) : Prop where
  count : declared ≤ args.length
  noVoid : .void ∉ args
  trailing : ∀ i, declared ≤ i → ¬ PromotedAt args i

/-- The cause for which the arguments are refused, the first rule that they break. -/
inductive RefusedFor (args : List CType) (declared : Nat) : DescriptorError → Prop where
  | count (short : args.length < declared) :
    RefusedFor args declared (.fixedCountExceeds declared args.length)
  | void {i : Nat} (count : declared ≤ args.length)
    (first : IsLeast {j | args[j]? = some .void} i) : RefusedFor args declared (.voidArgument i)
  | promoted {i : Nat} {s : Scalar} (count : declared ≤ args.length) (noVoid : .void ∉ args)
    (first : IsLeast {j | declared ≤ j ∧ PromotedAt args j} i)
    (type : args[i]? = some (.scalar s)) : RefusedFor args declared (.unpromotedArgument i s)

/-- The signature is what the description says. -/
structure Keeps (sig : Signature) (result : CType) (args : List CType) (declared : Nat)
    (variadic : Bool) : Prop where
  abi : sig.abi = .default
  result : sig.result = result
  args : sig.args.map .object = args
  declared : sig.fixedCount = declared
  variadic : sig.isVariadic = variadic

/-! ## The checks -/

theorem promotedAt_map_iff {ts : List ObjectType} {i : Nat} :
    PromotedAt (ts.map .object) i ↔ ∃ s, ts[i]? = some (.scalar s) ∧ s.isPromoted = true := by
  simp [PromotedAt, Scalar.isPromoted_iff_mem, and_comm]

theorem checkCount_eq (arity : Arity) (count : Nat) :
    checkCount arity count =
      if count < arity.declared count then
        .error (.fixedCountExceeds (arity.declared count) count)
      else .ok () := by
  cases arity with
  | fixed => exact (if_neg (Nat.lt_irrefl count)).symm
  | variadic declared => rfl

theorem argumentTypes_eq_error_iff {types : List CType} {e : DescriptorError} :
    argumentTypes types = .error e ↔
      ∃ i, IsLeast {j | types[j]? = some .void} i ∧ .voidArgument i = e := by
  simp only [← CType.objects_eq_error_iff, argumentTypes]
  cases CType.objects types with
  | ok ts => simp [Except.mapError]
  | error index => simp [Except.mapError]

theorem promotedAt_cons_zero {t : ObjectType} {ts : List ObjectType} :
    PromotedAt ((t :: ts).map .object) 0 ↔ ∃ s, t = .scalar s ∧ s.isPromoted = true := by
  rw [promotedAt_map_iff]
  simp

theorem checkPromoted_eq_error_iff {index : Nat} {ts : List ObjectType} {e : DescriptorError} :
    checkPromoted index ts = .error e ↔
      ∃ k s, IsLeast {j | PromotedAt (ts.map .object) j} k ∧ ts[k]? = some (.scalar s) ∧
        .unpromotedArgument (index + k) s = e := by
  induction ts generalizing index with
  | nil => simp [checkPromoted, PromotedAt, IsLeast]
  | cons t ts ih =>
    by_cases first : ∃ s, t = .scalar s ∧ s.isPromoted = true
    · have zero : PromotedAt ((t :: ts).map .object) 0 := promotedAt_cons_zero.2 first
      obtain ⟨s, rfl, promoted⟩ := first
      simp only [isLeast_zero_iff zero]
      simp [checkPromoted, promoted]
    · have zero : ¬ PromotedAt ((t :: ts).map .object) 0 := mt promotedAt_cons_zero.1 first
      have rest : checkPromoted index (t :: ts) = checkPromoted (index + 1) ts := by
        cases t with
        | scalar s =>
          rw [checkPromoted, if_neg fun promoted => first ⟨s, rfl, promoted⟩]
        | aggregate kind fields => rw [checkPromoted]
      rw [rest, ih]
      simp only [isLeast_succ_iff zero]
      constructor
      · rintro ⟨k, s, least, type, rfl⟩
        exact ⟨k + 1, s, ⟨k, rfl, least⟩, type, by rw [Nat.add_right_comm, Nat.add_assoc]⟩
      · rintro ⟨_, s, ⟨k, rfl, least⟩, type, rfl⟩
        exact ⟨k, s, least, type, by rw [Nat.add_right_comm, Nat.add_assoc]⟩

/-- The arguments that follow the declared ones, by their indices among all of them. -/
theorem promotedAt_drop {args : List CType} {n i : Nat} :
    PromotedAt (args.drop n) i ↔ PromotedAt args (n + i) := by
  simp only [PromotedAt, List.getElem?_drop]

theorem checkTrailing_eq_error_iff {arity : Arity} {ts : List ObjectType} {e : DescriptorError} :
    checkTrailing arity ts = .error e ↔
      ∃ i s, IsLeast {j | arity.declared ts.length ≤ j ∧ PromotedAt (ts.map .object) j} i ∧
        ts[i]? = some (.scalar s) ∧ .unpromotedArgument i s = e := by
  cases arity with
  | fixed =>
    refine iff_of_false nofun ?_
    rintro ⟨i, s, ⟨⟨late, -⟩, -⟩, type, -⟩
    exact absurd (List.getElem?_eq_some_iff.1 type).1 (Nat.not_lt.2 late)
  | variadic declared =>
    rw [checkTrailing, checkPromoted_eq_error_iff]
    simp only [Arity.declared, isLeast_from_iff, List.map_drop, promotedAt_drop,
      List.getElem?_drop]
    constructor
    · rintro ⟨k, s, least, type, rfl⟩
      exact ⟨declared + k, s, ⟨k, rfl, least⟩, type, rfl⟩
    · rintro ⟨_, s, ⟨k, rfl, least⟩, type, rfl⟩
      exact ⟨k, s, least, type, rfl⟩

/-! ## Acceptance and refusal -/

variable {result : CType} {args : List CType} {declared : Nat} {arity : Arity}

theorem RefusedFor.not_acceptable {e : DescriptorError} (h : RefusedFor args declared e) :
    ¬ Acceptable args declared := by
  intro accepted
  cases h with
  | count short => exact Nat.not_le.2 short accepted.count
  | void count first => exact accepted.noVoid (List.mem_of_getElem? first.1)
  | promoted count noVoid first type => exact accepted.trailing _ first.1.1 first.1.2

/-- Only one cause is reported. -/
theorem RefusedFor.unique {e f : DescriptorError} (h : RefusedFor args declared e)
    (h' : RefusedFor args declared f) : e = f := by
  cases h with
  | count short =>
    cases h' with
    | count => rfl
    | void count => exact absurd count (Nat.not_le.2 short)
    | promoted count => exact absurd count (Nat.not_le.2 short)
  | void count first =>
    cases h' with
    | count short => exact absurd count (Nat.not_le.2 short)
    | void _ first' => rw [first.unique first']
    | promoted _ noVoid => exact absurd (List.mem_of_getElem? first.1) noVoid
  | promoted count noVoid first type =>
    cases h' with
    | count short => exact absurd count (Nat.not_le.2 short)
    | void _ first' => exact absurd (List.mem_of_getElem? first'.1) noVoid
    | promoted _ _ first' type' =>
      obtain rfl := first.unique first'
      cases type.symm.trans type'
      rfl

theorem fixedCount_of_ofTypes {sig : Signature} (h : ofTypes result args arity = .ok sig) :
    sig.fixedCount = arity.declared args.length := by
  obtain ⟨-, -, rfl, rfl, -⟩ := ofTypes_eq_ok_iff.1 h
  rw [List.length_map, fixedCount]
  cases sig.arity <;> rfl

theorem acceptable_of_ofTypes {sig : Signature} (h : ofTypes result args arity = .ok sig) :
    Acceptable args (arity.declared args.length) := by
  rw [← fixedCount_of_ofTypes h]
  obtain ⟨-, -, rfl, -, admitted⟩ := ofTypes_eq_ok_iff.1 h
  refine ⟨?_, by simp, fun i late promoted => ?_⟩
  · rw [List.length_map]
    exact admitted.declared
  · obtain ⟨k, rfl⟩ := Nat.exists_eq_add_of_le late
    rw [← promotedAt_drop, ← List.map_drop, promotedAt_map_iff] at promoted
    obtain ⟨s, type, promoted⟩ := promoted
    rw [admitted.trailing s (List.mem_of_getElem? type)] at promoted
    cases promoted

theorem refusedFor_of_ofTypes {e : DescriptorError} (h : ofTypes result args arity = .error e) :
    RefusedFor args (arity.declared args.length) e := by
  rw [ofTypes, checkCount_eq] at h
  by_cases short : args.length < arity.declared args.length
  · rw [if_pos short] at h
    rw [← Except.error.inj h]
    exact .count short
  rw [if_neg short] at h
  have count := Nat.not_lt.1 short
  rcases types : argumentTypes args with cause | ts
  · rw [types] at h
    obtain ⟨i, first, rfl⟩ := argumentTypes_eq_error_iff.1 types
    rw [← Except.error.inj h]
    exact .void count first
  obtain rfl := argumentTypes_eq_ok_iff.1 types
  rcases trailing : checkTrailing arity ts with cause | _
  · simp only [types, trailing, bind, Except.bind] at h
    obtain ⟨i, s, first, type, rfl⟩ := checkTrailing_eq_error_iff.1 trailing
    rw [← Except.error.inj h]
    rw [← List.length_map CType.object] at first
    exact .promoted count (by simp) first (by simp [type])
  · simp only [types, trailing, bind, Except.bind] at h
    cases h

theorem exists_ofTypes_iff :
    (∃ sig, ofTypes result args arity = .ok sig) ↔
      Acceptable args (arity.declared args.length) := by
  constructor
  · rintro ⟨sig, h⟩
    exact acceptable_of_ofTypes h
  · intro accepted
    cases h : ofTypes result args arity with
    | ok sig => exact ⟨sig, rfl⟩
    | error e => exact absurd accepted (refusedFor_of_ofTypes h).not_acceptable

theorem ofTypes_eq_error_iff {e : DescriptorError} :
    ofTypes result args arity = .error e ↔ RefusedFor args (arity.declared args.length) e := by
  refine ⟨refusedFor_of_ofTypes, fun refused => ?_⟩
  cases h : ofTypes result args arity with
  | ok sig => exact absurd (acceptable_of_ofTypes h) refused.not_acceptable
  | error f => rw [refused.unique (refusedFor_of_ofTypes h)]

/-! ## The two constructors -/

/-- No argument follows the declared ones. -/
theorem acceptable_length_iff : Acceptable args args.length ↔ .void ∉ args := by
  refine ⟨Acceptable.noVoid, fun noVoid => ⟨Nat.le_refl _, noVoid, ?_⟩⟩
  rintro i late ⟨s, -, type⟩
  exact absurd (List.getElem?_eq_some_iff.1 type).1 (Nat.not_lt.2 late)

theorem acceptable_iff : Acceptable args declared ↔
    declared ≤ args.length ∧ .void ∉ args ∧ ∀ i, declared ≤ i → ¬ PromotedAt args i :=
  ⟨fun h => ⟨h.count, h.noVoid, h.trailing⟩, fun ⟨count, noVoid, trailing⟩ =>
    ⟨count, noVoid, trailing⟩⟩

section Aggregate

variable {t : CType} (aggregate : t.isAggregate = true) (i : Nat)

include aggregate

/-- What is no aggregate stands where it stood before an aggregate was put at the index. -/
theorem getElem?_set_aggregate {u : CType} (other : u.isAggregate = false) (j : Nat) :
    (args.set i t)[j]? = some u ↔ j ≠ i ∧ args[j]? = some u := by
  by_cases same : j = i
  · subst same
    have apart : t ≠ u := by
      rintro rfl
      rw [aggregate] at other
      cases other
    simp [List.getElem?_set, apart]
  · rw [List.getElem?_set_ne (Ne.symm same)]
    exact (and_iff_right same).symm

theorem void_notMem_set_iff :
    .void ∉ args.set i t ↔ ∀ j, j ≠ i → args[j]? ≠ some .void := by
  have stays (j : Nat) : (args.set i t)[j]? = some .void ↔ j ≠ i ∧ args[j]? = some .void :=
    getElem?_set_aggregate aggregate i rfl j
  simp only [List.mem_iff_getElem?, stays, not_exists, not_and, ne_eq]

theorem promotedAt_set_iff {j : Nat} :
    PromotedAt (args.set i t) j ↔ j ≠ i ∧ PromotedAt args j := by
  have stays (s : Scalar) :
      (args.set i t)[j]? = some (.scalar s) ↔ j ≠ i ∧ args[j]? = some (.scalar s) :=
    getElem?_set_aggregate aggregate i rfl j
  simp only [PromotedAt, stays, and_left_comm (b := j ≠ i), exists_and_left]

theorem acceptable_set_iff : Acceptable (args.set i t) declared ↔ declared ≤ args.length ∧
    ∀ j, j ≠ i → args[j]? ≠ some .void ∧ (declared ≤ j → ¬ PromotedAt args j) := by
  rw [acceptable_iff, List.length_set, void_notMem_set_iff aggregate i]
  simp only [promotedAt_set_iff aggregate i, not_and]
  refine and_congr_right fun _ => ⟨fun ⟨noVoid, trailing⟩ j other => ?_, fun h => ⟨?_, ?_⟩⟩
  · exact ⟨noVoid j other, fun late => trailing j late other⟩
  · exact fun j other => (h j other).1
  · exact fun j late other => (h j other).2 late

end Aggregate

/-- The constructors accept what keeps the rules, keep what they accept as it is, and report the
first rule that is broken otherwise. -/
structure CheckedByRules (result : CType) (args : List CType) : Prop where
  fixed_iff : (∃ sig, fixed result args = .ok sig) ↔ .void ∉ args
  variadic_iff : ∀ n, (∃ sig, variadic result args n = .ok sig) ↔
    n ≤ args.length ∧ .void ∉ args ∧ ∀ i, n ≤ i → ¬ PromotedAt args i
  fixed_keeps : ∀ sig, fixed result args = .ok sig → sig.Keeps result args args.length false
  variadic_keeps : ∀ n sig, variadic result args n = .ok sig → sig.Keeps result args n true
  fixed_refused : ∀ e, fixed result args = .error e ↔ RefusedFor args args.length e
  variadic_refused : ∀ n e, variadic result args n = .error e ↔ RefusedFor args n e
  fixed_aggregate : ∀ i t, t.isAggregate →
    ((∃ sig, fixed result (args.set i t) = .ok sig) ↔ ∀ j, j ≠ i → args[j]? ≠ some .void)
  variadic_aggregate : ∀ n i t, t.isAggregate →
    ((∃ sig, variadic result (args.set i t) n = .ok sig) ↔ n ≤ args.length ∧
      ∀ j, j ≠ i → args[j]? ≠ some .void ∧ (n ≤ j → ¬ PromotedAt args j))

/-- Signatures are checked by the rules, whatever their result and their arguments. -/
theorem checks_accept_exactly (result : CType) (args : List CType) :
    CheckedByRules result args where
  fixed_iff := exists_ofTypes_iff.trans acceptable_length_iff
  variadic_iff n := exists_ofTypes_iff.trans acceptable_iff
  fixed_keeps sig h := by
    obtain ⟨abi, result, args, arity, -⟩ := ofTypes_eq_ok_iff.1 h
    exact ⟨abi, result, args, fixedCount_of_ofTypes h, by rw [isVariadic, arity]⟩
  variadic_keeps n sig h := by
    obtain ⟨abi, result, args, arity, -⟩ := ofTypes_eq_ok_iff.1 h
    exact ⟨abi, result, args, fixedCount_of_ofTypes h, by rw [isVariadic, arity]⟩
  fixed_refused e := ofTypes_eq_error_iff
  variadic_refused n e := ofTypes_eq_error_iff
  fixed_aggregate i t aggregate :=
    (exists_ofTypes_iff.trans acceptable_length_iff).trans (void_notMem_set_iff aggregate i)
  variadic_aggregate n i t aggregate :=
    exists_ofTypes_iff.trans (acceptable_set_iff aggregate i)

/-- Two arguments that C promotes, then a `void` and a pointer. -/
def mixedArguments : List CType :=
  [.scalar (.int .uint8), .scalar .float32, .void, .scalar .pointer]

/-- The `void` is reported before the promoted argument in front of it, and after the count; with a
union in its place the promoted argument is reported if no parameter stands for it. -/
theorem checks_accept_exactly_mixed :
    let floatOrByte : CType :=
      .object (.aggregate .union (.ofList (.scalar .float32) [.scalar (.int .uint8)]))
    RefusedFor mixedArguments 5 (.fixedCountExceeds 5 4) ∧
    RefusedFor mixedArguments 1 (.voidArgument 2) ∧
    RefusedFor (mixedArguments.set 2 floatOrByte) 1 (.unpromotedArgument 1 .float32) ∧
    ∃ sig, variadic .void (mixedArguments.set 2 floatOrByte) 2 = .ok sig := by
  intro floatOrByte
  have rules := checks_accept_exactly .void mixedArguments
  have changed := checks_accept_exactly .void (mixedArguments.set 2 floatOrByte)
  exact ⟨(rules.variadic_refused 5 _).1 rfl, (rules.variadic_refused 1 _).1 rfl,
    (changed.variadic_refused 1 _).1 rfl, _, rfl⟩

end Signature

end ForeignCall
