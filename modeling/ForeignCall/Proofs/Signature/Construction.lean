import ForeignCall.Signature.Interface

/-!
# Signatures that can be constructed

`Signature.Constructed` holds of what the constructors accept: types and an arity that pass the
checks, then any number of changes of the convention.  These are the signatures that pass every
check (`Signature.Admitted`, `constructed_iff_admitted`), since a change of the convention keeps
what has been checked.  Such a signature names a convention of the target, so its call interface can
always be prepared.
-/

namespace ForeignCall.Signature

/-! ## The checks -/

/-- The signature passes every check of the constructors. -/
structure Admitted (sig : Signature) : Prop where
  convention : sig.abi.isSupported = true
  declared : sig.fixedCount ≤ sig.args.length
  trailing : ∀ s, ObjectType.scalar s ∈ sig.args.drop sig.fixedCount → s.isPromoted = false

theorem argumentTypes_eq_ok_iff {types : List CType} {ts : List ObjectType} :
    argumentTypes types = .ok ts ↔ types = ts.map .object := by
  rw [← CType.objects_eq_ok_iff, argumentTypes]
  cases CType.objects types with
  | error index =>
    constructor
    · intro h
      cases h
    · intro h
      cases h
  | ok us =>
    constructor
    · intro h
      rw [Except.ok.inj h]
    · intro h
      rw [Except.ok.inj h]
      rfl

theorem checkPromoted_eq_ok_iff {index : Nat} {ts : List ObjectType} :
    checkPromoted index ts = .ok () ↔
      ∀ s, ObjectType.scalar s ∈ ts → s.isPromoted = false := by
  induction ts generalizing index with
  | nil => simp [checkPromoted]
  | cons t ts ih =>
    cases t with
    | scalar s =>
      rw [checkPromoted]
      by_cases promoted : s.isPromoted = true
      · rw [if_pos promoted]
        constructor
        · intro h
          cases h
        · intro h
          rw [h s List.mem_cons_self] at promoted
          cases promoted
      · rw [if_neg promoted, ih]
        simp_all
    | aggregate kind fields =>
      rw [checkPromoted, ih]
      simp

theorem checkCount_eq_ok_iff (sig : Signature) :
    checkCount sig.arity sig.args.length = .ok () ↔ sig.fixedCount ≤ sig.args.length := by
  unfold checkCount fixedCount
  cases sig.arity with
  | fixed => simp
  | variadic declared =>
    by_cases short : sig.args.length < declared
    · simp [short]
    · simp [Nat.not_lt.1 short]

theorem checkTrailing_eq_ok_iff (sig : Signature) :
    checkTrailing sig.arity sig.args = .ok () ↔
      ∀ s, ObjectType.scalar s ∈ sig.args.drop sig.fixedCount → s.isPromoted = false := by
  unfold checkTrailing fixedCount
  cases sig.arity with
  | fixed => simp
  | variadic declared => exact checkPromoted_eq_ok_iff

/-- A description is accepted exactly if the signature that it spells passes every check. -/
theorem ofTypes_eq_ok_iff {result : CType} {args : List CType} {arity : Arity} {sig : Signature} :
    ofTypes result args arity = .ok sig ↔
      sig.abi = .default ∧ sig.result = result ∧ sig.args.map .object = args ∧
        sig.arity = arity ∧ sig.Admitted := by
  constructor
  · intro h
    simp only [ofTypes, bind, Except.bind] at h
    rcases count : checkCount arity args.length with e | _
    · rw [count] at h
      cases h
    rcases types : argumentTypes args with e | ts
    · rw [count, types] at h
      cases h
    rcases trailing : checkTrailing arity ts with e | _
    · rw [count, types] at h
      simp only [trailing] at h
      cases h
    rw [count, types] at h
    simp only [trailing] at h
    obtain rfl := Except.ok.inj h
    obtain rfl := argumentTypes_eq_ok_iff.1 types
    rw [List.length_map] at count
    exact ⟨rfl, rfl, rfl, rfl, rfl, (checkCount_eq_ok_iff ⟨.default, result, ts, arity⟩).1 count,
      (checkTrailing_eq_ok_iff ⟨.default, result, ts, arity⟩).1 trailing⟩
  · rintro ⟨abi, rfl, rfl, rfl, admitted⟩
    have count := (checkCount_eq_ok_iff sig).2 admitted.declared
    have trailing := (checkTrailing_eq_ok_iff sig).2 admitted.trailing
    have types : argumentTypes (sig.args.map .object) = .ok sig.args :=
      argumentTypes_eq_ok_iff.2 rfl
    rw [ofTypes, List.length_map, count, types, ← abi]
    simp only [bind, Except.bind, trailing]
    rfl

/-! ## Changes of the convention -/

theorem withAbi_eq_ok_iff {sig sig' : Signature} {abi : Abi} :
    sig.withAbi abi = .ok sig' ↔ abi.isSupported = true ∧ { sig with abi := abi } = sig' := by
  rw [withAbi]
  by_cases supported : abi.isSupported = true
  · simp [supported]
  · simp [supported]

theorem Admitted.withAbi {sig sig' : Signature} {abi : Abi} (h : sig.Admitted)
    (changed : sig.withAbi abi = .ok sig') : sig'.Admitted := by
  obtain ⟨supported, rfl⟩ := withAbi_eq_ok_iff.1 changed
  exact ⟨supported, h.declared, h.trailing⟩

/-- The signature of a description after changes of its convention, one after the other. -/
def construct (result : CType) (args : List CType) (arity : Arity) (changes : List Abi) :
    Except DescriptorError Signature := do
  changes.foldlM Signature.withAbi (← ofTypes result args arity)

/-- Changes of the convention leave the last one, and all else as it was. -/
theorem foldlM_withAbi {changes : List Abi} {sig sig' : Signature} (h : sig.Admitted)
    (changed : changes.foldlM Signature.withAbi sig = .ok sig') :
    sig'.Admitted ∧ { sig with abi := changes.getLastD sig.abi } = sig' := by
  induction changes generalizing sig with
  | nil =>
    obtain rfl := Except.ok.inj changed
    exact ⟨h, rfl⟩
  | cons abi changes ih =>
    rw [List.foldlM_cons] at changed
    rcases first : sig.withAbi abi with e | next
    · rw [first] at changed
      cases changed
    · rw [first] at changed
      obtain ⟨admitted, rfl⟩ := ih (h.withAbi first) changed
      obtain ⟨-, rfl⟩ := withAbi_eq_ok_iff.1 first
      exact ⟨admitted, by rw [List.getLastD_cons]⟩

theorem of_construct {result : CType} {args : List CType} {arity : Arity} {changes : List Abi}
    {sig : Signature} (h : construct result args arity changes = .ok sig) :
    sig.Admitted ∧ sig.abi = changes.getLastD .default ∧ sig.result = result ∧
      sig.args.map .object = args ∧ sig.arity = arity := by
  rw [construct] at h
  rcases made : ofTypes result args arity with e | first
  · rw [made] at h
    cases h
  · rw [made] at h
    obtain ⟨abi, rfl, rfl, rfl, admitted⟩ := ofTypes_eq_ok_iff.1 made
    obtain ⟨admitted, rfl⟩ := foldlM_withAbi admitted h
    exact ⟨admitted, congrArg (changes.getLastD ·) abi, rfl, rfl, rfl⟩

/-! ## Constructed signatures -/

/-- The signature came out of the constructors. -/
inductive Constructed : Signature → Prop where
  | ofTypes {result args arity sig} (h : ofTypes result args arity = .ok sig) : Constructed sig
  | withAbi {sig abi sig'} (old : Constructed sig) (h : sig.withAbi abi = .ok sig') :
    Constructed sig'

theorem constructed_iff_admitted {sig : Signature} : sig.Constructed ↔ sig.Admitted := by
  constructor
  · intro h
    induction h with
    | ofTypes h =>
      obtain ⟨-, -, -, -, admitted⟩ := ofTypes_eq_ok_iff.1 h
      exact admitted
    | withAbi old h ih => exact ih.withAbi h
  · intro h
    have plain : ofTypes sig.result (sig.args.map .object) sig.arity =
        .ok { sig with abi := .default } :=
      ofTypes_eq_ok_iff.2 ⟨rfl, rfl, rfl, rfl, rfl, h.declared, h.trailing⟩
    exact .withAbi (.ofTypes plain) (withAbi_eq_ok_iff.2 ⟨h.convention, rfl⟩)

theorem Constructed.interface_ok {sig : Signature} (h : Constructed sig) :
    ∃ interface, sig.interface = .ok interface :=
  ⟨_, if_pos (constructed_iff_admitted.1 h).convention⟩

theorem fixed_objects (result : CType) (types : List ObjectType) :
    fixed result (types.map .object) = .ok ⟨.default, result, types, .fixed⟩ := by
  have objects : argumentTypes (types.map .object) = .ok types :=
    argumentTypes_eq_ok_iff.2 rfl
  simp only [fixed, ofTypes, checkCount, objects, checkTrailing]
  rfl

end ForeignCall.Signature
