import ForeignCall.Proofs.Call.Outcome
import ForeignCall.Proofs.NativeType.Placement

/-!
# Accepted signatures are never refused later

The native library refuses a call interface with a convention that it does not know, with more
declared arguments than there are, with a struct inside that is empty or takes no room, or with a
trailing argument that C would have promoted (`CallInterface.Accepted`).  Lowering never makes an
empty struct out of a type (`sized_lower`), and it keeps the types that are promoted apart from the
others (`isPromoted_lower`).  So what is left to check is what the constructors of signatures check
(`Signature.Admitted`, `accepted_iff_admitted`), and a change of the convention keeps it.
-/

namespace ForeignCall

/-! ## What the native library accepts -/

namespace NativeType

mutual

/-- The member lists of the structs in the type, itself included, at every depth. -/
def structs : NativeType → List (List NativeType)
  | scalar _ => []
  | struct members => members :: structsOfMembers members

def structsOfMembers : List NativeType → List (List NativeType)
  | [] => []
  | t :: ts => t.structs ++ structsOfMembers ts

end

/-- Every struct in the type has a member and takes room. -/
def Sized (t : NativeType) : Prop :=
  ∀ members ∈ t.structs, 0 < members.length ∧ 0 < (struct members).size

/-- Whether C promotes values of the type where no parameter is declared: a `float`, and every
scalar that is narrower than an `int`. -/
def isPromoted : NativeType → Bool
  | scalar s => s == .float || s.size < 4
  | struct _ => false

end NativeType

namespace CallInterface

/-- The number of declared arguments. -/
def fixedCount (i : CallInterface) : Nat :=
  match i.arity with
  | .fixed => i.args.length
  | .variadic declared => declared

/-- The native library takes the interface. -/
structure Accepted (i : CallInterface) : Prop where
  convention : i.abi.isSupported = true
  declared : i.fixedCount ≤ i.args.length
  result : ∀ t ∈ i.result, t.Sized
  args : ∀ t ∈ i.args, t.Sized
  trailing : ∀ t ∈ i.args.drop i.fixedCount, t.isPromoted = false

/-- The interface has the lowered types of a description, in order and none of them `void`. -/
structure Lowers (i : CallInterface) (result : CType) (args : List CType) (arity : Arity) :
    Prop where
  result : i.result = result.lower
  args : i.args.map some = args.map CType.lower
  arity : i.arity = arity

end CallInterface

/-! ## Lowered types -/

theorem NativeType.mem_structsOfMembers {members ts : List NativeType} :
    members ∈ structsOfMembers ts ↔ ∃ t ∈ ts, members ∈ t.structs := by
  induction ts with
  | nil => simp [structsOfMembers]
  | cons t ts ih => simp [structsOfMembers, ih]

theorem NativeType.sized_scalar (s : NativeScalar) : (scalar s).Sized := by
  intro members h
  simp [structs] at h

theorem NativeType.sized_struct {members : List NativeType} (nonempty : 0 < members.length)
    (room : 0 < (struct members).size) (each : ∀ t ∈ members, t.Sized) :
    (struct members).Sized := by
  intro inner h
  rw [structs, List.mem_cons, mem_structsOfMembers] at h
  obtain rfl | ⟨t, ht, h⟩ := h
  · exact ⟨nonempty, room⟩
  · exact each t ht inner h

/-- A union has a chunk, and so it has a member. -/
theorem ObjectType.sized_chunked (t : ObjectType) : t.chunked.Sized := by
  have room : 0 < t.chunked.size := by
    rw [t.size_chunked]
    exact t.size_pos
  apply NativeType.sized_struct
  · rw [map_scalar_unionMembers, List.length_map, List.length_range']
    exact Nat.div_pos (Nat.le_of_dvd t.size_pos t.align_dvd_size) t.isAlignment_align.pos
  · exact room
  · intro u hu
    obtain ⟨s, -, rfl⟩ := List.mem_map.1 hu
    exact NativeType.sized_scalar s

theorem ObjectType.sized_lower (t : ObjectType) : t.lower.Sized := by
  induction t using ObjectType.inductionOn with
  | scalar s => exact NativeType.sized_scalar s.lower
  | aggregate kind fields ih =>
    have room : 0 < (ObjectType.aggregate kind fields).lower.size := by
      rw [ObjectType.size_lower]
      exact ObjectType.size_pos _
    cases kind with
    | struct =>
      apply NativeType.sized_struct
      · rw [Fields.lowerEach_eq_map, List.length_map, Fields.length_toList]
        cases fields <;> exact Nat.succ_pos _
      · exact room
      · intro u hu
        rw [Fields.lowerEach_eq_map] at hu
        obtain ⟨t, ht, rfl⟩ := List.mem_map.1 hu
        exact ih t ht
    | union => exact ObjectType.sized_chunked _

theorem Scalar.isPromoted_lower (s : Scalar) :
    (NativeType.scalar s.lower).isPromoted = s.isPromoted := by
  cases s with
  | int t => cases t <;> decide
  | _ => decide

theorem ObjectType.isPromoted_lower {ts : List ObjectType} :
    (∀ n ∈ ts.map ObjectType.lower, n.isPromoted = false) ↔
      ∀ s, ObjectType.scalar s ∈ ts → s.isPromoted = false := by
  constructor
  · intro h s hs
    rw [← s.isPromoted_lower]
    exact h _ (List.mem_map.2 ⟨_, hs, rfl⟩)
  · intro h n hn
    obtain ⟨t, ht, rfl⟩ := List.mem_map.1 hn
    cases t with
    | scalar s => exact s.isPromoted_lower.trans (h s ht)
    | aggregate kind fields => cases kind <;> rfl

/-! ## The interface of a signature -/

namespace Signature

variable {sig : Signature} {i : CallInterface}

theorem of_interface (h : sig.interface = .ok i) :
    sig.abi.isSupported = true ∧ i.abi = sig.abi ∧ i.result = sig.result.lower ∧
      i.args = sig.args.map ObjectType.lower ∧ i.arity = sig.arity := by
  rw [interface] at h
  split at h
  next supported =>
    rw [← Except.ok.inj h]
    exact ⟨supported, rfl, rfl, rfl, rfl⟩
  next => cases h

theorem fixedCount_of_interface (h : sig.interface = .ok i) : i.fixedCount = sig.fixedCount := by
  obtain ⟨-, -, -, args, arity⟩ := of_interface h
  unfold CallInterface.fixedCount fixedCount
  rw [args, arity]
  cases sig.arity with
  | fixed => exact List.length_map _
  | variadic declared => rfl

theorem lowers_of_interface (h : sig.interface = .ok i) :
    i.Lowers sig.result (sig.args.map .object) sig.arity := by
  obtain ⟨-, -, result, args, arity⟩ := of_interface h
  refine ⟨result, ?_, arity⟩
  rw [args, List.map_map, List.map_map]
  rfl

theorem sized_of_interface (h : sig.interface = .ok i) :
    (∀ t ∈ i.result, t.Sized) ∧ ∀ t ∈ i.args, t.Sized := by
  obtain ⟨-, -, result, args, -⟩ := of_interface h
  rw [result, args]
  constructor
  · intro n hn
    cases lowered : sig.result with
    | void => simp [lowered, CType.lower] at hn
    | object t =>
      simp only [lowered, CType.lower, Option.mem_some_iff] at hn
      rw [← hn]
      exact t.sized_lower
  · intro n hn
    obtain ⟨t, -, rfl⟩ := List.mem_map.1 hn
    exact t.sized_lower

theorem trailing_of_interface (h : sig.interface = .ok i) :
    (∀ t ∈ i.args.drop i.fixedCount, t.isPromoted = false) ↔
      ∀ s, ObjectType.scalar s ∈ sig.args.drop sig.fixedCount → s.isPromoted = false := by
  obtain ⟨-, -, -, args, -⟩ := of_interface h
  rw [fixedCount_of_interface h, args, ← List.map_drop, ObjectType.isPromoted_lower]

/-- The native library takes the interface of a signature exactly if the signature passes the checks
of the constructors. -/
theorem accepted_iff_admitted (h : sig.interface = .ok i) : i.Accepted ↔ sig.Admitted := by
  obtain ⟨supported, abi, -, args, -⟩ := of_interface h
  obtain ⟨resultSized, argsSized⟩ := sized_of_interface h
  have count : i.args.length = sig.args.length := by
    rw [args, List.length_map]
  have declared : i.fixedCount ≤ i.args.length ↔ sig.fixedCount ≤ sig.args.length := by
    rw [fixedCount_of_interface h, count]
  have trailing := trailing_of_interface h
  constructor
  · intro accepted
    exact ⟨supported, declared.1 accepted.declared, trailing.1 accepted.trailing⟩
  · intro admitted
    exact ⟨abi ▸ supported, declared.2 admitted.declared, resultSized, argsSized,
      trailing.2 admitted.trailing⟩

/-! ## Calls -/

variable {σ : Type}

/-- Nothing is wrong with a call but its arguments. -/
theorem Constructed.kind_of_call_error (h : sig.Constructed) {machine : Machine σ} {code : Address}
    {values : List Value} {world : σ} {e : Error}
    (failed : (sig.call machine code values world).1 = .error e) : e.kind = .argument := by
  by_cases null : code = .null
  · rw [call_error (sig.prepare_null null values)] at failed
    rw [← Except.error.inj failed]
    rfl
  rcases accepted : sig.accept values with cause | ws
  · rw [call_error (prepare_error null accepted)] at failed
    rw [← Except.error.inj failed]
    rfl
  · rw [call_ok (prepare_ok h null accepted)] at failed
    cases failed

/-- A signature that has been accepted has a call interface, which lowers its description and which
the native library takes, and a call of it fails only because of the arguments. -/
theorem accepted_never_refused {result : CType} {args : List CType} {arity : Arity}
    {changes : List Abi} (h : construct result args arity changes = .ok sig) :
    (∃ i, sig.interface = .ok i ∧ i.abi = changes.getLastD .default ∧
      i.Lowers result args arity ∧ i.Accepted) ∧
    ∀ (σ : Type) (machine : Machine σ) (code : Address) (values : List Value) (world : σ)
      (e : Error), (sig.call machine code values world).1 = .error e → e.kind = .argument := by
  obtain ⟨admitted, abi, rfl, rfl, rfl⟩ := of_construct h
  have constructed := constructed_iff_admitted.2 admitted
  obtain ⟨i, prepared⟩ := constructed.interface_ok
  obtain ⟨-, same, -⟩ := of_interface prepared
  refine ⟨⟨i, prepared, same.trans abi, lowers_of_interface prepared,
    (accepted_iff_admitted prepared).2 admitted⟩, ?_⟩
  intro σ machine code values world e failed
  exact constructed.kind_of_call_error failed

/-- A union of a byte and a pair of floats. -/
def byteOrFloats : ObjectType :=
  .aggregate .union (.ofList (.scalar (.int .uint8))
    [.aggregate .struct (.ofList (.scalar .float32) [.scalar .float32])])

/-- The variadic call of a function with one declared parameter, a pointer, and the union. -/
def unionCall : Signature := ⟨.sysv, .void, [.scalar .pointer, byteOrFloats], .variadic 1⟩

theorem accepted_never_refused_union :
    (∃ i, unionCall.interface = .ok i ∧ i.abi = .sysv ∧
      i.Lowers .void [.scalar .pointer, .object byteOrFloats] (.variadic 1) ∧ i.Accepted) ∧
    ∀ (σ : Type) (machine : Machine σ) (code : Address) (values : List Value) (world : σ)
      (e : Error), (unionCall.call machine code values world).1 = .error e →
      e.kind = .argument := by
  have made : construct .void [.scalar .pointer, .object byteOrFloats] (.variadic 1)
      [.sysv, .default, .sysv] = .ok unionCall := rfl
  exact accepted_never_refused made

end Signature

end ForeignCall
