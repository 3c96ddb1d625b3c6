import ForeignCall.Call
import ForeignCall.Proofs.Signature.Construction
import ForeignCall.Proofs.Value.RoundTrip

/-!
# The slots of the arguments

The slots of a call's arguments are those of the values that the arguments convert to
(`Signature.argumentSlots_eq`).  Each has room for its value, starts with all the bytes of it and is
zero from there on (`HoldsArgument`, `Marshalled`).  A call is prepared exactly if the address is not
null and the arguments are accepted (`Signature.accept`); if some argument does not convert, the
error names the first that does not (`Value.FirstRefused`).
-/

namespace ForeignCall

/-! ## Converting the arguments -/

namespace Value

/-- The values converted to the types, or the first that does not convert, numbered from
`index` on. -/
def coerceEach (index : Nat) : List ObjectType → List Value → Except ArgumentError (List Value)
  | t :: ts, v :: vs =>
    match v.coerceObject t with
    | .error e => .error (.inArgument index e)
    | .ok w =>
      match coerceEach (index + 1) ts vs with
      | .ok ws => .ok (w :: ws)
      | .error e => .error e
  | _, _ => .ok []

/-- The value numbered `i` is the first that does not convert to its type. -/
structure FirstRefused (ts : List ObjectType) (vs : List Value) (i : Nat)
    (cause : ArgumentError) : Prop where
  refused : ∃ t v, ts[i]? = some t ∧ vs[i]? = some v ∧ v.coerceObject t = .error cause
  earlier : ∀ j < i, ∀ t v, ts[j]? = some t → vs[j]? = some v → ∃ w, v.coerceObject t = .ok w

/-- Position by position, the values of the second list convert to those of the third. -/
inductive Converted : List ObjectType → List Value → List Value → Prop where
  | nil : Converted [] [] []
  | cons {t v w ts vs ws} (head : v.coerceObject t = .ok w) (tail : Converted ts vs ws) :
    Converted (t :: ts) (v :: vs) (w :: ws)

variable {index : Nat} {ts : List ObjectType} {vs ws : List Value}

theorem coerceEach_cons_error {t : ObjectType} {v : Value} {e : ArgumentError}
    (h : coerceEach index (t :: ts) (v :: vs) = .error e) :
    (∃ cause, v.coerceObject t = .error cause ∧ e = .inArgument index cause) ∨
      (∃ w, v.coerceObject t = .ok w) ∧ coerceEach (index + 1) ts vs = .error e := by
  rw [coerceEach] at h
  cases hw : v.coerceObject t with
  | error cause =>
    rw [hw] at h
    exact .inl ⟨cause, rfl, (Except.error.inj h).symm⟩
  | ok w =>
    rw [hw] at h
    refine .inr ⟨⟨w, rfl⟩, ?_⟩
    cases hws : coerceEach (index + 1) ts vs with
    | error e' => simpa only [hws] using h
    | ok ws => simp only [hws, reduceCtorEq] at h

theorem coerceEach_cons_ok {t : ObjectType} {v : Value}
    (h : coerceEach index (t :: ts) (v :: vs) = .ok ws) :
    ∃ w rest, ws = w :: rest ∧ v.coerceObject t = .ok w ∧
      coerceEach (index + 1) ts vs = .ok rest := by
  rw [coerceEach] at h
  cases hw : v.coerceObject t with
  | error cause => simp only [hw, reduceCtorEq] at h
  | ok w =>
    cases hws : coerceEach (index + 1) ts vs with
    | error e => simp only [hw, hws, reduceCtorEq] at h
    | ok rest =>
      simp only [hw, hws, Except.ok.injEq] at h
      exact ⟨w, rest, h.symm, rfl, rfl⟩

theorem firstRefused_of_coerceEach {e : ArgumentError} (h : coerceEach index ts vs = .error e) :
    ∃ i cause, FirstRefused ts vs i cause ∧ e = .inArgument (index + i) cause := by
  induction ts generalizing index vs with
  | nil => cases h
  | cons t ts ih =>
    cases vs with
    | nil => cases h
    | cons v vs =>
      obtain ⟨cause, refused, rfl⟩ | ⟨⟨w, hw⟩, rest⟩ := coerceEach_cons_error h
      · exact ⟨0, cause, ⟨⟨t, v, rfl, rfl, refused⟩, fun j hj => absurd hj (Nat.not_lt_zero j)⟩, rfl⟩
      · obtain ⟨i, cause, first, rfl⟩ := ih rest
        refine ⟨i + 1, cause, ⟨first.refused, fun j hj => ?_⟩, ?_⟩
        · cases j with
          | zero =>
            intro t' v' ht hv
            obtain rfl := Option.some.inj ht
            obtain rfl := Option.some.inj hv
            exact ⟨w, hw⟩
          | succ j => exact first.earlier j (Nat.lt_of_succ_lt_succ hj)
        · rw [Nat.add_assoc, Nat.add_comm 1 i]

theorem Converted.length {ts : List ObjectType} {vs ws : List Value} (h : Converted ts vs ws) :
    vs.length = ts.length := by
  induction h with
  | nil => rfl
  | cons head tail ih => exact congrArg Nat.succ ih

theorem converted_of_coerceEach (h : coerceEach index ts vs = .ok ws)
    (count : vs.length = ts.length) : Converted ts vs ws := by
  induction ts generalizing index vs ws with
  | nil =>
    obtain rfl := Except.ok.inj h
    obtain rfl := List.eq_nil_of_length_eq_zero count
    exact .nil
  | cons t ts ih =>
    cases vs with
    | nil => cases count
    | cons v vs =>
      obtain ⟨w, rest, rfl, head, tail⟩ := coerceEach_cons_ok h
      exact .cons head (ih tail (Nat.succ.inj count))

end Value

/-! ## Slots -/

theorem le_length_emptySlot (size : Nat) : size ≤ (emptySlot size).length := by
  rw [emptySlot, Bytes.length_zeros, wordSize]
  omega

theorem max_le_length_emptyResultSlot (t : CType) :
    max t.size wordSize ≤ (emptyResultSlot t).length :=
  le_length_emptySlot _

/-- The slot has all bytes of the value, which belongs to the type, and zeros after them. -/
structure HoldsArgument (t : ObjectType) (w : Value) (slot : Bytes) : Prop where
  complete : w.encode.length = t.size
  fits : t.size ≤ slot.length
  front : slot.take t.size = w.encode
  rest : ∀ b ∈ slot.drop t.size, b = 0

theorem holdsArgument_argumentSlot {t : ObjectType} {w : Value} (h : w.HasType (.object t)) :
    HoldsArgument t w (argumentSlot t w) := by
  have complete : w.encode.length = t.size := Value.length_encode h
  have fits : w.encode.length ≤ (emptySlot t.size).length := by
    rw [complete]
    exact le_length_emptySlot t.size
  refine ⟨complete, ?_, ?_, ?_⟩
  · rw [argumentSlot, Value.length_store]
    exact le_length_emptySlot t.size
  · rw [← complete]
    exact Bytes.take_overwrite fits
  · intro b hb
    rw [← complete, argumentSlot, Value.store, Bytes.drop_overwrite fits] at hb
    exact Bytes.eq_zero_of_mem_zeros (List.mem_of_mem_drop hb)

/-- What an argument's slot holds is read back from the bytes of its type. -/
theorem load_argumentSlot {t : ObjectType} {w : Value} (h : w.HasType (.object t)) :
    Value.load (.object t) ((argumentSlot t w).take t.size) = w := by
  rw [(holdsArgument_argumentSlot h).front, Value.load_encode h]

/-- Every argument is found in a slot of its own, converted to the type of its parameter. -/
structure Marshalled (ts : List ObjectType) (vs : List Value) (slots : List Bytes) : Prop where
  length : slots.length = ts.length
  holds : ∀ (i : Nat) (t : ObjectType) (v : Value) (slot : Bytes), ts[i]? = some t →
    vs[i]? = some v → slots[i]? = some slot →
    ∃ w, v.coerceObject t = .ok w ∧ HoldsArgument t w slot

theorem Value.Converted.marshalled {ts : List ObjectType} {vs ws : List Value}
    (h : Converted ts vs ws) : Marshalled ts vs (List.zipWith argumentSlot ts ws) := by
  induction h with
  | nil => exact ⟨rfl, fun i t v slot ht => by cases ht⟩
  | @cons t v w ts vs ws head tail ih =>
    refine ⟨congrArg Nat.succ ih.length, fun i => ?_⟩
    cases i with
    | zero =>
      intro t' v' slot ht hv hslot
      obtain rfl := Option.some.inj ht
      obtain rfl := Option.some.inj hv
      obtain rfl := Option.some.inj hslot
      exact ⟨w, head, holdsArgument_argumentSlot (hasType_coerceObject head)⟩
    | succ i => exact ih.holds i

namespace Signature

theorem argumentSlots_eq (index : Nat) (ts : List ObjectType) (vs : List Value) :
    argumentSlots index ts vs =
      (Value.coerceEach index ts vs).map (List.zipWith argumentSlot ts) := by
  induction ts generalizing index vs with
  | nil => rfl
  | cons t ts ih =>
    cases vs with
    | nil => rfl
    | cons v vs =>
      rw [argumentSlots, Value.coerceEach]
      cases v.coerceObject t with
      | error e => rfl
      | ok w =>
        simp only [ih]
        cases Value.coerceEach (index + 1) ts vs with
        | error e => rfl
        | ok ws => rfl

/-- The values converted to the types of the parameters, if there are as many and all convert. -/
def accept (sig : Signature) (values : List Value) : Except ArgumentError (List Value) :=
  if values.length ≠ sig.args.length then
    .error (.argumentCount sig.args.length values.length)
  else Value.coerceEach 0 sig.args values

theorem converted_of_accept {sig : Signature} {values ws : List Value}
    (h : sig.accept values = .ok ws) : Value.Converted sig.args values ws := by
  rw [accept] at h
  split at h
  next count => cases h
  next count => exact Value.converted_of_coerceEach h (not_not.1 count)

theorem accept_error {sig : Signature} {values : List Value} {e : ArgumentError}
    (h : sig.accept values = .error e) :
    values.length ≠ sig.args.length ∧ e = .argumentCount sig.args.length values.length ∨
      values.length = sig.args.length ∧
        ∃ i cause, Value.FirstRefused sig.args values i cause ∧ e = .inArgument i cause := by
  rw [accept] at h
  split at h
  next count => exact .inl ⟨count, (Except.error.inj h).symm⟩
  next count =>
    obtain ⟨i, cause, refused, rfl⟩ := Value.firstRefused_of_coerceEach h
    exact .inr ⟨not_not.1 count, i, cause, refused, by rw [Nat.zero_add]⟩

/-! ## The preparation of a call -/

theorem prepare_null (sig : Signature) {code : Address} (null : code = .null)
    (values : List Value) : sig.prepare code values = .error (.argument .nullFunction) :=
  if_pos null

theorem prepare_error {sig : Signature} {code : Address} {values : List Value}
    {e : ArgumentError} (entry : code ≠ .null) (h : sig.accept values = .error e) :
    sig.prepare code values = .error (.argument e) := by
  rw [accept] at h
  rw [prepare, if_neg entry]
  split at h
  next count => rw [if_pos count, Except.error.inj h]
  next count => rw [if_neg count, argumentSlots_eq, h]; rfl

theorem prepare_ok {sig : Signature} (constructed : sig.Constructed) {code : Address}
    {values ws : List Value} (entry : code ≠ .null) (h : sig.accept values = .ok ws) :
    sig.prepare code values = .ok (List.zipWith argumentSlot sig.args ws) := by
  obtain ⟨interface, prepared⟩ := constructed.interface_ok
  rw [accept] at h
  rw [prepare, if_neg entry]
  split at h
  next count => cases h
  next count => rw [if_neg count, argumentSlots_eq, h, prepared]; rfl

end Signature

end ForeignCall
