import ForeignCall.Proofs.Bytes
import ForeignCall.Proofs.Integer
import ForeignCall.Value.Coercion
import ForeignCall.Value.Encoding

/-!
# Values in memory

A value that belongs to a type has as many bytes as the type and is read back from them
(`length_encode`, `load_encode`).  What converts to a type belongs to it, and so does what is read
from enough bytes.

Storing and loading are inverse in both directions, and say as much as a buffer that is too short
allows (`store_load_inverse`).
-/

namespace ForeignCall.Value

/-! ## Types -/

theorem hasType_ofInt (t : IntType) (n : Int) : (ofInt t n).HasType (.object (.scalar (.int t))) :=
  rfl

theorem hasType_coerceScalar {s : Scalar} {v w : Value} (h : v.coerceScalar s = .ok w) :
    w.HasType (.object (.scalar s)) := by
  cases s with
  | int t =>
    simp only [coerceScalar] at h
    split at h
    · split at h
      · rw [← Except.ok.inj h]
        exact hasType_ofInt t _
      · cases h
    · cases h
  | float32 | float64 | pointer =>
    simp only [coerceScalar] at h
    split at h
    · rw [← Except.ok.inj h]
      trivial
    · cases h

theorem hasType_coerceObject {t : ObjectType} {v w : Value} (h : v.coerceObject t = .ok w) :
    w.HasType (.object t) := by
  cases t with
  | scalar s => exact hasType_coerceScalar h
  | aggregate kind fields =>
    cases v with
    | aggregate bytes =>
      simp only [coerceObject] at h
      split at h
      · rw [← Except.ok.inj h]
        assumption
      · cases h
    | _ => cases h

theorem hasType_coerce {t : CType} {v w : Value} (h : v.coerce t = .ok w) : w.HasType t := by
  cases t with
  | void =>
    cases v with
    | void => rw [← Except.ok.inj h]; trivial
    | _ => cases h
  | object t => exact hasType_coerceObject h

theorem hasType_load {t : CType} {bytes : Bytes} (h : t.size ≤ bytes.length) :
    (load t bytes).HasType t := by
  match t with
  | .void => trivial
  | .object (.scalar s) => cases s <;> trivial
  | .object (.aggregate kind fields) =>
    exact List.length_take_of_le h

/-! ## Memory -/

theorem length_encode {w : Value} {t : CType} (h : w.HasType t) : w.encode.length = t.size := by
  match t, w with
  | .void, void => rfl
  | .object (.scalar (.int _)), int u p =>
    obtain rfl : u = _ := h
    exact Bytes.length_littleEndian _ _
  | .object (.scalar .float32), float32 _ => exact Bytes.length_littleEndian _ _
  | .object (.scalar .float64), float64 _ => exact Bytes.length_littleEndian _ _
  | .object (.scalar .pointer), pointer _ => exact Bytes.length_littleEndian _ _
  | .object (.aggregate _ _), aggregate _ => exact h

theorem ofNat_littleEndian (size : Nat) (p : BitVec (8 * size)) :
    BitVec.ofNat (8 * size)
      (Bytes.ofLittleEndian ((Bytes.littleEndian size p.toNat).take size)) = p := by
  have fits : p.toNat < 256 ^ size := by
    rw [show 256 = 2 ^ 8 from rfl, ← Nat.pow_mul]
    exact p.isLt
  rw [Bytes.take_littleEndian (Nat.le_refl size), Bytes.ofLittleEndian_littleEndian,
    Nat.mod_eq_of_lt fits, BitVec.ofNat_toNat, BitVec.setWidth_eq]

theorem load_encode {w : Value} {t : CType} (h : w.HasType t) : load t w.encode = w := by
  match t, w with
  | .void, void => rfl
  | .object (.scalar (.int _)), int u p =>
    obtain rfl : u = _ := h
    exact congrArg (int u) (ofNat_littleEndian u.size p)
  | .object (.scalar .float32), float32 x => exact congrArg float32 (ofNat_littleEndian 4 x)
  | .object (.scalar .float64), float64 x => exact congrArg float64 (ofNat_littleEndian 8 x)
  | .object (.scalar .pointer), pointer a => exact congrArg pointer (ofNat_littleEndian wordSize a)
  | .object (.aggregate kind fields), aggregate bytes =>
    exact congrArg aggregate (List.take_of_length_le (Nat.le_of_eq h))

theorem load_take (t : CType) (bytes : Bytes) : load t (bytes.take t.size) = load t bytes := by
  match t with
  | .void => rfl
  | .object (.scalar s) =>
    show loadScalar s (bytes.take s.size) = loadScalar s bytes
    cases s <;> simp only [loadScalar, List.take_take, Nat.min_self]
  | .object (.aggregate kind fields) =>
    show aggregate ((bytes.take _).take _) = aggregate (bytes.take _)
    rw [List.take_take]
    exact congrArg (fun n => aggregate (bytes.take n)) (Nat.min_self _)

theorem load_zeros {t : CType} {count : Nat} (h : t.size ≤ count) :
    load t (Bytes.zeros count) = zero t := by
  rw [← load_take, Bytes.take_zeros h, zero]

/-! ## Storing and loading are inverse -/

/-- The bytes of a pattern that was read from as many bytes are these bytes. -/
theorem littleEndian_toNat_ofNat {size : Nat} {bs : Bytes} (h : bs.length = size) :
    Bytes.littleEndian size (BitVec.ofNat (8 * size) (Bytes.ofLittleEndian bs)).toNat = bs := by
  have bits : 2 ^ (8 * size) = 256 ^ size := Nat.pow_mul 2 8 size
  rw [BitVec.toNat_ofNat, bits, Bytes.littleEndian_mod, ← h, Bytes.littleEndian_ofLittleEndian]

theorem encode_loadScalar {s : Scalar} {bytes : Bytes} (h : s.size ≤ bytes.length) :
    (loadScalar s bytes).encode = bytes.take s.size := by
  have front : (bytes.take s.size).length = s.size := List.length_take_of_le h
  cases s with
  | int t => exact littleEndian_toNat_ofNat front
  | float32 => exact littleEndian_toNat_ofNat front
  | float64 => exact littleEndian_toNat_ofNat front
  | pointer => exact littleEndian_toNat_ofNat front

theorem encode_load {t : CType} {bytes : Bytes} (h : t.size ≤ bytes.length) :
    (load t bytes).encode = bytes.take t.size := by
  match t with
  | .void => rfl
  | .object (.scalar s) => exact encode_loadScalar h
  | .object (.aggregate _ _) => rfl

/-- A buffer that is too short reads as if zeros followed it, unless it is cut for an aggregate. -/
theorem load_append_zeros {t : CType} (h : t.isAggregate = false) (bytes : Bytes) (count : Nat) :
    load t (bytes ++ Bytes.zeros count) = load t bytes := by
  match t with
  | .void => rfl
  | .object (.scalar s) =>
    show loadScalar s _ = loadScalar s _
    cases s <;> simp only [loadScalar, Bytes.ofLittleEndian_take, Bytes.ofLittleEndian_append_zeros]
  | .object (.aggregate _ _) => cases h

/-- An integer is stored in two's complement. -/
theorem ofLittleEndian_encode_ofInt (t : IntType) (n : Int) :
    (Bytes.ofLittleEndian (ofInt t n).encode : Int) = n % 2 ^ t.bits := by
  have bits : 2 ^ t.bits = 256 ^ t.size := Nat.pow_mul 2 8 t.size
  show (Bytes.ofLittleEndian (Bytes.littleEndian t.size (t.wrap n).toNat) : Int) = _
  rw [Bytes.ofLittleEndian_littleEndian, ← bits, Nat.mod_eq_of_lt (BitVec.isLt _),
    t.natCast_toNat_wrap]

theorem take_store {w : Value} {count : Nat} {out : Bytes} (h : w.encode.length = count)
    (fits : count ≤ out.length) : (w.store out).take count = w.encode := by
  subst h
  exact Bytes.take_overwrite fits

section Store

variable {t : CType} {w : Value} {out : Bytes}

theorem drop_store (h : w.HasType t) (fits : t.size ≤ out.length) :
    (w.store out).drop t.size = out.drop t.size := by
  rw [← length_encode h] at fits ⊢
  exact Bytes.drop_overwrite fits

theorem load_store (h : w.HasType t) (fits : t.size ≤ out.length) : load t (w.store out) = w := by
  rw [← load_take, take_store (length_encode h) fits, load_encode h]

theorem store_of_length_le (h : w.HasType t) (short : out.length ≤ t.size) :
    w.store out = w.encode.take out.length := by
  rw [← length_encode h] at short
  exact Bytes.overwrite_of_length_le short

end Store

/-- What is stored is read back and changes no other bytes, and what is read is stored again as it
was.  A buffer that is too short takes as many bytes of a value as it holds, and gives a scalar as
if zeros followed it.  Integers are stored in two's complement. -/
theorem store_load_inverse (t : CType) :
    (∀ (w : Value) (out : Bytes), w.HasType t → t.size ≤ out.length →
      (w.store out).length = out.length ∧ (w.store out).drop t.size = out.drop t.size ∧
        load t (w.store out) = w) ∧
    (∀ bytes : Bytes, t.size ≤ bytes.length → (load t bytes).HasType t ∧
      ∀ out : Bytes, out.length = t.size → (load t bytes).store out = bytes.take t.size) ∧
    (∀ w : Value, w.HasType t → w.encode.length = t.size ∧
      (∀ out : Bytes, out.length = t.size → w.store out = w.encode) ∧
      ∀ out : Bytes, out.length < t.size → w.store out = w.encode.take out.length) ∧
    (t.isAggregate = false → ∀ (bytes : Bytes) (count : Nat),
      load t (bytes ++ Bytes.zeros count) = load t bytes) ∧
    ∀ (i : IntType) (n : Int), i.Fits n →
      (Bytes.ofLittleEndian (ofInt i n).encode : Int) = n % 2 ^ i.bits ∧
        (load (.scalar (.int i)) (ofInt i n).encode).asInteger = some n := by
  refine ⟨fun w out h fits => ⟨length_store w out, drop_store h fits, load_store h fits⟩, ?_, ?_,
    load_append_zeros, ?_⟩
  · intro bytes long
    have typed := hasType_load long
    refine ⟨typed, fun out size => ?_⟩
    rw [store_of_length_le typed size.le, encode_load long, size, List.take_take, Nat.min_self]
  · intro w h
    have size := length_encode h
    refine ⟨size, fun out same => ?_, fun out short => store_of_length_le h short.le⟩
    rw [store_of_length_le h same.le, same, ← size, List.take_length]
  · intro i n fits
    refine ⟨ofLittleEndian_encode_ofInt i n, ?_⟩
    rw [load_encode (hasType_ofInt i n)]
    exact asInteger_ofInt_of_fits fits

theorem store_load_inverse_int16 :
    load (.scalar (.int .int16)) ((ofInt .int16 (-2)).store [1, 2, 3]) = ofInt .int16 (-2) ∧
      ((ofInt .int16 (-2)).store [1, 2, 3]).drop 2 = [3] ∧
      (load (.scalar (.int .int16)) [254, 255, 3]).store [1, 2] = [254, 255] ∧
      (ofInt .int16 (-2)).store [1] = [254] ∧
      (load (.scalar (.int .int16)) (ofInt .int16 (-2)).encode).asInteger = some (-2) := by
  obtain ⟨stores, loads, cuts, -, integers⟩ := store_load_inverse (.scalar (.int .int16))
  have typed : (ofInt .int16 (-2)).HasType (.scalar (.int .int16)) := rfl
  have inside := stores _ [1, 2, 3] typed (by decide)
  refine ⟨inside.2.2, inside.2.1, ?_, ?_, (integers .int16 (-2) (by decide)).2⟩
  · exact (loads [254, 255, 3] (by decide)).2 [1, 2] rfl
  · exact (cuts _ typed).2.2 [1] (by decide)

end ForeignCall.Value
