import ForeignCall.Proofs.Value.RoundTrip
import ForeignCall.Value.ReturnSlot

/-!
# Result slots

A result slot is read like memory, whether or not the type is widened (`loadResult_eq_load`).  A
narrow integer fills a register: the register has the integer's own bytes at its front
(`take_encode_ofInt_uintptr`) and extends them according to the sign
(`IntType.wrap_uintptr_eq_extend`).  So nothing of the widening can be seen in what is stored and
read back (`widened_slot_invisible`).
-/

namespace ForeignCall

namespace Value

/-! ## Registers -/

theorem take_encode_ofInt_uintptr (t : IntType) (n : Int) :
    (ofInt .uintptr n).encode.take t.size = (ofInt t n).encode := by
  have le : t.size ≤ wordSize := by cases t <;> decide
  show (Bytes.littleEndian wordSize (IntType.uintptr.wrap n).toNat).take t.size =
    Bytes.littleEndian t.size (t.wrap n).toNat
  rw [Bytes.take_littleEndian le, ← Bytes.littleEndian_mod, t.toNat_wrap_uintptr_mod]

/-! ## Slots -/

/-- The low end of the register is what lies at its front. -/
theorem loadResult_of_narrow {i : IntType} (narrow : i.size < wordSize) (slot : Bytes) :
    loadResult (.scalar (.int i)) slot = load (.scalar (.int i)) slot := by
  have bits : 256 ^ i.size = 2 ^ i.bits := (Nat.pow_mul 2 8 i.size).symm
  have front : slot.take i.size = (slot.take wordSize).take i.size := by
    rw [List.take_take, Nat.min_eq_left narrow.le]
  show (if i.size < wordSize then _ else _) = int i _
  rw [if_pos narrow]
  congr 1
  apply BitVec.eq_of_toNat_eq
  show _ = (BitVec.ofNat i.bits (Bytes.ofLittleEndian (slot.take i.size))).toNat
  rw [front, Bytes.ofLittleEndian_take i.size, BitVec.toNat_ofNat, BitVec.toNat_ofNat, bits,
    Nat.mod_mod]

theorem loadResult_eq_load (t : CType) (slot : Bytes) : loadResult t slot = load t slot := by
  match t with
  | .object (.scalar (.int i)) =>
    by_cases narrow : i.size < wordSize
    · exact loadResult_of_narrow narrow slot
    · exact if_neg narrow
  | .void => rfl
  | .object (.scalar .float32) => rfl
  | .object (.scalar .float64) => rfl
  | .object (.scalar .pointer) => rfl
  | .object (.aggregate _ _) => rfl

section Widened

variable {i : IntType} {v : Value} {n : Int}

theorem storeResult_of_narrow (narrow : i.size < wordSize) (h : v.asInteger = some n)
    (out : Bytes) :
    v.storeResult (.scalar (.int i)) out = (ofInt .uintptr n).store out := by
  have widened : (CType.scalar (.int i)).isWidened = true := decide_eq_true narrow
  rw [storeResult, if_pos widened, h, Option.getD_some]

theorem take_store_register {out : Bytes} (fits : wordSize ≤ out.length) (n : Int) :
    ((ofInt .uintptr n).store out).take wordSize = (ofInt .uintptr n).encode :=
  take_store (Bytes.length_littleEndian _ _) fits

theorem take_storeResult_of_narrow (narrow : i.size < wordSize) (h : v.asInteger = some n)
    {out : Bytes} (fits : wordSize ≤ out.length) :
    (v.storeResult (.scalar (.int i)) out).take i.size = (ofInt i n).encode := by
  rw [storeResult_of_narrow narrow h, ← take_encode_ofInt_uintptr, ← take_store_register fits,
    List.take_take, Nat.min_eq_left narrow.le]

end Widened

theorem take_storeResult {w : Value} {t : CType} (h : w.HasType t) {out : Bytes}
    (fits : max t.size wordSize ≤ out.length) :
    (w.storeResult t out).take t.size = w.encode := by
  by_cases widened : t.isWidened = true
  · match t, w with
    | .object (.scalar (.int _)), int u p =>
      obtain rfl : u = _ := h
      rw [int_eq_ofInt]
      exact take_storeResult_of_narrow (of_decide_eq_true widened)
        (asInteger_ofInt_of_fits (u.fits_toInt p)) (le_of_max_le_right fits)
  · rw [storeResult, if_neg widened]
    exact take_store (length_encode h) (le_of_max_le_left fits)

theorem load_storeResult {w : Value} {t : CType} (h : w.HasType t) {out : Bytes}
    (fits : max t.size wordSize ≤ out.length) : load t (w.storeResult t out) = w := by
  rw [← load_take, take_storeResult h fits, load_encode h]

/-- How the integer `n` lies in a slot after it was stored as a result of a narrow type. -/
structure Widened (i : IntType) (n : Int) (before after : Bytes) : Prop where
  length_eq : after.length = before.length
  register : (Bytes.ofLittleEndian (after.take wordSize) : Int) = n % 2 ^ 64
  extended : i.Fits n →
    Bytes.ofLittleEndian (after.take wordSize) = (i.extend (i.wrap n)).toNat
  rest : after.drop wordSize = before.drop wordSize
  result : loadResult (.scalar (.int i)) after = ofInt i n

theorem widened_storeResult {i : IntType} (narrow : i.size < wordSize) {v : Value} {n : Int}
    (h : v.asInteger = some n) {out : Bytes} (fits : wordSize ≤ out.length) :
    Widened i n out (v.storeResult (.scalar (.int i)) out) := by
  have stored := storeResult_of_narrow narrow h out
  have register :
      (Bytes.ofLittleEndian ((v.storeResult (.scalar (.int i)) out).take wordSize) : Int) =
        n % 2 ^ 64 := by
    rw [stored, take_store_register fits]
    exact ofLittleEndian_encode_ofInt .uintptr n
  refine ⟨length_storeResult _ _ _, register, fun inRange => ?_, ?_, ?_⟩
  · rw [← IntType.wrap_uintptr_eq_extend inRange]
    apply Int.natCast_inj.1
    exact register.trans (IntType.natCast_toNat_wrap .uintptr n).symm
  · rw [stored]
    exact drop_store (hasType_ofInt .uintptr n) fits
  · rw [loadResult_eq_load, ← load_take]
    show load _ ((v.storeResult (.scalar (.int i)) out).take i.size) = _
    rw [take_storeResult_of_narrow narrow h fits, load_encode (hasType_ofInt i n)]

/-- A result is read from its slot as from memory.  An integer that is stored as a result of a
narrow type fills the register at the front of the slot, extended if it is in the range of the type,
and is read back wrapped to the type; and every value is read back from a slot as it was stored. -/
theorem widened_slot_invisible :
    (∀ (t : CType) (slot : Bytes), loadResult t slot = load t slot) ∧
    (∀ (i : IntType) (v : Value) (n : Int) (slot : Bytes), i.size < wordSize →
      v.asInteger = some n → wordSize ≤ slot.length →
      Widened i n slot (v.storeResult (.scalar (.int i)) slot) ∧
        ∃ m, (ofInt i n).asInteger = some m ∧ i.Fits m ∧ 2 ^ i.bits ∣ n - m) ∧
    ∀ (t : CType) (w : Value), w.HasType t →
      loadResult t (w.storeResult t (Bytes.zeros (max t.size wordSize))) = w := by
  refine ⟨loadResult_eq_load,
    fun i v n slot narrow h fits => ⟨widened_storeResult narrow h fits, ?_⟩, fun t w h => ?_⟩
  · exact ⟨i.toInt (i.wrap n), rfl, i.fits_toInt _, i.dvd_sub_toInt_wrap n⟩
  · rw [loadResult_eq_load]
    exact load_storeResult h (Bytes.length_zeros _).ge

/-- A negative byte fills the register with its sign, and one that is out of range is wrapped. -/
theorem widened_slot_invisible_int8 :
    (ofInt .int64 (-3)).storeResult (.scalar (.int .int8)) [0, 0, 0, 0, 0, 0, 0, 0, 7] =
      [253, 255, 255, 255, 255, 255, 255, 255, 7] ∧
    Widened .int8 (-3) [0, 0, 0, 0, 0, 0, 0, 0, 7] [253, 255, 255, 255, 255, 255, 255, 255, 7] ∧
    Widened .int8 200 (Bytes.zeros 8) [200, 0, 0, 0, 0, 0, 0, 0] ∧
    loadResult (.scalar (.int .int16)) ((ofInt .int16 (-2)).storeResult (.scalar (.int .int16))
      (Bytes.zeros 8)) = ofInt .int16 (-2) := by
  obtain ⟨-, widened, whole⟩ := widened_slot_invisible
  refine ⟨rfl, ?_, ?_, whole (.scalar (.int .int16)) _ rfl⟩
  · exact (widened .int8 (ofInt .int64 (-3)) (-3) _ (by decide) rfl (by decide)).1
  · exact (widened .int8 (ofInt .uint8 200) 200 _ (by decide) rfl (by decide)).1

end Value

end ForeignCall
