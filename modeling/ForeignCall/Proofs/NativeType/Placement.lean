import ForeignCall.Proofs.NativeType.UnionMembers
import Mathlib.Data.List.Forall2

/-!
# Lowered types keep their layout

`ObjectType.LaidOutAs t n` says that the call interface lays `n` out like `t`: size and alignment
agree, and so do the offsets of the fields in every struct inside, while the members that stand for
a union cover it without a gap.  Every type is laid out so by its lowered form
(`laidOutAs_lower`), which follows from the sizes and alignments (`size_lower`, `align_lower`).
-/

namespace ForeignCall

/-! ## Byte ranges -/

/-- The ranges, each an offset and a size, lie one after the other from `start` to `stop`. -/
def Covers (start stop : Nat) : List (Nat × Nat) → Prop
  | [] => start = stop
  | (offset, size) :: rest => offset = start ∧ Covers (start + size) stop rest

namespace NativeType

/-- The ranges of the members of a struct. -/
def ranges (start : Nat) (members : List NativeType) : List (Nat × Nat) :=
  (offsetsOfMembers start members).zip (members.map size)

/-! ## Members one by one -/

theorem one_le_alignOfMembers : (ms : List NativeType) → 1 ≤ alignOfMembers ms
  | [] => Nat.le_refl 1
  | _ :: ms => Nat.le_trans (one_le_alignOfMembers ms) (Nat.le_max_right _ _)

theorem alignOfMembers_append (ms ns : List NativeType) :
    alignOfMembers (ms ++ ns) = max (alignOfMembers ms) (alignOfMembers ns) := by
  induction ms with
  | nil => exact (Nat.max_eq_right (one_le_alignOfMembers ns)).symm
  | cons m ms ih => rw [List.cons_append, alignOfMembers, ih, alignOfMembers, Nat.max_assoc]

theorem endOfMembers_append (start : Nat) (ms ns : List NativeType) :
    endOfMembers start (ms ++ ns) = endOfMembers (endOfMembers start ms) ns := by
  induction ms generalizing start with
  | nil => rfl
  | cons m ms ih => rw [List.cons_append, endOfMembers, ih, endOfMembers]

theorem offsetsOfMembers_append (start : Nat) (ms ns : List NativeType) :
    offsetsOfMembers start (ms ++ ns) =
      offsetsOfMembers start ms ++ offsetsOfMembers (endOfMembers start ms) ns := by
  induction ms generalizing start with
  | nil => rfl
  | cons m ms ih =>
    rw [List.cons_append, offsetsOfMembers, ih, offsetsOfMembers, endOfMembers, List.cons_append]

theorem leavesOfMembers_append (start : Nat) (ms ns : List NativeType) :
    leavesOfMembers start (ms ++ ns) =
      leavesOfMembers start ms ++ leavesOfMembers (endOfMembers start ms) ns := by
  induction ms generalizing start with
  | nil => rfl
  | cons m ms ih =>
    rw [List.cons_append, leavesOfMembers, ih, leavesOfMembers, endOfMembers, List.append_assoc]

/-! ## Members of one size -/

section Uniform

variable {f : Nat → NativeScalar} {a : Nat}

theorem alignOfMembers_uniform (ha : 0 < a) (hf : ∀ i, (f i).size = a) (k n : Nat) :
    alignOfMembers ((List.range' k (n + 1)).map fun i => scalar (f i)) = a := by
  induction n generalizing k with
  | zero =>
    show max (f k).size 1 = a
    rw [hf, Nat.max_eq_left ha]
  | succ n ih =>
    rw [List.range'_succ, List.map_cons, alignOfMembers, ih, align, hf, Nat.max_self]

theorem leastMultiple_uniform (ha : 0 < a) (hf : ∀ i, (f i).size = a) (k : Nat) :
    leastMultiple (a * k) (scalar (f k)).align = a * k := by
  rw [align, hf]
  exact leastMultiple_of_dvd ha (Nat.dvd_mul_right a k)

theorem endOfMembers_uniform (ha : 0 < a) (hf : ∀ i, (f i).size = a) (k n : Nat) :
    endOfMembers (a * k) ((List.range' k n).map fun i => scalar (f i)) = a * (k + n) := by
  induction n generalizing k with
  | zero => rfl
  | succ n ih =>
    rw [List.range'_succ, List.map_cons, endOfMembers, leastMultiple_uniform ha hf, size, hf,
      ← Nat.mul_succ, ih (k + 1), Nat.add_right_comm, Nat.add_assoc]

theorem covers_uniform (ha : 0 < a) (hf : ∀ i, (f i).size = a) (k n : Nat) :
    Covers (a * k) (a * (k + n))
      (ranges (a * k) ((List.range' k n).map fun i => scalar (f i))) := by
  induction n generalizing k with
  | zero => exact rfl
  | succ n ih =>
    have key := ih (k + 1)
    rw [Nat.add_right_comm, Nat.add_assoc] at key
    rw [ranges, List.range'_succ, List.map_cons, offsetsOfMembers, leastMultiple_uniform ha hf, size,
      hf, ← Nat.mul_succ, List.map_cons, List.zip_cons_cons, size, hf]
    exact ⟨rfl, key⟩

theorem leavesOfMembers_uniform (ha : 0 < a) (hf : ∀ i, (f i).size = a) (k n : Nat) :
    leavesOfMembers (a * k) ((List.range' k n).map fun i => scalar (f i)) =
      (List.range' k n).map fun i => (a * i, f i) := by
  induction n generalizing k with
  | zero => rfl
  | succ n ih =>
    rw [List.range'_succ, List.map_cons, leavesOfMembers, leastMultiple_uniform ha hf, size, hf,
      ← Nat.mul_succ, ih (k + 1)]
    rfl

end Uniform

end NativeType

/-! ## Sizes and alignments of lowered types -/

namespace ObjectType

/-- The struct that stands for the chunks of a type. -/
def chunked (t : ObjectType) : NativeType :=
  .struct ((unionMembers t.size t.align t.leaves).map .scalar)

variable (t : ObjectType)

theorem map_scalar_unionMembers :
    (unionMembers t.size t.align t.leaves).map NativeType.scalar =
      (List.range' 0 (t.size / t.align)).map fun i => .scalar (unionMemberAt t (t.align * i)) := by
  rw [unionMembers_eq, List.map_map, List.range_eq_range']
  rfl

theorem align_chunked : t.chunked.align = t.align := by
  have ha := t.isAlignment_align
  obtain ⟨n, hn⟩ : ∃ n, t.size / t.align = n + 1 :=
    Nat.exists_eq_add_one.2 (Nat.div_pos (Nat.le_of_dvd t.size_pos t.align_dvd_size) ha.pos)
  rw [chunked, NativeType.align, map_scalar_unionMembers, hn]
  exact NativeType.alignOfMembers_uniform ha.pos (fun i => size_unionMemberAt t _) 0 n

theorem size_chunked : t.chunked.size = t.size := by
  have ha := t.isAlignment_align
  have hend := NativeType.endOfMembers_uniform ha.pos
    (fun i => size_unionMemberAt t (t.align * i)) 0 (t.size / t.align)
  rw [Nat.mul_zero, Nat.zero_add, Nat.mul_div_cancel' t.align_dvd_size] at hend
  have halign := t.align_chunked
  rw [chunked, NativeType.align] at halign
  rw [chunked, NativeType.size, halign, map_scalar_unionMembers, hend]
  exact leastMultiple_of_dvd ha.pos t.align_dvd_size

/-- The members that stand for the chunks cover the type. -/
theorem covers_chunked :
    Covers 0 t.size (NativeType.ranges 0 ((unionMembers t.size t.align t.leaves).map .scalar)) := by
  have key := NativeType.covers_uniform t.isAlignment_align.pos
    (fun i => size_unionMemberAt t (t.align * i)) 0 (t.size / t.align)
  rw [Nat.mul_zero, Nat.zero_add, Nat.mul_div_cancel' t.align_dvd_size] at key
  rw [map_scalar_unionMembers]
  exact key

theorem mem_leaves_chunked_iff {x : Nat × NativeScalar} :
    x ∈ t.chunked.leaves ↔
      ∃ i, t.align * i < t.size ∧ (t.align * i, unionMemberAt t (t.align * i)) = x := by
  have ha := t.isAlignment_align
  have key := NativeType.leavesOfMembers_uniform ha.pos
    (fun i => size_unionMemberAt t (t.align * i)) 0 (t.size / t.align)
  have hlt : ∀ i, i < t.size / t.align ↔ t.align * i < t.size := by
    intro i
    rw [← Nat.mul_lt_mul_left ha.pos, Nat.mul_div_cancel' t.align_dvd_size]
  rw [Nat.mul_zero] at key
  rw [chunked, NativeType.leaves, map_scalar_unionMembers, key, ← List.range_eq_range']
  simp only [List.mem_map, List.mem_range, hlt]

end ObjectType

mutual

theorem ObjectType.align_lower : (t : ObjectType) → t.lower.align = t.align
  | .scalar s => s.size_lower
  | .aggregate .struct fields => fields.alignOfMembers_lowerEach
  | .aggregate .union _ => ObjectType.align_chunked _

theorem Fields.alignOfMembers_lowerEach :
    (fs : Fields) → NativeType.alignOfMembers fs.lowerEach = fs.align
  | .single t => by
    rw [Fields.lowerEach, NativeType.alignOfMembers, t.align_lower]
    exact Nat.max_eq_left t.isAlignment_align.pos
  | .push earlier t => by
    rw [Fields.lowerEach, NativeType.alignOfMembers_append, earlier.alignOfMembers_lowerEach,
      NativeType.alignOfMembers, t.align_lower]
    exact congrArg (max _) (Nat.max_eq_left t.isAlignment_align.pos)

end

mutual

theorem ObjectType.size_lower : (t : ObjectType) → t.lower.size = t.size
  | .scalar s => s.size_lower
  | .aggregate .struct fields => by
    rw [ObjectType.lower, NativeType.size, fields.endOfMembers_lowerEach,
      fields.alignOfMembers_lowerEach, ObjectType.size_aggregate]
    rfl
  | .aggregate .union _ => ObjectType.size_chunked _

theorem Fields.endOfMembers_lowerEach :
    (fs : Fields) → NativeType.endOfMembers 0 fs.lowerEach = fs.structEnd
  | .single t => by
    rw [Fields.lowerEach, NativeType.endOfMembers, NativeType.endOfMembers, t.size_lower,
      t.align_lower, leastMultiple_of_dvd t.isAlignment_align.pos (Nat.dvd_zero _), Nat.zero_add]
    rfl
  | .push earlier t => by
    rw [Fields.lowerEach, NativeType.endOfMembers_append, earlier.endOfMembers_lowerEach,
      NativeType.endOfMembers, NativeType.endOfMembers, t.size_lower, t.align_lower,
      ← Fields.nextOffset_struct, Fields.structEnd_push]

end

/-- The call interface places the fields of a struct where they lie. -/
theorem Fields.offsetsOfMembers_lowerEach :
    (fs : Fields) → NativeType.offsetsOfMembers 0 fs.lowerEach = (fs.placed .struct).map Prod.fst
  | .single t => by
    rw [Fields.lowerEach, NativeType.offsetsOfMembers, NativeType.offsetsOfMembers, t.align_lower,
      leastMultiple_of_dvd t.isAlignment_align.pos (Nat.dvd_zero _)]
    rfl
  | .push earlier t => by
    rw [Fields.lowerEach, NativeType.offsetsOfMembers_append, offsetsOfMembers_lowerEach earlier,
      earlier.endOfMembers_lowerEach, NativeType.offsetsOfMembers, NativeType.offsetsOfMembers,
      t.align_lower, ← Fields.nextOffset_struct, Fields.placed_push, List.map_append]
    rfl

theorem Fields.lowerEach_eq_map : (fs : Fields) → fs.lowerEach = fs.toList.map ObjectType.lower
  | .single t => rfl
  | .push earlier t => by
    rw [Fields.lowerEach, lowerEach_eq_map earlier, Fields.toList_push, List.map_append]
    rfl

/-! ## The layout of lowered types -/

/-- The call interface lays the type out like an object type. -/
inductive ObjectType.LaidOutAs : ObjectType → NativeType → Prop where
  | scalar {s : Scalar} {n : NativeScalar} (size_eq : n.size = s.size) :
    LaidOutAs (.scalar s) (.scalar n)
  /-- Every field has its offset, and its own layout. -/
  | struct {fields : Fields} {members : List NativeType}
    (size_eq : (NativeType.struct members).size = (ObjectType.aggregate .struct fields).size)
    (align_eq : (NativeType.struct members).align = (ObjectType.aggregate .struct fields).align)
    (offsets_eq : NativeType.offsetsOfMembers 0 members = Layout.offsets ⟨.struct, fields⟩)
    (each : List.Forall₂ LaidOutAs fields.toList members) :
    LaidOutAs (.aggregate .struct fields) (.struct members)
  /-- The members leave no gap. -/
  | union {fields : Fields} {members : List NativeType}
    (size_eq : (NativeType.struct members).size = (ObjectType.aggregate .union fields).size)
    (align_eq : (NativeType.struct members).align = (ObjectType.aggregate .union fields).align)
    (covers : Covers 0 (ObjectType.aggregate .union fields).size (NativeType.ranges 0 members)) :
    LaidOutAs (.aggregate .union fields) (.struct members)

theorem ObjectType.laidOutAs_lower (t : ObjectType) : t.LaidOutAs t.lower := by
  induction t using ObjectType.inductionOn with
  | scalar s => exact .scalar s.size_lower
  | aggregate kind fields ih =>
    have hsize := (ObjectType.aggregate kind fields).size_lower
    have halign := (ObjectType.aggregate kind fields).align_lower
    cases kind with
    | struct =>
      refine .struct hsize halign fields.offsetsOfMembers_lowerEach ?_
      rw [Fields.lowerEach_eq_map, List.forall₂_map_right_iff, List.forall₂_same]
      exact ih
    | union => exact .union hsize halign (ObjectType.covers_chunked _)

/-- Lowering keeps size, alignment and the place of every field; only `void` has no lowered form. -/
theorem CType.lower_keeps_layout (t : CType) :
    (t = .void ∧ t.lower = none) ∨
      ∃ u n, t = .object u ∧ t.lower = some n ∧ n.size = t.size ∧ n.align = t.align ∧
        u.LaidOutAs n := by
  cases t with
  | void => exact Or.inl ⟨rfl, rfl⟩
  | object u => exact Or.inr ⟨u, u.lower, rfl, rfl, u.size_lower, u.align_lower, u.laidOutAs_lower⟩

end ForeignCall
