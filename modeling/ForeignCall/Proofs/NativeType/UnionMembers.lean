import ForeignCall.NativeType.Lowering
import ForeignCall.Proofs.Layout.Leaves

/-!
# The members that stand for a union

Every chunk of a union has a scalar in it (`exists_overlaps`), and its members are copies of one
scalar as wide as the union's alignment (`Chunk.piece`, `members_eq_replicate`).  So the members of
the whole union are known by their offsets: the one at `align * i` is the piece of the chunk that
this offset lies in (`unionMembers_eq`).
-/

namespace ForeignCall

variable {t : ObjectType} {c : Chunk} {a : Nat}

/-! ## Chunks -/

/-- The chunk numbered `i` of a union of `size` bytes. -/
def chunkAt (size i : Nat) : Chunk := ⟨eightbyte * i, min eightbyte (size - eightbyte * i)⟩

/-- The number of chunks of a union of `size` bytes. -/
def chunkCount (size : Nat) : Nat := (size + (eightbyte - 1)) / eightbyte

theorem chunks_eq (size : Nat) : chunks size = (List.range (chunkCount size)).map (chunkAt size) :=
  rfl

theorem lt_chunkCount_iff {size i : Nat} : i < chunkCount size ↔ eightbyte * i < size := by
  unfold chunkCount eightbyte
  omega

theorem mem_chunks_iff {size : Nat} :
    c ∈ chunks size ↔ ∃ i, eightbyte * i < size ∧ chunkAt size i = c := by
  simp only [chunks_eq, List.mem_map, List.mem_range, lt_chunkCount_iff]

theorem length_chunkAt_pos {size i : Nat} (h : eightbyte * i < size) :
    0 < (chunkAt size i).length := by
  unfold chunkAt eightbyte at *
  simp only
  omega

namespace Chunk

theorem overlaps_iff {l : Leaf} :
    c.overlaps l = true ↔ l.offset < c.start + c.length ∧ c.start < l.stop := by
  simp [overlaps]

theorem isFloating_iff {leaves : List Leaf} :
    c.isFloating leaves = true ↔ (∃ l ∈ leaves, c.overlaps l) ∧
      ∀ l ∈ leaves, c.overlaps l → l.scalar.isFloating := by
  simp only [isFloating, Bool.and_eq_true, Bool.not_eq_true', List.isEmpty_eq_false_iff_exists_mem,
    List.mem_filter, List.all_eq_true, and_imp]

end Chunk

/-- The parts of a chunk of a type are multiples of its alignment. -/
theorem align_dvd_length_chunkAt (t : ObjectType) (i : Nat) :
    t.align ∣ (chunkAt t.size i).length := by
  have ha : t.align ∣ eightbyte := t.isAlignment_align
  rcases Nat.le_total eightbyte (t.size - eightbyte * i) with h | h
  · rwa [chunkAt, Nat.min_eq_left h]
  · rw [chunkAt, Nat.min_eq_right h]
    exact Nat.dvd_sub t.align_dvd_size (Nat.dvd_mul_right_of_dvd ha i)

/-- No chunk is padding alone. -/
theorem exists_overlaps (hc : c ∈ chunks t.size) : ∃ l ∈ t.leaves, c.overlaps l := by
  obtain ⟨i, hi, rfl⟩ := mem_chunks_iff.1 hc
  have ha : t.align ∣ eightbyte := t.isAlignment_align
  obtain ⟨l, hl, hstart, hstop⟩ := t.exists_leaf_at _ (Nat.dvd_mul_right_of_dvd ha i) hi
  refine ⟨l, hl, Chunk.overlaps_iff.2 ⟨Nat.lt_of_lt_of_le hstart ?_, hstop⟩⟩
  exact Nat.add_le_add_left
    (Nat.le_of_dvd (length_chunkAt_pos hi) (align_dvd_length_chunkAt t i)) _

theorem isFloating_chunk_iff (hc : c ∈ chunks t.size) :
    c.isFloating t.leaves = true ↔ ∀ l ∈ t.leaves, c.overlaps l → l.scalar.isFloating := by
  rw [Chunk.isFloating_iff]
  exact and_iff_right (exists_overlaps hc)

/-! ## The members of a chunk -/

theorem size_widestUnsigned (ha : IsAlignment a) : (widestUnsigned a).size = a := by
  rcases ha.cases with rfl | rfl | rfl | rfl <;> rfl

theorem unsignedMembers_mul (ha : IsAlignment a) (n : Nat) :
    unsignedMembers a (a * n) = List.replicate n (widestUnsigned a) := by
  induction n with
  | zero =>
    rw [unsignedMembers]
    rfl
  | succ n ih =>
    have hpos := ha.pos
    have hmin : min a (a * (n + 1)) = a := Nat.min_eq_left (Nat.le_mul_of_pos_right a n.succ_pos)
    have hrest : a * (n + 1) - a = a * n := by rw [Nat.mul_succ, Nat.add_sub_cancel]
    rw [unsignedMembers, if_pos (Nat.mul_pos hpos n.succ_pos)]
    simp only [hmin, size_widestUnsigned ha, hrest, ih, List.replicate_succ]

namespace Chunk

/-- The scalar that the members of the chunk are. -/
def piece (c : Chunk) (align : Nat) (leaves : List Leaf) : NativeScalar :=
  if c.isFloating leaves then if 8 ≤ align then .double else .float else widestUnsigned align

/-- A floating-point scalar in a chunk asks for an alignment of at least four. -/
theorem four_dvd_align (hf : c.isFloating t.leaves = true) : 4 ∣ t.align := by
  obtain ⟨⟨l, hl, ho⟩, hall⟩ := isFloating_iff.1 hf
  have hs := hall l hl ho
  refine Nat.dvd_trans ?_ (t.fitsIn_of_mem_leaves l hl).align_dvd
  revert hs
  cases l.scalar with
  | int | pointer => nofun
  | float32 | float64 => exact fun _ => by decide

theorem size_piece (c : Chunk) (t : ObjectType) : (c.piece t.align t.leaves).size = t.align := by
  have ha := t.isAlignment_align
  unfold piece
  by_cases hf : c.isFloating t.leaves = true
  · have h4 := four_dvd_align hf
    rw [if_pos hf]
    rcases ha.cases with h | h | h | h <;> rw [h] at h4 ⊢
    · exact absurd h4 (by decide)
    · exact absurd h4 (by decide)
    · rfl
    · rfl
  · rw [if_neg hf, size_widestUnsigned ha]

theorem isFloating_piece (c : Chunk) (align : Nat) (leaves : List Leaf) :
    (c.piece align leaves).isFloating = c.isFloating leaves := by
  unfold piece
  cases c.isFloating leaves with
  | true =>
    rw [if_pos rfl]
    split <;> rfl
  | false =>
    unfold widestUnsigned
    rw [if_neg (by decide)]
    repeat' split
    all_goals rfl

/-- The members of a chunk are equal scalars as wide as the alignment. -/
theorem members_eq_replicate (hc : c ∈ chunks t.size) :
    c.members t.align t.leaves =
      List.replicate (c.length / t.align) (c.piece t.align t.leaves) := by
  obtain ⟨i, hi, rfl⟩ := mem_chunks_iff.1 hc
  have ha := t.isAlignment_align
  obtain ⟨n, hn⟩ := align_dvd_length_chunkAt t i
  have hle : (chunkAt t.size i).length ≤ 8 := Nat.min_le_left _ _
  have hpos := length_chunkAt_pos hi
  rw [hn, Nat.mul_div_cancel_left n ha.pos]
  rw [hn] at hle hpos
  by_cases hf : (chunkAt t.size i).isFloating t.leaves = true
  · have h4 := four_dvd_align hf
    -- Only one piece of eight bytes, or one or two of four bytes, fit into a chunk.
    rcases ha.cases with h | h | h | h <;> rw [h] at h4 hn hle hpos
    · exact absurd h4 (by decide)
    · exact absurd h4 (by decide)
    · obtain rfl | rfl : n = 1 ∨ n = 2 := by omega
      · simp [members, piece, hf, hn, h]
      · simp [members, piece, hf, hn, h, List.replicate_succ]
    · obtain rfl : n = 1 := by omega
      simp [members, piece, hf, hn, h]
  · simp only [members, piece, hf, hn, unsignedMembers_mul ha]
    simp

end Chunk

/-! ## The members of a union -/

/-- The member of a union that lies at the given offset. -/
def unionMemberAt (t : ObjectType) (offset : Nat) : NativeScalar :=
  (chunkAt t.size (offset / eightbyte)).piece t.align t.leaves

theorem size_unionMemberAt (t : ObjectType) (offset : Nat) :
    (unionMemberAt t offset).size = t.align :=
  Chunk.size_piece _ t

/-- The members of a chunk by their offsets. -/
theorem members_chunkAt {t : ObjectType} {n : Nat} (hn : eightbyte * n < t.size) :
    (chunkAt t.size n).members t.align t.leaves =
      (List.range ((chunkAt t.size n).length / t.align)).map
        fun j => unionMemberAt t (eightbyte * n + t.align * j) := by
  have hall : ∀ j ∈ List.range ((chunkAt t.size n).length / t.align),
      unionMemberAt t (eightbyte * n + t.align * j) =
        (chunkAt t.size n).piece t.align t.leaves := by
    intro j hj
    have hpos := t.isAlignment_align.pos
    have hle : (chunkAt t.size n).length ≤ eightbyte := Nat.min_le_left _ _
    have hlt : t.align * (j + 1) ≤ (chunkAt t.size n).length := by
      rw [← Nat.mul_div_cancel' (align_dvd_length_chunkAt t n)]
      exact Nat.mul_le_mul_left _ (List.mem_range.1 hj)
    have hin : (eightbyte * n + t.align * j) / eightbyte = n := by
      rw [Nat.mul_succ] at hlt
      unfold eightbyte at *
      omega
    rw [unionMemberAt, hin]
  have hrep := List.map_eq_replicate_iff.2 hall
  rw [List.length_range] at hrep
  rw [hrep, Chunk.members_eq_replicate (mem_chunks_iff.2 ⟨n, hn, rfl⟩)]

/-- The members of the first `n` chunks by their offsets. -/
theorem flatMap_members_chunkAt (t : ObjectType) : ∀ n ≤ chunkCount t.size,
    ((List.range n).map (chunkAt t.size)).flatMap (fun c => c.members t.align t.leaves) =
      (List.range (min (eightbyte * n) t.size / t.align)).map
        fun i => unionMemberAt t (t.align * i) := by
  intro n
  have ha := t.isAlignment_align
  induction n with
  | zero => simp
  | succ n ih =>
    intro hn
    have hlt : eightbyte * n < t.size := lt_chunkCount_iff.1 hn
    obtain ⟨q, hq⟩ : t.align ∣ eightbyte * n := Nat.dvd_mul_right_of_dvd ha n
    obtain ⟨k, hk⟩ := align_dvd_length_chunkAt t n
    have hstop : min (eightbyte * (n + 1)) t.size = t.align * (q + k) := by
      have hsum : t.align * (q + k) = eightbyte * n + (chunkAt t.size n).length := by
        rw [Nat.mul_add, hq, hk]
      rw [hsum]
      unfold chunkAt eightbyte at *
      simp only
      omega
    rw [List.range_succ, List.map_append, List.flatMap_append, ih (Nat.le_of_succ_le hn),
      Nat.min_eq_left (Nat.le_of_lt hlt), List.map_singleton, List.flatMap_singleton,
      members_chunkAt hlt, hstop, hq, hk]
    simp only [Nat.mul_div_cancel_left _ ha.pos]
    simp only [List.range_add, List.map_append, List.map_map, Function.comp_def, Nat.mul_add]

/-- The members of a union by their offsets. -/
theorem unionMembers_eq (t : ObjectType) :
    unionMembers t.size t.align t.leaves =
      (List.range (t.size / t.align)).map fun i => unionMemberAt t (t.align * i) := by
  have hall : min (eightbyte * chunkCount t.size) t.size = t.size := by
    refine Nat.min_eq_right ?_
    unfold chunkCount eightbyte
    omega
  have key := flatMap_members_chunkAt t _ (Nat.le_refl _)
  rwa [hall] at key

end ForeignCall
