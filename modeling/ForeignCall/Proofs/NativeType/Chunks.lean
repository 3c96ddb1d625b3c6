import ForeignCall.Proofs.NativeType.Placement

/-!
# The chunks of a union

The chunks lie one after the other (`covers_chunks`), and each is settled by the scalars that have a
byte in it (`Chunk.SettledIn`): there is at least one, none reaches past the chunk, and the members
that stand for the chunk are floating-point exactly if all these scalars are.  A scalar is aligned
to its own size and a chunk starts at a multiple of the word size, so no scalar lies on both sides
of a boundary (`Chunk.leaf_inside`).
-/

namespace ForeignCall

/-- The scalar has a byte in the chunk. -/
def Chunk.Meets (c : Chunk) (l : Leaf) : Prop :=
  ∃ x, (c.start ≤ x ∧ x < c.start + c.length) ∧ l.offset ≤ x ∧ x < l.stop

/-- What the members of a chunk of the type are, and how its scalars lie in the chunk. -/
structure Chunk.SettledIn (c : Chunk) (t : ObjectType) : Prop where
  start_lt : c.start < t.size
  length_eq : c.length = min eightbyte (t.size - c.start)
  align_dvd_length : min t.align eightbyte ∣ c.length
  exists_leaf : ∃ l ∈ t.leaves, c.Meets l
  leaf_inside : ∀ l ∈ t.leaves, c.Meets l → c.start ≤ l.offset ∧ l.stop ≤ c.start + c.length
  covers_members : Covers c.start (c.start + c.length)
    (NativeType.ranges c.start ((c.members t.align t.leaves).map .scalar))
  floating_iff : (∀ m ∈ c.members t.align t.leaves, m.isFloating) ↔
    ∀ l ∈ t.leaves, c.Meets l → l.scalar.isFloating
  unsigned : (∃ l ∈ t.leaves, c.Meets l ∧ ¬ l.scalar.isFloating) →
    ∀ m ∈ c.members t.align t.leaves, m.isUnsigned

variable {t : ObjectType} {c : Chunk} {l : Leaf}

/-! ## Chunks one after the other -/

theorem covers_chunks_from (size : Nat) {k n : Nat} (hn : k + n = chunkCount size) :
    Covers (min (eightbyte * k) size) size
      (((List.range' k n).map (chunkAt size)).map fun c => (c.start, c.length)) := by
  unfold chunkCount eightbyte at hn
  induction n generalizing k with
  | zero =>
    show min (eightbyte * k) size = size
    unfold eightbyte
    omega
  | succ n ih =>
    have hstart : min (eightbyte * k) size = eightbyte * k := by unfold eightbyte; omega
    have hstop : min (eightbyte * (k + 1)) size =
        eightbyte * k + min eightbyte (size - eightbyte * k) := by unfold eightbyte; omega
    have rest := ih (k := k + 1) (by omega)
    rw [hstop] at rest
    rw [List.range'_succ, List.map_cons, List.map_cons, hstart]
    exact ⟨rfl, rest⟩

/-- The chunks of a union lie one after the other and leave nothing out. -/
theorem covers_chunks (size : Nat) :
    Covers 0 size ((chunks size).map fun c => (c.start, c.length)) := by
  have key := covers_chunks_from size (Nat.zero_add (chunkCount size))
  rwa [Nat.mul_zero, Nat.zero_min, ← List.range_eq_range'] at key

/-! ## The scalars in a chunk -/

namespace Chunk

theorem length_pos {size : Nat} (hc : c ∈ chunks size) : 0 < c.length := by
  obtain ⟨i, hi, rfl⟩ := mem_chunks_iff.1 hc
  exact length_chunkAt_pos hi

theorem align_dvd_length (hc : c ∈ chunks t.size) : t.align ∣ c.length := by
  obtain ⟨i, -, rfl⟩ := mem_chunks_iff.1 hc
  exact align_dvd_length_chunkAt t i

theorem overlaps_iff_meets (hc : 0 < c.length) : c.overlaps l = true ↔ c.Meets l := by
  have hl := l.offset_lt_stop
  rw [overlaps_iff]
  constructor
  · rintro ⟨hstart, hstop⟩
    exact ⟨max c.start l.offset, by omega, by omega, by omega⟩
  · rintro ⟨x, hx, hx'⟩
    omega

theorem exists_meets (hc : c ∈ chunks t.size) : ∃ l ∈ t.leaves, c.Meets l := by
  obtain ⟨l, hl, ho⟩ := exists_overlaps hc
  exact ⟨l, hl, (overlaps_iff_meets (length_pos hc)).1 ho⟩

/-- A scalar does not reach from one chunk into another. -/
theorem leaf_inside (hc : c ∈ chunks t.size) (hl : l ∈ t.leaves) (hm : c.Meets l) :
    c.start ≤ l.offset ∧ l.stop ≤ c.start + c.length := by
  obtain ⟨i, hi, rfl⟩ := mem_chunks_iff.1 hc
  have fits := t.fitsIn_of_mem_leaves l hl
  have ha : l.scalar.align ∣ eightbyte := l.scalar.isAlignment_align
  have bound := fits.stop_le
  have hsize : l.stop = l.offset + l.scalar.align := rfl
  obtain ⟨x, hx, hstart, hstop⟩ := hm
  unfold chunkAt at hx ⊢
  simp only at hx ⊢
  -- The offset and the boundaries of the eightbyte are multiples of the scalar's size.
  have first : eightbyte * i ≤ l.offset :=
    Nat.le_of_lt_add_of_dvd (by omega) (Nat.dvd_mul_right_of_dvd ha i) fits.align_dvd_offset
  have last : l.offset + l.scalar.align ≤ eightbyte * (i + 1) :=
    Nat.le_of_lt_add_of_dvd (by rw [Nat.mul_succ]; omega)
      (Nat.dvd_add fits.align_dvd_offset (Nat.dvd_refl _)) (Nat.dvd_mul_right_of_dvd ha (i + 1))
  rw [Nat.mul_succ] at last
  omega

theorem isFloating_iff_meets (hc : c ∈ chunks t.size) :
    c.isFloating t.leaves = true ↔ ∀ l ∈ t.leaves, c.Meets l → l.scalar.isFloating := by
  rw [isFloating_chunk_iff hc]
  simp only [overlaps_iff_meets (length_pos hc)]

/-! ## The members for a chunk -/

theorem mem_members_iff (hc : c ∈ chunks t.size) {m : NativeScalar} :
    m ∈ c.members t.align t.leaves ↔ m = c.piece t.align t.leaves := by
  have count : 0 < c.length / t.align :=
    Nat.div_pos (Nat.le_of_dvd (length_pos hc) (align_dvd_length hc)) t.isAlignment_align.pos
  rw [members_eq_replicate hc, List.mem_replicate]
  exact and_iff_right (Nat.ne_of_gt count)

theorem align_dvd_start (hc : c ∈ chunks t.size) : t.align ∣ c.start := by
  obtain ⟨i, -, rfl⟩ := mem_chunks_iff.1 hc
  exact Nat.dvd_mul_right_of_dvd t.isAlignment_align i

/-- The members lie one after the other from the start of the chunk to its end. -/
theorem covers_members (hc : c ∈ chunks t.size) : Covers c.start (c.start + c.length)
    (NativeType.ranges c.start ((c.members t.align t.leaves).map .scalar)) := by
  have hpos := t.isAlignment_align.pos
  obtain ⟨k, hk⟩ := align_dvd_start hc
  obtain ⟨n, hn⟩ := align_dvd_length hc
  have key := NativeType.covers_uniform hpos (fun _ => c.size_piece t) k n
  rwa [List.map_const', List.length_range', Nat.mul_add, ← hk, ← hn, ← List.map_replicate,
    ← Nat.mul_div_cancel_left n hpos, ← hn, ← members_eq_replicate hc] at key

theorem isUnsigned_piece {leaves : List Leaf} (hf : ¬ c.isFloating leaves = true) (align : Nat) :
    (c.piece align leaves).isUnsigned := by
  rw [piece, if_neg hf, widestUnsigned]
  repeat' split
  all_goals rfl

theorem settledIn (hc : c ∈ chunks t.size) : c.SettledIn t := by
  obtain ⟨i, hi, hci⟩ := mem_chunks_iff.1 hc
  have halign : t.align ≤ eightbyte := Nat.le_of_dvd (by decide) t.isAlignment_align
  refine ⟨by rwa [← hci], by rw [← hci]; rfl, ?_, exists_meets hc,
    fun l => leaf_inside hc, covers_members hc, ?_, ?_⟩
  · rw [Nat.min_eq_left halign]
    exact align_dvd_length hc
  · simp only [mem_members_iff hc, forall_eq, isFloating_piece, isFloating_iff_meets hc]
  · rintro ⟨l, hl, hm, hs⟩ m hmem
    rw [(mem_members_iff hc).1 hmem]
    exact isUnsigned_piece (fun hf => hs ((isFloating_iff_meets hc).1 hf l hl hm)) t.align

end Chunk

/-- A union is handed over as the members for its chunks, which lie one after the other; each chunk
has a scalar in it and is cut at no scalar, and its scalars alone decide what its members are. -/
theorem ObjectType.union_chunks_settled (fields : Fields) :
    let t := aggregate .union fields
    t.lower = .struct (((chunks t.size).flatMap fun c => c.members t.align t.leaves).map .scalar) ∧
      Covers 0 t.size ((chunks t.size).map fun c => (c.start, c.length)) ∧
      ∀ c ∈ chunks t.size, c.SettledIn t :=
  ⟨rfl, covers_chunks _, fun _ hc => Chunk.settledIn hc⟩

/-- Two floats and an integer one after the other, or a float alone. -/
def floatsThenInteger : Fields :=
  .ofList
    (.aggregate .struct (.ofList (.scalar .float32) [.scalar .float32, .scalar (.int .int32)]))
    [.scalar .float32]

/-- The floats stay floats, and the integer is handed over as an unsigned one. -/
theorem ObjectType.union_chunks_settled_floats :
    (aggregate .union floatsThenInteger).lower =
        .struct [.scalar .float, .scalar .float, .scalar .uint32] ∧
      Chunk.SettledIn ⟨0, 8⟩ (aggregate .union floatsThenInteger) ∧
      Chunk.SettledIn ⟨8, 4⟩ (aggregate .union floatsThenInteger) := by
  have settled := union_chunks_settled floatsThenInteger
  have members : unionMembers 12 4 (aggregate .union floatsThenInteger).leaves =
      [.float, .float, .uint32] := by decide +kernel
  refine ⟨settled.1.trans ?_, settled.2.2 ⟨0, 8⟩ (by decide), settled.2.2 ⟨8, 4⟩ (by decide)⟩
  exact congrArg (fun ms => NativeType.struct (ms.map .scalar)) members

end ForeignCall
