import ForeignCall.Proofs.NativeType.Placement

/-!
# Register classes of lowered types

An eightbyte travels in a vector register if only floating-point scalars reach into it.  A union is
cut into chunks from its own start, eightbytes are counted from the start of the whole value.  So a
union that starts in the middle of an eightbyte may have a chunk with an integer on the other side
of a boundary (`ObjectType.Straddled`).  An eightbyte loses its class by lowering exactly then, and
none ever gains it (`isVector_lower_iff`).
-/

namespace ForeignCall

/-! ## Classes -/

/-- The bytes from `start` to `stop` reach into the eightbyte numbered `k`. -/
def ReachesEightbyte (k start stop : Nat) : Prop :=
  start < eightbyte * (k + 1) ∧ eightbyte * k < stop

instance (k start stop : Nat) : Decidable (ReachesEightbyte k start stop) :=
  inferInstanceAs (Decidable (_ ∧ _))

/-- Only floating-point scalars of the type, which lies at `base`, reach into the eightbyte. -/
def ObjectType.IsVectorAt (t : ObjectType) (base k : Nat) : Prop :=
  ∀ l ∈ t.leaves, ReachesEightbyte k (base + l.offset) (base + l.stop) → l.scalar.isFloating

/-- Only floating-point scalars of the lowered type, which lies at `base`, reach into the
eightbyte. -/
def NativeType.IsVectorAt (n : NativeType) (base k : Nat) : Prop :=
  ∀ l ∈ n.leaves, ReachesEightbyte k (base + l.1) (base + l.1 + l.2.size) → l.2.isFloating

/-- The eightbyte of the type travels in a vector register. -/
def ObjectType.IsVector (t : ObjectType) (k : Nat) : Prop := t.IsVectorAt 0 k

/-- The eightbyte of the lowered type travels in a vector register. -/
def NativeType.IsVector (n : NativeType) (k : Nat) : Prop := n.IsVectorAt 0 k

instance (t : ObjectType) (k : Nat) : Decidable (t.IsVector k) :=
  inferInstanceAs (Decidable (∀ l ∈ t.leaves, _ → _))

instance (n : NativeType) (k : Nat) : Decidable (n.IsVector k) :=
  inferInstanceAs (Decidable (∀ l ∈ n.leaves, _ → _))

mutual

/-- The scalars and the unions that a type is made of, with their offsets, when structs are taken
apart. -/
def ObjectType.parts : ObjectType → List (Nat × ObjectType)
  | .scalar s => [(0, .scalar s)]
  | .aggregate .struct fields => fields.parts
  | .aggregate .union fields => [(0, .aggregate .union fields)]

/-- The parts of the fields of a struct. -/
def Fields.parts : Fields → List (Nat × ObjectType)
  | .single t => t.parts
  | .push earlier t =>
    earlier.parts ++ t.parts.map fun p => (earlier.nextOffset .struct t + p.1, p.2)

end

/-- The type lies at `base`, which is not where an eightbyte starts, and one of its chunks reaches
into the eightbyte and has an integer or a pointer in it. -/
def ObjectType.StraddledAt (t : ObjectType) (base k : Nat) : Prop :=
  ¬ eightbyte ∣ base ∧ ∃ c ∈ chunks t.size,
    ReachesEightbyte k (base + c.start) (base + c.start + c.length) ∧
      ∃ l ∈ t.leaves, c.overlaps l ∧ ¬ l.scalar.isFloating

/-- A union inside the type has a chunk that reaches into the eightbyte from another one, or from
the same one, with an integer or a pointer. -/
def ObjectType.Straddled (t : ObjectType) (k : Nat) : Prop :=
  ∃ base fields, (base, aggregate .union fields) ∈ t.parts ∧
    (aggregate .union fields).StraddledAt base k

/-! ## Taking structs apart -/

mutual

theorem ObjectType.leaves_eq_parts : (t : ObjectType) →
    t.leaves = t.parts.flatMap fun p => p.2.leaves.map (Leaf.shift p.1)
  | .scalar s => by
    simp [ObjectType.parts]
  | .aggregate .struct fields => fields.leaves_eq_parts
  | .aggregate .union fields => by
    simp [ObjectType.parts]

theorem Fields.leaves_eq_parts : (fs : Fields) →
    fs.leaves .struct = fs.parts.flatMap fun p => p.2.leaves.map (Leaf.shift p.1)
  | .single t => t.leaves_eq_parts
  | .push earlier t => by
    rw [Fields.leaves, earlier.leaves_eq_parts, t.leaves_eq_parts, Fields.parts,
      List.flatMap_append, List.flatMap_map, List.map_flatMap]
    simp only [List.map_map, Function.comp_def, Leaf.shift_shift]

end

mutual

theorem ObjectType.leaves_lower_eq_parts : (t : ObjectType) →
    t.lower.leaves = t.parts.flatMap fun p => p.2.lower.leaves.map fun x => (p.1 + x.1, x.2)
  | .scalar s => by
    simp [ObjectType.parts]
  | .aggregate .struct fields => fields.leavesOfMembers_lowerEach
  | .aggregate .union fields => by
    simp [ObjectType.parts]

theorem Fields.leavesOfMembers_lowerEach : (fs : Fields) →
    NativeType.leavesOfMembers 0 fs.lowerEach =
      fs.parts.flatMap fun p => p.2.lower.leaves.map fun x => (p.1 + x.1, x.2)
  | .single t => by
    rw [Fields.lowerEach, NativeType.leavesOfMembers, NativeType.leavesOfMembers, t.align_lower,
      leastMultiple_of_dvd t.isAlignment_align.pos (Nat.dvd_zero _), List.append_nil]
    simp only [Nat.zero_add]
    exact (List.map_id' _).trans t.leaves_lower_eq_parts
  | .push earlier t => by
    rw [Fields.lowerEach, NativeType.leavesOfMembers_append, earlier.leavesOfMembers_lowerEach,
      earlier.endOfMembers_lowerEach, NativeType.leavesOfMembers, NativeType.leavesOfMembers,
      List.append_nil, t.align_lower, t.leaves_lower_eq_parts, ← Fields.nextOffset_struct,
      Fields.parts, List.flatMap_append, List.flatMap_map, List.map_flatMap]
    simp only [List.map_map, Function.comp_def, Nat.add_assoc]

end

section Parts

variable (t : ObjectType) (base k : Nat)

theorem ObjectType.isVectorAt_iff_parts :
    t.IsVectorAt base k ↔ ∀ p ∈ t.parts, p.2.IsVectorAt (base + p.1) k := by
  unfold IsVectorAt
  rw [t.leaves_eq_parts]
  simp only [List.forall_mem_flatMap, List.forall_mem_map, Leaf.stop_shift, Nat.add_assoc]
  rfl

theorem ObjectType.isVectorAt_lower_iff_parts :
    t.lower.IsVectorAt base k ↔ ∀ p ∈ t.parts, p.2.lower.IsVectorAt (base + p.1) k := by
  unfold NativeType.IsVectorAt
  rw [t.leaves_lower_eq_parts]
  simp only [List.forall_mem_flatMap, List.forall_mem_map, Nat.add_assoc]

end Parts

/-! ## Scalars and unions -/

theorem reachesEightbyte_iff {k start stop : Nat} (h : start < stop) :
    ReachesEightbyte k start stop ↔ ∃ y, start ≤ y ∧ y < stop ∧ y / eightbyte = k := by
  unfold ReachesEightbyte eightbyte
  constructor
  · rintro ⟨hstart, hstop⟩
    exact ⟨max start (8 * k), by omega, by omega, by omega⟩
  · rintro ⟨y, hstart, hstop, rfl⟩
    omega

theorem Scalar.isVectorAt_lower_iff (s : Scalar) (base k : Nat) :
    (ObjectType.scalar s).lower.IsVectorAt base k ↔ (ObjectType.scalar s).IsVectorAt base k := by
  unfold NativeType.IsVectorAt ObjectType.IsVectorAt
  simp [ObjectType.lower, NativeType.leaves, ObjectType.leaves, Leaf.stop]

/-- Every byte of a type lies in one of its chunks. -/
theorem mem_chunkAt {size x : Nat} (hx : x < size) :
    (chunkAt size (x / eightbyte)).start ≤ x ∧
      x < (chunkAt size (x / eightbyte)).start + (chunkAt size (x / eightbyte)).length := by
  unfold chunkAt eightbyte
  simp only
  omega

theorem chunkAt_mem_chunks {size x : Nat} (hx : x < size) :
    chunkAt size (x / eightbyte) ∈ chunks size :=
  mem_chunks_iff.2 ⟨_, Nat.lt_of_le_of_lt (Nat.mul_div_le x eightbyte) hx, rfl⟩

/-- A member of a union does not cross the end of its chunk. -/
theorem stop_unionMember_le {t : ObjectType} {i : Nat} (hi : t.align * i < t.size) :
    let c := chunkAt t.size (t.align * i / eightbyte)
    t.align * i + t.align ≤ c.start + c.length := by
  intro c
  have hstart : t.align ∣ c.start := Nat.dvd_mul_right_of_dvd t.isAlignment_align _
  have hstop := Nat.dvd_add hstart (align_dvd_length_chunkAt t (t.align * i / eightbyte))
  have hlt := (mem_chunkAt hi).2
  exact Nat.le_of_lt_add_of_dvd (Nat.add_lt_add_right hlt t.align)
    (Nat.dvd_add (Nat.dvd_mul_right _ _) (Nat.dvd_refl _)) hstop

section Union

variable (t : ObjectType) (base k : Nat)

/-- The struct for a union has the classes of the chunks. -/
theorem ObjectType.isVectorAt_chunked_iff :
    t.chunked.IsVectorAt base k ↔ ∀ c ∈ chunks t.size,
      ReachesEightbyte k (base + c.start) (base + c.start + c.length) →
        c.isFloating t.leaves = true := by
  have hpos := t.isAlignment_align.pos
  unfold NativeType.IsVectorAt
  constructor
  · intro h c hc hreach
    obtain ⟨n, hn, rfl⟩ := mem_chunks_iff.1 hc
    have hlen := length_chunkAt_pos hn
    obtain ⟨y, hy, hy', rfl⟩ := (reachesEightbyte_iff (by omega)).1 hreach
    obtain ⟨x, rfl⟩ : ∃ x, y = base + x := ⟨y - base, by omega⟩
    -- The member that the byte `x` of the union lies in.
    obtain ⟨i, hle, hlt⟩ : ∃ i, t.align * i ≤ x ∧ x < t.align * i + t.align :=
      ⟨x / t.align, Nat.mul_div_le x t.align, Nat.lt_mul_div_succ x hpos⟩
    have hstart : (chunkAt t.size n).start ≤ t.align * i :=
      Nat.le_of_lt_add_of_dvd (by omega) (Nat.dvd_mul_right_of_dvd t.isAlignment_align n)
        (Nat.dvd_mul_right _ _)
    have hin : t.align * i / eightbyte = n ∧ t.align * i < t.size := by
      unfold chunkAt eightbyte at *
      simp only at hy' hstart
      omega
    have hx := h _ (t.mem_leaves_chunked_iff.2 ⟨i, hin.2, rfl⟩)
    rw [size_unionMemberAt, unionMemberAt, hin.1, Chunk.isFloating_piece] at hx
    exact hx ((reachesEightbyte_iff (by omega)).2 ⟨base + x, by omega, by omega, rfl⟩)
  · intro h x hx hreach
    obtain ⟨i, hi, rfl⟩ := t.mem_leaves_chunked_iff.1 hx
    have hin := mem_chunkAt hi
    have hstop := stop_unionMember_le hi
    rw [size_unionMemberAt] at hreach
    rw [unionMemberAt, Chunk.isFloating_piece]
    refine h _ (chunkAt_mem_chunks hi) ?_
    unfold ReachesEightbyte at *
    omega

theorem ObjectType.isVectorAt_chunked_iff_not_straddledAt :
    t.chunked.IsVectorAt base k ↔ t.IsVectorAt base k ∧ ¬ t.StraddledAt base k := by
  rw [t.isVectorAt_chunked_iff]
  constructor
  · intro h
    refine ⟨fun l hl hreach => ?_, ?_⟩
    · have hstop : l.stop ≤ t.size := (t.fitsIn_of_mem_leaves l hl).stop_le
      have hlt : base + l.offset < base + l.stop := Nat.add_lt_add_left l.offset_lt_stop base
      obtain ⟨y, hy, hy', rfl⟩ := (reachesEightbyte_iff hlt).1 hreach
      obtain ⟨x, rfl⟩ : ∃ x, y = base + x := ⟨y - base, by omega⟩
      have hx : x < t.size := by omega
      have hin := mem_chunkAt hx
      have hc := chunkAt_mem_chunks hx
      refine (isFloating_chunk_iff hc).1 (h _ hc ?_) l hl (Chunk.overlaps_iff.2 (by omega))
      exact (reachesEightbyte_iff (by omega)).2 ⟨base + x, by omega, by omega, rfl⟩
    · rintro ⟨-, c, hc, hreach, l, hl, ho, hs⟩
      exact hs ((isFloating_chunk_iff hc).1 (h c hc hreach) l hl ho)
  · rintro ⟨hvector, hcross⟩ c hc hreach
    refine (isFloating_chunk_iff hc).2 fun l hl ho => ?_
    by_cases hbase : eightbyte ∣ base
    · -- The chunk is a part of the eightbyte.
      refine hvector l hl ?_
      obtain ⟨n, hn, rfl⟩ := mem_chunks_iff.1 hc
      obtain ⟨b, rfl⟩ := hbase
      have ho := Chunk.overlaps_iff.1 ho
      unfold ReachesEightbyte chunkAt eightbyte at *
      simp only at hreach ho
      omega
    · by_contra hs
      exact hcross ⟨hbase, c, hc, hreach, l, hl, ho, hs⟩

end Union

/-! ## All types -/

mutual

theorem ObjectType.cases_of_mem_parts {p : Nat × ObjectType} : (t : ObjectType) → p ∈ t.parts →
    (∃ s, p.2 = .scalar s) ∨ ∃ fields, p.2 = .aggregate .union fields
  | .scalar s, hp => by
    obtain rfl := List.mem_singleton.1 hp
    exact Or.inl ⟨s, rfl⟩
  | .aggregate .struct fields, hp => fields.cases_of_mem_parts hp
  | .aggregate .union fields, hp => by
    obtain rfl := List.mem_singleton.1 hp
    exact Or.inr ⟨fields, rfl⟩

theorem Fields.cases_of_mem_parts {p : Nat × ObjectType} : (fs : Fields) → p ∈ fs.parts →
    (∃ s, p.2 = .scalar s) ∨ ∃ fields, p.2 = .aggregate .union fields
  | .single t, hp => t.cases_of_mem_parts hp
  | .push earlier t, hp => by
    have he := earlier.cases_of_mem_parts (p := p)
    have ht := fun q => t.cases_of_mem_parts (p := q)
    rw [Fields.parts, List.mem_append, List.mem_map] at hp
    rcases hp with hp | ⟨q, hq, rfl⟩
    · exact he hp
    · exact ht q hq

end

theorem ObjectType.isVector_lower_iff (t : ObjectType) (k : Nat) :
    t.lower.IsVector k ↔ t.IsVector k ∧ ¬ t.Straddled k := by
  unfold NativeType.IsVector IsVector
  rw [t.isVectorAt_lower_iff_parts, t.isVectorAt_iff_parts]
  simp only [Nat.zero_add]
  constructor
  · intro h
    refine ⟨fun p hp => ?_, ?_⟩
    · have hv := h p hp
      obtain ⟨base, u⟩ := p
      obtain ⟨s, rfl⟩ | ⟨fields, rfl⟩ := t.cases_of_mem_parts hp
      · exact (s.isVectorAt_lower_iff base k).1 hv
      · exact ((isVectorAt_chunked_iff_not_straddledAt _ base k).1 hv).1
    · rintro ⟨base, fields, hp, hs⟩
      exact ((isVectorAt_chunked_iff_not_straddledAt _ base k).1 (h _ hp)).2 hs
  · rintro ⟨hvector, hs⟩ p hp
    have hv := hvector p hp
    obtain ⟨base, u⟩ := p
    obtain ⟨s, rfl⟩ | ⟨fields, rfl⟩ := t.cases_of_mem_parts hp
    · exact (s.isVectorAt_lower_iff base k).2 hv
    · exact (isVectorAt_chunked_iff_not_straddledAt _ base k).2
        ⟨hv, fun h => hs ⟨base, fields, hp, h⟩⟩

/-- Lowering changes the class of an eightbyte only from vector to general, and only where a chunk
of a union crosses the boundary with an integer or a pointer. -/
theorem ObjectType.register_class_kept_iff (t : ObjectType) (k : Nat) :
    (t.lower.IsVector k → t.IsVector k) ∧
      ((t.lower.IsVector k ↔ t.IsVector k) ↔ ¬ (t.IsVector k ∧ t.Straddled k)) := by
  have key := t.isVector_lower_iff k
  refine ⟨fun h => (key.1 h).1, ?_, ?_⟩
  · rintro heq ⟨hv, hs⟩
    exact (key.1 (heq.2 hv)).2 hs
  · intro h
    exact ⟨fun hl => (key.1 hl).1, fun hv => key.2 ⟨hv, fun hs => h ⟨hv, hs⟩⟩⟩

/-- A float, and then in the same eightbyte a union of a float and an integer one after the other. -/
def straddlingType : ObjectType :=
  let pair := ObjectType.aggregate .struct (.ofList (.scalar .float32) [.scalar (.int .int32)])
  let choice := ObjectType.aggregate .union (.ofList pair [.scalar .float32])
  .aggregate .struct (.ofList (.scalar .float32) [choice])

/-- The first eightbyte of this type is two floats, and travels in a general register. -/
theorem register_class_not_kept :
    ¬ ∀ t : ObjectType, t.size ≤ 16 → ∀ k, eightbyte * k < t.size →
      (t.lower.IsVector k ↔ t.IsVector k) := by
  intro h
  have hv : straddlingType.IsVector 0 := by decide
  have hs : straddlingType.Straddled 0 :=
    ⟨4, _, List.Mem.tail _ (List.Mem.head _), by decide, ⟨0, 8⟩, by decide, by decide,
      ⟨4, .int .int32⟩, by decide, by decide, by decide⟩
  have hl := (h straddlingType (by decide) 0 (by decide)).2 hv
  exact ((straddlingType.isVector_lower_iff 0).1 hl).2 hs

end ForeignCall
