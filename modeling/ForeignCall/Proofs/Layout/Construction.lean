import ForeignCall.Proofs.Layout.Placement

/-!
# Layouts follow the C rules

`Layout.ofFields` accepts every list of fields that is not empty and has no `void` in it
(`ofFields_eq_ok_iff`).  What it builds is laid out as C prescribes (`Layout.FollowsRules`): the
fields of a struct one after the other, each at the least multiple of its alignment
(`Layout.IsSequential`), those of a union all at the start (`Layout.IsOverlaid`), and the size
rounded up to the strictest alignment.
-/

namespace ForeignCall

theorem CType.exists_map_object_of_not_mem {types : List CType} (h : .void ∉ types) :
    ∃ ts : List ObjectType, types = ts.map .object := by
  induction types with
  | nil => exact ⟨[], rfl⟩
  | cons t types ih =>
    cases t with
    | void => exact absurd List.mem_cons_self h
    | object t =>
      obtain ⟨ts, rfl⟩ := ih fun hv => h (List.mem_cons_of_mem _ hv)
      exact ⟨t :: ts, rfl⟩

/-! ## Greatest sizes and alignments -/

namespace Fields

/-- What is kept of the greatest field is the measure of some field, and of none less. -/
theorem isGreatest_of_max (measure : ObjectType → Nat) (greatest : Fields → Nat)
    (single : ∀ t, greatest (.single t) = measure t)
    (push : ∀ fs t, greatest (.push fs t) = max (greatest fs) (measure t))
    (fs : Fields) : IsGreatest {n | ∃ t ∈ fs.toList, measure t = n} (greatest fs) := by
  cases fs with
  | single t =>
    rw [single]
    refine ⟨⟨t, List.mem_singleton_self t, rfl⟩, ?_⟩
    rintro n ⟨u, hu, rfl⟩
    exact Nat.le_of_eq (congrArg measure (List.mem_singleton.1 hu))
  | push earlier t =>
    obtain ⟨⟨u, hu, hmax⟩, bound⟩ := isGreatest_of_max measure greatest single push earlier
    rw [push]
    refine ⟨?_, ?_⟩
    · rcases Nat.le_total (greatest earlier) (measure t) with h | h
      · exact ⟨t, List.mem_append_right _ (List.mem_singleton_self t), (Nat.max_eq_right h).symm⟩
      · exact ⟨u, List.mem_append_left _ hu, hmax.trans (Nat.max_eq_left h).symm⟩
    · rintro n ⟨v, hv, rfl⟩
      rcases List.mem_append.1 hv with hv | hv
      · exact Nat.le_trans (bound ⟨v, hv, rfl⟩) (Nat.le_max_left _ _)
      · rw [List.mem_singleton.1 hv]
        exact Nat.le_max_right _ _

theorem isGreatest_align (fs : Fields) :
    IsGreatest {n | ∃ t ∈ fs.toList, t.align = n} fs.align :=
  isGreatest_of_max ObjectType.align align (fun _ => rfl) (fun _ _ => rfl) fs

theorem isGreatest_maxSize (fs : Fields) :
    IsGreatest {n | ∃ t ∈ fs.toList, t.size = n} fs.maxSize :=
  isGreatest_of_max ObjectType.size maxSize (fun _ => rfl) (fun _ _ => rfl) fs

/-! ## Lists of fields -/

theorem toList_ne_nil (fs : Fields) : fs.toList ≠ [] := by
  cases fs with
  | single t => exact List.cons_ne_nil t []
  | push earlier t => exact List.append_ne_nil_of_right_ne_nil _ (List.cons_ne_nil t [])

theorem exists_ofList (fs : Fields) : ∃ first others, fs = ofList first others := by
  cases fs with
  | single t => exact ⟨t, [], rfl⟩
  | push earlier t =>
    obtain ⟨first, others, h⟩ := exists_ofList earlier
    exact ⟨first, others ++ [t], by rw [h, ofList, ofList, List.foldl_append]; rfl⟩

/-! ## Fields by their indices -/

variable {p q : Nat × ObjectType}

theorem offset_first (kind : AggregateKind) (fs : Fields) :
    ∃ t, (fs.placed kind)[0]? = some (0, t) := by
  cases fs with
  | single t => exact ⟨t, rfl⟩
  | push earlier t =>
    obtain ⟨u, hu⟩ := offset_first kind earlier
    exact ⟨u, List.getElem?_append_left (List.getElem?_eq_some_iff.1 hu).1 ▸ hu⟩

/-- A struct ends with its last field. -/
theorem exists_last (fs : Fields) :
    ∃ p, (fs.placed .struct)[fs.length - 1]? = some p ∧ fs.structEnd = p.1 + p.2.size := by
  cases fs with
  | single t => exact ⟨(0, t), rfl, (Nat.zero_add _).symm⟩
  | push earlier t =>
    refine ⟨(earlier.nextOffset .struct t, t), ?_, structEnd_push earlier t⟩
    show (earlier.placed .struct ++ [_])[earlier.length]? = _
    rw [← length_placed .struct earlier, List.getElem?_concat_length]

/-- A field of a struct lies at the least multiple of its alignment after the field before it. -/
theorem offset_succ : (fs : Fields) → {i : Nat} → (fs.placed .struct)[i]? = some p →
    (fs.placed .struct)[i + 1]? = some q → q.1 = leastMultiple (p.1 + p.2.size) q.2.align
  | .single t, i, _, hq => by cases hq
  | .push earlier t, i, hp, hq => by
    have hlen := length_placed .struct earlier
    rw [placed_push] at hp hq
    have hi : i + 1 ≤ (earlier.placed .struct).length := by
      have := (List.getElem?_eq_some_iff.1 hq).1
      rw [List.length_append, List.length_singleton] at this
      omega
    rw [List.getElem?_append_left hi] at hp
    rcases Nat.lt_or_eq_of_le hi with hlt | heq
    · rw [List.getElem?_append_left hlt] at hq
      exact offset_succ earlier hp hq
    · rw [heq, List.getElem?_concat_length] at hq
      obtain rfl := Option.some.inj hq
      obtain ⟨r, hr, hend⟩ := exists_last earlier
      rw [← hlen, ← heq, Nat.add_sub_cancel, hp] at hr
      obtain rfl := Option.some.inj hr
      rw [← hend, nextOffset_struct]

end Fields

/-! ## The rules -/

namespace Layout

/-- The fields lie one after the other, each as near to the one before it as its alignment lets it,
and the size has as little padding at the end as the alignment of the whole allows. -/
structure IsSequential (l : Layout) : Prop where
  first : ∃ t, l.field? 0 = some (0, t)
  next : ∀ i p q, l.field? i = some p → l.field? (i + 1) = some q →
    IsLeast {n | q.2.align ∣ n ∧ p.1 + p.2.size ≤ n} q.1
  disjoint : ∀ i j p q, i < j → l.field? i = some p → l.field? j = some q → p.1 + p.2.size ≤ q.1
  size_isLeast : ∃ p, l.field? (l.fields.length - 1) = some p ∧
    IsLeast {n | l.align ∣ n ∧ p.1 + p.2.size ≤ n} l.size

/-- All fields lie at the start, and the size is that of the largest with as little padding as the
alignment of the whole allows. -/
structure IsOverlaid (l : Layout) : Prop where
  offset : ∀ i p, l.field? i = some p → p.1 = 0
  size_isLeast : ∃ largest, IsGreatest {n | ∃ t ∈ l.fields.toList, t.size = n} largest ∧
    IsLeast {n | l.align ∣ n ∧ largest ≤ n} l.size

/-- The layout is what C prescribes for an aggregate with fields of the given types. -/
structure FollowsRules (l : Layout) (kind : AggregateKind) (types : List CType) : Prop where
  kind_eq : l.kind = kind
  types_eq : l.fields.toList.map .object = types
  field?_type : ∀ i, (l.field? i).map (fun p => .object p.2) = types[i]?
  offset?_eq : ∀ i, l.offset? i = (l.field? i).map Prod.fst
  align_isGreatest : IsGreatest {a | ∃ t ∈ types, t.align = a} l.align
  align_cases : l.align = 1 ∨ l.align = 2 ∨ l.align = 4 ∨ l.align = 8
  align_dvd : ∀ t ∈ types, t.align ∣ l.align
  field_fits : ∀ i p, l.field? i = some p → p.2.align ∣ p.1 ∧ p.1 + p.2.size ≤ l.size
  placement : kind.select l.IsSequential l.IsOverlaid
  size_pos : 0 < l.size

variable {l : Layout}

theorem mem_placed_of_field? {i : Nat} {p : Nat × ObjectType} (h : l.field? i = some p) :
    p ∈ l.fields.placed l.kind :=
  List.mem_of_getElem? h

theorem size_isLeast (l : Layout) :
    IsLeast {n | l.align ∣ n ∧ l.fields.extent l.kind ≤ n} l.size := by
  have h := isLeast_leastMultiple (l.fields.extent l.kind) l.fields.isAlignment_align.pos
  rwa [← ObjectType.size_aggregate] at h

theorem isSequential (h : l.kind = .struct) : l.IsSequential := by
  obtain ⟨kind, fields⟩ := l
  obtain rfl : kind = .struct := h
  obtain ⟨last, hlast, hend⟩ := fields.exists_last
  refine ⟨fields.offset_first .struct, ?_, ?_, last, hlast, ?_⟩
  · intro i p q hp hq
    rw [fields.offset_succ hp hq]
    exact isLeast_leastMultiple _ q.2.isAlignment_align.pos
  · intro i j p q hij hp hq
    obtain ⟨hi, rfl⟩ := List.getElem?_eq_some_iff.1 hp
    obtain ⟨hj, rfl⟩ := List.getElem?_eq_some_iff.1 hq
    exact List.pairwise_iff_getElem.1 fields.pairwise_placed_struct i j hi hj hij
  · rw [← hend]
    exact size_isLeast ⟨.struct, fields⟩

theorem isOverlaid (h : l.kind = .union) : l.IsOverlaid := by
  obtain ⟨kind, fields⟩ := l
  obtain rfl : kind = .union := h
  refine ⟨?_, fields.maxSize, fields.isGreatest_maxSize, size_isLeast ⟨.union, fields⟩⟩
  intro i p hp
  exact fields.offset_union (mem_placed_of_field? hp)

/-! ## Construction -/

theorem ofFields_eq_ok_iff {kind : AggregateKind} {types : List CType} :
    ofFields kind types = .ok l ↔ l.kind = kind ∧ l.fields.toList.map .object = types := by
  constructor
  · intro h
    unfold ofFields at h
    split at h
    · cases h
    · cases h
    · rename_i first others objects
      rw [← Except.ok.inj h, Fields.toList_ofList]
      exact ⟨rfl, (CType.objects_eq_ok_iff.1 objects).symm⟩
  · rintro ⟨rfl, rfl⟩
    obtain ⟨first, others, hfs⟩ := l.fields.exists_ofList
    have objects : CType.objects (l.fields.toList.map .object) = .ok (first :: others) := by
      rw [CType.objects_eq_ok_iff, hfs, Fields.toList_ofList]
    simp only [ofFields, objects, ← hfs]

/-- Layouts are built of all lists that are not empty and have no `void` in them. -/
theorem exists_ofFields_iff {kind : AggregateKind} {types : List CType} :
    (∃ l, ofFields kind types = .ok l) ↔ types ≠ [] ∧ .void ∉ types := by
  simp only [ofFields_eq_ok_iff]
  constructor
  · rintro ⟨l, -, rfl⟩
    refine ⟨?_, ?_⟩
    · rw [Ne, List.map_eq_nil_iff]
      exact l.fields.toList_ne_nil
    · rw [List.mem_map]
      rintro ⟨t, -, h⟩
      cases h
  · rintro ⟨nonempty, noVoid⟩
    obtain ⟨ts, rfl⟩ := CType.exists_map_object_of_not_mem noVoid
    cases ts with
    | nil => exact absurd rfl nonempty
    | cons first others => exact ⟨⟨kind, .ofList first others⟩, rfl, by rw [Fields.toList_ofList]⟩

theorem followsRules {kind : AggregateKind} {types : List CType}
    (h : ofFields kind types = .ok l) : l.FollowsRules kind types := by
  obtain ⟨rfl, rfl⟩ := ofFields_eq_ok_iff.1 h
  have ha : IsAlignment l.align := l.fields.isAlignment_align
  refine ⟨rfl, rfl, ?_, ?_, ?_, ha.cases, ?_, ?_, ?_, l.type.size_pos⟩
  · intro i
    rw [← Fields.map_snd_placed l.kind, List.map_map, List.getElem?_map]
    rfl
  · intro i
    exact List.getElem?_map
  · obtain ⟨⟨t, ht, htop⟩, bound⟩ := l.fields.isGreatest_align
    refine ⟨⟨.object t, List.mem_map_of_mem ht, htop⟩, ?_⟩
    rintro a ⟨u, hu, rfl⟩
    obtain ⟨v, hv, rfl⟩ := List.mem_map.1 hu
    exact bound ⟨v, hv, rfl⟩
  · intro t ht
    obtain ⟨u, hu, rfl⟩ := List.mem_map.1 ht
    exact l.fields.align_dvd_of_mem hu
  · intro i p hp
    have hmem := mem_placed_of_field? hp
    exact ⟨l.fields.align_dvd_offset hmem, Fields.stop_le_size hmem⟩
  · cases hk : l.kind with
    | struct => exact isSequential hk
    | union => exact isOverlaid hk

/-- What is built of fields is laid out as C prescribes, and of all lists of fields only the empty
one and those with a `void` are refused.  Rounding by bits is the rounding to the least multiple
for every alignment that a type has, and it is the same in machine words. -/
theorem ofFields_follows_rules (kind : AggregateKind) (types : List CType) :
    ((∃ l, ofFields kind types = .ok l) ↔ types ≠ [] ∧ .void ∉ types) ∧
    (∀ l, ofFields kind types = .ok l → l.FollowsRules kind types) ∧
    ∀ (t : ObjectType) (n : Nat),
      IsLeast {k | t.align ∣ k ∧ n ≤ k} (alignUp n t.align) ∧
      (n < 2 ^ 63 →
        (alignUpWord (.ofNat 64 n) (.ofNat 64 t.align)).toNat = alignUp n t.align) := by
  refine ⟨exists_ofFields_iff, fun l h => followsRules h, fun t n => ⟨?_, ?_⟩⟩
  · rw [alignUp_eq_leastMultiple n t.isAlignment_align]
    exact isLeast_leastMultiple n t.isAlignment_align.pos
  · exact toNat_alignUpWord t.isAlignment_align

/-- Fields of several alignments, with padding between them and at the end. -/
def paddedFields : List CType :=
  [.scalar (.int .uint8), .scalar (.int .int32), .scalar (.int .uint16), .scalar .float64,
    .scalar (.int .uint8)]

theorem ofFields_follows_rules_padded :
    (∃ l, ofFields .struct paddedFields = .ok l ∧ l.FollowsRules .struct paddedFields ∧
      l.offsets = [0, 4, 8, 16, 24] ∧ l.size = 32) ∧
    (alignUpWord 13 8).toNat = alignUp 13 8 :=
  ⟨⟨_, rfl, (ofFields_follows_rules .struct paddedFields).2.1 _ rfl, by decide, by decide⟩,
    ((ofFields_follows_rules .struct paddedFields).2.2 (.scalar .float64) 13).2 (by decide)⟩

end Layout

end ForeignCall
