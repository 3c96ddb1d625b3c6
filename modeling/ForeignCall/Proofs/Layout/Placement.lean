import ForeignCall.Layout.Basic
import ForeignCall.Proofs.Alignment

/-!
# Placement of fields

Every type has an alignment of the target, and its size is a positive multiple of it.  A field lies
at a multiple of its own alignment (`align_dvd_offset`) and inside the aggregate (`stop_le_extent`),
those of a struct one after the other (`pairwise_placed_struct`), and no gap between fields holds a
multiple of the aggregate's alignment (`exists_field_at`).
-/

namespace ForeignCall

/-! ## Induction over types -/

mutual

/-- A property that passes from the fields to the aggregate holds of all types. -/
@[elab_as_elim]
theorem ObjectType.inductionOn {P : ObjectType → Prop} (scalar : ∀ s, P (.scalar s))
    (aggregate : ∀ kind fields, (∀ u ∈ fields.toList, P u) → P (.aggregate kind fields)) :
    (t : ObjectType) → P t
  | .scalar s => scalar s
  | .aggregate kind fields =>
    aggregate kind fields (Fields.forall_toList scalar aggregate fields)

theorem Fields.forall_toList {P : ObjectType → Prop} (scalar : ∀ s, P (.scalar s))
    (aggregate : ∀ kind fields, (∀ u ∈ fields.toList, P u) → P (.aggregate kind fields)) :
    (fs : Fields) → ∀ u ∈ fs.toList, P u
  | .single t => by
    have ht := ObjectType.inductionOn scalar aggregate t
    rw [Fields.toList_single]
    exact List.forall_mem_singleton.2 ht
  | .push earlier t => by
    have he := Fields.forall_toList scalar aggregate earlier
    have ht := ObjectType.inductionOn scalar aggregate t
    rw [Fields.toList_push]
    exact List.forall_mem_append.2 ⟨he, List.forall_mem_singleton.2 ht⟩

end

/-! ## Sizes and alignments -/

mutual

theorem ObjectType.isAlignment_align : (t : ObjectType) → IsAlignment t.align
  | .scalar s => s.isAlignment_align
  | .aggregate _ fields => fields.isAlignment_align

theorem Fields.isAlignment_align : (fs : Fields) → IsAlignment fs.align
  | .single t => t.isAlignment_align
  | .push earlier t => earlier.isAlignment_align.max t.isAlignment_align

end

namespace Fields

/-- Where the fields of an aggregate end, before any trailing padding. -/
def extent (kind : AggregateKind) (fs : Fields) : Nat := kind.select fs.structEnd fs.maxSize

theorem nextOffset_struct (earlier : Fields) (t : ObjectType) :
    earlier.nextOffset .struct t = leastMultiple earlier.structEnd t.align :=
  alignUp_eq_leastMultiple _ t.isAlignment_align

theorem structEnd_push (earlier : Fields) (t : ObjectType) :
    (earlier.push t).structEnd = earlier.nextOffset .struct t + t.size := rfl

/-- Both kinds of aggregates grow to hold the next field. -/
theorem extent_push (kind : AggregateKind) (earlier : Fields) (t : ObjectType) :
    (earlier.push t).extent kind =
      max (earlier.extent kind) (earlier.nextOffset kind t + t.size) := by
  cases kind with
  | struct =>
    have h := le_leastMultiple earlier.structEnd t.isAlignment_align.pos
    rw [← nextOffset_struct] at h
    have he : earlier.structEnd ≤ earlier.nextOffset .struct t + t.size := Nat.le_add_right_of_le h
    exact (Nat.max_eq_right he).symm
  | union =>
    change max earlier.maxSize t.size = max earlier.maxSize (0 + t.size)
    rw [Nat.zero_add]

theorem align_dvd_nextOffset (kind : AggregateKind) (earlier : Fields) (t : ObjectType) :
    t.align ∣ earlier.nextOffset kind t := by
  cases kind with
  | struct =>
    rw [nextOffset_struct]
    exact dvd_leastMultiple _ _
  | union => exact Nat.dvd_zero _

end Fields

namespace ObjectType

theorem size_aggregate (kind : AggregateKind) (fields : Fields) :
    (aggregate kind fields).size = leastMultiple (fields.extent kind) fields.align :=
  alignUp_eq_leastMultiple _ fields.isAlignment_align

theorem extent_le_size (kind : AggregateKind) (fields : Fields) :
    fields.extent kind ≤ (aggregate kind fields).size := by
  rw [size_aggregate]
  exact le_leastMultiple _ fields.isAlignment_align.pos

theorem align_dvd_size (t : ObjectType) : t.align ∣ t.size := by
  cases t with
  | scalar s => exact Nat.dvd_refl _
  | aggregate kind fields =>
    rw [size_aggregate]
    exact dvd_leastMultiple _ _

theorem size_pos (t : ObjectType) : 0 < t.size := by
  induction t using ObjectType.inductionOn with
  | scalar s => exact s.size_pos
  | aggregate kind fields ih =>
    refine Nat.lt_of_lt_of_le ?_ (extent_le_size kind fields)
    cases fields with
    | single t =>
      have ht := ih t (by simp)
      cases kind <;> exact ht
    | push earlier t =>
      have ht := ih t (by simp)
      rw [Fields.extent_push]
      omega

end ObjectType

/-! ## The fields of an aggregate -/

namespace Fields

variable {kind : AggregateKind} {p : Nat × ObjectType}

theorem mem_toList_of_mem_placed {fs : Fields} (hp : p ∈ fs.placed kind) : p.2 ∈ fs.toList := by
  rw [← map_snd_placed kind]
  exact List.mem_map_of_mem hp

theorem align_dvd_of_mem : (fs : Fields) → {u : ObjectType} → u ∈ fs.toList → u.align ∣ fs.align
  | single t, u, hu => by
    obtain rfl := List.mem_singleton.1 hu
    exact Nat.dvd_refl _
  | push earlier t, u, hu => by
    have he := earlier.isAlignment_align
    have ht := t.isAlignment_align
    rw [toList_push, List.mem_append, List.mem_singleton] at hu
    rcases hu with hu | rfl
    · exact Nat.dvd_trans (align_dvd_of_mem earlier hu) (he.dvd_max_left ht)
    · exact he.dvd_max_right ht

/-- A field lies at a multiple of its alignment. -/
theorem align_dvd_offset : (fs : Fields) → p ∈ fs.placed kind → p.2.align ∣ p.1
  | single t, hp => by
    obtain rfl := List.mem_singleton.1 hp
    exact Nat.dvd_zero _
  | push earlier t, hp => by
    rw [placed_push, List.mem_append, List.mem_singleton] at hp
    rcases hp with hp | rfl
    · exact align_dvd_offset earlier hp
    · exact align_dvd_nextOffset kind earlier t

/-- A field ends before the trailing padding. -/
theorem stop_le_extent : (fs : Fields) → p ∈ fs.placed kind → p.1 + p.2.size ≤ fs.extent kind
  | single t, hp => by
    obtain rfl := List.mem_singleton.1 hp
    cases kind <;> exact Nat.le_of_eq (Nat.zero_add _)
  | push earlier t, hp => by
    rw [placed_push, List.mem_append, List.mem_singleton] at hp
    rw [extent_push]
    rcases hp with hp | rfl
    · exact Nat.le_trans (stop_le_extent earlier hp) (Nat.le_max_left _ _)
    · exact Nat.le_max_right _ _

theorem stop_le_size {fs : Fields} (hp : p ∈ fs.placed kind) :
    p.1 + p.2.size ≤ (ObjectType.aggregate kind fs).size :=
  Nat.le_trans (fs.stop_le_extent hp) (ObjectType.extent_le_size kind fs)

theorem offset_union : (fs : Fields) → p ∈ fs.placed .union → p.1 = 0
  | single t, hp => by rw [List.mem_singleton.1 hp]
  | push earlier t, hp => by
    rw [placed_push, List.mem_append, List.mem_singleton] at hp
    rcases hp with hp | rfl
    · exact offset_union earlier hp
    · rfl

/-- The fields of a struct lie one after the other. -/
theorem pairwise_placed_struct : (fs : Fields) →
    (fs.placed .struct).Pairwise fun p q => p.1 + p.2.size ≤ q.1
  | single t => List.pairwise_singleton _ _
  | push earlier t => by
    rw [placed_push, List.pairwise_append]
    refine ⟨pairwise_placed_struct earlier, List.pairwise_singleton _ _, ?_⟩
    intro p hp q hq
    obtain rfl := List.mem_singleton.1 hq
    calc p.1 + p.2.size ≤ earlier.structEnd := earlier.stop_le_extent hp
      _ ≤ leastMultiple earlier.structEnd t.align := le_leastMultiple _ t.isAlignment_align.pos
      _ = earlier.nextOffset .struct t := (nextOffset_struct earlier t).symm

/-- The padding between two fields is too short to hold a multiple of the strictest alignment. -/
theorem exists_field_at {x : Nat} : (fs : Fields) → fs.align ∣ x → x < fs.extent kind →
    ∃ p ∈ fs.placed kind, p.1 ≤ x ∧ x < p.1 + p.2.size
  | single t, _, hx => by
    refine ⟨(0, t), List.mem_singleton_self _, Nat.zero_le _, ?_⟩
    rw [Nat.zero_add]
    cases kind <;> exact hx
  | push earlier t, hd, hx => by
    have he := earlier.isAlignment_align
    have ht := t.isAlignment_align
    by_cases hlt : x < earlier.extent kind
    · obtain ⟨p, hp, h⟩ := exists_field_at earlier (Nat.dvd_trans (he.dvd_max_left ht) hd) hlt
      exact ⟨p, List.mem_append_left _ hp, h⟩
    · refine ⟨(earlier.nextOffset kind t, t), by simp, ?_, ?_⟩
      · cases kind with
        | struct =>
          rw [nextOffset_struct]
          exact leastMultiple_le ht.pos (Nat.not_lt.1 hlt) (Nat.dvd_trans (he.dvd_max_right ht) hd)
        | union => exact Nat.zero_le _
      · rw [extent_push] at hx
        show x < earlier.nextOffset kind t + t.size
        omega

end Fields

end ForeignCall
