import ForeignCall.Layout.Leaves
import ForeignCall.Proofs.Layout.Placement

/-!
# Where the scalars of a type lie

The scalars inside an aggregate are those of its fields, moved to the fields (`mem_leaves_iff`).
Each lies inside the type at a multiple of its alignment (`Leaf.FitsIn`), and every stretch of the
type that is as long as its alignment and aligned so has a scalar in it (`exists_leaf_at`).
-/

namespace ForeignCall

/-- The scalar at the leaf is aligned and lies inside the type. -/
structure Leaf.FitsIn (l : Leaf) (t : ObjectType) : Prop where
  align_dvd_offset : l.scalar.align ∣ l.offset
  align_dvd : l.scalar.align ∣ t.align
  stop_le : l.stop ≤ t.size

@[simp] theorem Leaf.shift_zero (l : Leaf) : l.shift 0 = l := by
  simp [Leaf.shift]

@[simp] theorem Leaf.map_shift_zero (ls : List Leaf) : ls.map (Leaf.shift 0) = ls := by
  rw [List.map_congr_left fun l _ => l.shift_zero, List.map_id']

theorem Leaf.shift_shift (a b : Nat) (l : Leaf) : (l.shift b).shift a = l.shift (a + b) := by
  simp [Leaf.shift, Nat.add_assoc]

@[simp] theorem Leaf.stop_shift (base : Nat) (l : Leaf) : (l.shift base).stop = base + l.stop :=
  Nat.add_assoc _ _ _

theorem Leaf.offset_lt_stop (l : Leaf) : l.offset < l.stop :=
  Nat.lt_add_of_pos_right l.scalar.size_pos

/-- The scalars inside an aggregate are the scalars inside its fields. -/
theorem Fields.mem_leaves_iff {kind : AggregateKind} {l : Leaf} (fs : Fields) :
    l ∈ fs.leaves kind ↔ ∃ p ∈ fs.placed kind, ∃ m ∈ p.2.leaves, m.shift p.1 = l := by
  cases fs with
  | single t => simp [Fields.leaves]
  | push earlier t =>
    rw [Fields.leaves, List.mem_append, List.mem_map, mem_leaves_iff earlier, placed_push]
    constructor
    · rintro (⟨p, hp, h⟩ | h)
      · exact ⟨p, List.mem_append_left _ hp, h⟩
      · exact ⟨_, List.mem_append_right _ (List.mem_singleton_self _), h⟩
    · rintro ⟨p, hp, h⟩
      rcases List.mem_append.1 hp with hp | hp
      · exact Or.inl ⟨p, hp, h⟩
      · obtain rfl := List.mem_singleton.1 hp
        exact Or.inr h

namespace ObjectType

/-- A scalar of a field is aligned and lies inside the aggregate. -/
theorem fitsIn_of_mem_leaves (t : ObjectType) : ∀ l ∈ t.leaves, l.FitsIn t := by
  induction t using ObjectType.inductionOn with
  | scalar s =>
    intro l hl
    obtain rfl := List.mem_singleton.1 hl
    exact ⟨Nat.dvd_zero _, Nat.dvd_refl _, Nat.le_of_eq (Nat.zero_add _)⟩
  | aggregate kind fields ih =>
    intro l hl
    obtain ⟨p, hp, m, hm, rfl⟩ := fields.mem_leaves_iff.1 hl
    have hu := Fields.mem_toList_of_mem_placed hp
    have fits := ih p.2 hu m hm
    refine ⟨?_, ?_, ?_⟩
    · have base := Nat.dvd_trans fits.align_dvd (fields.align_dvd_offset hp)
      exact Nat.dvd_add base fits.align_dvd_offset
    · exact Nat.dvd_trans fits.align_dvd (fields.align_dvd_of_mem hu)
    · rw [Leaf.stop_shift]
      exact Nat.le_trans (Nat.add_le_add_left fits.stop_le _) (Fields.stop_le_size hp)

/-- Padding is never as long as the alignment of the type. -/
theorem exists_leaf_at (t : ObjectType) : ∀ x, t.align ∣ x → x < t.size →
    ∃ l ∈ t.leaves, l.offset < x + t.align ∧ x < l.stop := by
  induction t using ObjectType.inductionOn with
  | scalar s =>
    intro x hd hx
    have h0 : x = 0 := Nat.eq_zero_of_dvd_of_lt hd hx
    subst h0
    have hs : 0 < 0 + s.size := by rw [Nat.zero_add]; exact s.size_pos
    exact ⟨⟨0, s⟩, List.mem_singleton_self _, hs, hs⟩
  | aggregate kind fields ih =>
    intro x hd hx
    have ha := fields.isAlignment_align
    rw [size_aggregate] at hx
    -- The field that holds `x` starts at a multiple of its own alignment, and so does the rest.
    obtain ⟨p, hp, hle, hlt⟩ := fields.exists_field_at hd (lt_of_lt_leastMultiple ha.pos hd hx)
    have hu := Fields.mem_toList_of_mem_placed hp
    have hpd := fields.align_dvd_of_mem hu
    have hdx : p.2.align ∣ x - p.1 :=
      Nat.dvd_sub (Nat.dvd_trans hpd hd) (fields.align_dvd_offset hp)
    obtain ⟨l, hl, hstart, hstop⟩ := ih p.2 hu (x - p.1) hdx (by omega)
    have hpa : p.2.align ≤ fields.align := Nat.le_of_dvd ha.pos hpd
    refine ⟨l.shift p.1, fields.mem_leaves_iff.2 ⟨p, hp, l, hl, rfl⟩, ?_, ?_⟩
    · show p.1 + l.offset < x + fields.align
      omega
    · rw [Leaf.stop_shift]
      omega

end ObjectType

/-- A scalar inside the fields ends before the trailing padding. -/
theorem Fields.stop_le_extent_of_mem_leaves {kind : AggregateKind} {fs : Fields} {l : Leaf}
    (hl : l ∈ fs.leaves kind) : l.stop ≤ fs.extent kind := by
  obtain ⟨p, hp, m, hm, rfl⟩ := fs.mem_leaves_iff.1 hl
  have inside := (p.2.fitsIn_of_mem_leaves m hm).stop_le
  rw [Leaf.stop_shift]
  exact Nat.le_trans (Nat.add_le_add_left inside p.1) (fs.stop_le_extent hp)

end ForeignCall
