import ForeignCall.Layout.Access
import ForeignCall.Proofs.Layout.Placement
import ForeignCall.Proofs.Value.RoundTrip

/-!
# Fields are accessed within bounds

Reading and writing a field check the length of the buffer, then the index, then the value, and fail
for no other cause (`AccessRefused`, `WriteRefused`).  The range of a field is not checked: it lies
in every buffer that has the size of the aggregate (`stop_le_of_access`), and what is written fills
it.  So reading and writing do the same where ranges are checked (`Layout.read?`, `Layout.write?`).
-/

namespace ForeignCall

/-! ## Checked ranges -/

/-- `slice` where the range has to lie in the memory, and its end has to be a machine word. -/
def Bytes.slice? (memory : Bytes) (start count : Nat) : Option Bytes :=
  if start + count ≤ memory.length ∧ start + count < 2 ^ 64 then some (slice memory start count)
  else none

/-- `overwriteAt` where the range is checked too, and the bytes have to fill it. -/
def Bytes.overwriteAt? (memory : Bytes) (start count : Nat) (bytes : Bytes) : Option Bytes :=
  (slice? memory start count).bind fun range =>
    if bytes.length = range.length then some (overwriteAt memory start count bytes) else none

namespace Layout

/-- `read` with a checked range. -/
def read? (l : Layout) (buffer : Bytes) (index : Nat) : Option (Except ArgumentError Value) :=
  match l.access buffer.length index with
  | .ok (offset, t) =>
    (Bytes.slice? buffer offset t.size).map fun range => .ok (.load (.object t) range)
  | .error e => some (.error e)

/-- `write` with a checked range. -/
def write? (l : Layout) (buffer : Bytes) (index : Nat) (v : Value) :
    Option (Except ArgumentError Bytes) :=
  match l.access buffer.length index with
  | .ok (offset, t) =>
    match v.coerceObject t with
    | .ok w => (Bytes.overwriteAt? buffer offset t.size w.encode).map .ok
    | .error e => some (.error e)
  | .error e => some (.error e)

/-! ## Causes of failure -/

/-- Why no field is found in a buffer of the given length: the length is checked before the
index. -/
inductive AccessRefused (l : Layout) (length index : Nat) : ArgumentError → Prop where
  | length (wrong : length ≠ l.size) : AccessRefused l length index (.bufferLength l.size length)
  | index (right : length = l.size) (past : l.fields.length ≤ index) :
    AccessRefused l length index (.fieldOutOfRange index l.fields.length)

/-- Why a value is not written: the field is looked for before the value is converted. -/
inductive WriteRefused (l : Layout) (length index : Nat) (v : Value) : ArgumentError → Prop where
  | access {e : ArgumentError} (refused : l.AccessRefused length index e) :
    WriteRefused l length index v e
  | value {t : ObjectType} {e : ArgumentError} (right : length = l.size)
    (type : l.fields.toList[index]? = some t) (refused : v.coerce (.object t) = .error e) :
    WriteRefused l length index v e

/-- Reading the field at the index of an aggregate in the buffer, and writing the value to it,
succeed exactly if nothing is wrong with the buffer, the index and the value, and no range is ever
out of bounds. -/
structure AccessedInBounds (l : Layout) (buffer : Bytes) (index : Nat) (v : Value) : Prop where
  read_iff : (∃ w, l.read buffer index = .ok w) ↔
    buffer.length = l.size ∧ index < l.fields.length
  write_iff : (∃ result, l.write buffer index v = .ok result) ↔ buffer.length = l.size ∧
    ∃ t, l.fields.toList[index]? = some t ∧ ∃ w, v.coerce (.object t) = .ok w
  read_refused : ∀ e, l.read buffer index = .error e ↔ l.AccessRefused buffer.length index e
  write_refused : ∀ e, l.write buffer index v = .error e ↔
    l.WriteRefused buffer.length index v e
  range_inside : ∀ offset t, l.access buffer.length index = .ok (offset, t) →
    l.fields.toList[index]? = some t ∧ offset + t.size ≤ buffer.length
  read_whole : ∀ w, l.read buffer index = .ok w →
    ∃ t, l.fields.toList[index]? = some t ∧ w.HasType (.object t)
  write_whole : ∀ t w, l.fields.toList[index]? = some t → v.coerce (.object t) = .ok w →
    w.encode.length = t.size
  read?_eq : l.read? buffer index = some (l.read buffer index)
  write?_eq : l.write? buffer index v = some (l.write buffer index v)

variable {l : Layout} {buffer : Bytes} {length index : Nat} {field : Nat × ObjectType}
  {e : ArgumentError} {v : Value}

/-! ## Finding a field -/

theorem map_snd_field? (l : Layout) (index : Nat) :
    (l.field? index).map Prod.snd = l.fields.toList[index]? := by
  rw [field?, ← List.getElem?_map, Fields.map_snd_placed]

theorem exists_offset_of_type {t : ObjectType} (type : l.fields.toList[index]? = some t) :
    ∃ offset, l.field? index = some (offset, t) := by
  rw [← map_snd_field?, Option.map_eq_some_iff] at type
  obtain ⟨⟨offset, _⟩, found, rfl⟩ := type
  exact ⟨offset, found⟩

theorem field?_eq_none_iff : l.field? index = none ↔ l.fields.length ≤ index := by
  rw [field?, List.getElem?_eq_none_iff, Fields.length_placed]

theorem access_of_field? (right : length = l.size) (found : l.field? index = some field) :
    l.access length index = .ok field := by
  rw [access, if_pos right, found]

theorem access_of_refused (refused : l.AccessRefused length index e) :
    l.access length index = .error e := by
  cases refused with
  | length wrong => exact if_neg wrong
  | index right past => rw [access, if_pos right, field?_eq_none_iff.2 past]

theorem refused_or_found (l : Layout) (length index : Nat) :
    (∃ e, l.AccessRefused length index e) ∨
      length = l.size ∧ ∃ field, l.field? index = some field := by
  by_cases right : length = l.size
  · cases found : l.field? index with
    | none => exact .inl ⟨_, .index right (field?_eq_none_iff.1 found)⟩
    | some field => exact .inr ⟨right, field, rfl⟩
  · exact .inl ⟨_, .length right⟩

theorem access_eq_ok_iff :
    l.access length index = .ok field ↔ length = l.size ∧ l.field? index = some field := by
  refine ⟨fun h => ?_, fun ⟨right, found⟩ => access_of_field? right found⟩
  rcases l.refused_or_found length index with ⟨e, refused⟩ | ⟨right, other, found⟩
  · rw [access_of_refused refused] at h
    cases h
  · rw [access_of_field? right found] at h
    exact ⟨right, Except.ok.inj h ▸ found⟩

theorem access_eq_error_iff :
    l.access length index = .error e ↔ l.AccessRefused length index e := by
  refine ⟨fun h => ?_, access_of_refused⟩
  rcases l.refused_or_found length index with ⟨f, refused⟩ | ⟨right, field, found⟩
  · rw [access_of_refused refused] at h
    exact Except.error.inj h ▸ refused
  · rw [access_of_field? right found] at h
    cases h

theorem exists_access_iff : (∃ field, l.access length index = .ok field) ↔
    length = l.size ∧ index < l.fields.length := by
  simp only [access_eq_ok_iff, exists_and_left, ← Option.isSome_iff_exists,
    ← Option.ne_none_iff_isSome, ne_eq, field?_eq_none_iff, Nat.not_le]

/-- The range of a field lies in the buffer. -/
theorem stop_le_of_access (h : l.access length index = .ok field) :
    field.1 + field.2.size ≤ length := by
  obtain ⟨right, found⟩ := access_eq_ok_iff.1 h
  rw [right]
  exact Fields.stop_le_size (List.mem_of_getElem? found)

theorem type_of_access (h : l.access length index = .ok field) :
    l.fields.toList[index]? = some field.2 := by
  rw [← map_snd_field?, (access_eq_ok_iff.1 h).2]
  rfl

/-! ## Reading -/

theorem read_of_access (h : l.access buffer.length index = .ok field) :
    l.read buffer index =
      .ok (.load (.object field.2) (.slice buffer field.1 field.2.size)) := by
  rw [read, h]

theorem read_of_access_error (h : l.access buffer.length index = .error e) :
    l.read buffer index = .error e := by
  rw [read, h]

theorem exists_read_iff :
    (∃ w, l.read buffer index = .ok w) ↔ ∃ field, l.access buffer.length index = .ok field := by
  cases h : l.access buffer.length index with
  | ok field => simp [read_of_access h]
  | error e => simp [read_of_access_error h]

theorem read_eq_error_iff :
    l.read buffer index = .error e ↔ l.AccessRefused buffer.length index e := by
  rw [← access_eq_error_iff]
  cases h : l.access buffer.length index with
  | ok field => simp [read_of_access h]
  | error f => rw [read_of_access_error h]; simp

/-- An aggregate that is read has all its bytes. -/
theorem hasType_of_read (h : l.read buffer index = .ok v) :
    ∃ t, l.fields.toList[index]? = some t ∧ v.HasType (.object t) := by
  obtain ⟨field, found⟩ := exists_read_iff.1 ⟨v, h⟩
  have inside := stop_le_of_access found
  rw [read_of_access found] at h
  rw [← Except.ok.inj h]
  exact ⟨field.2, type_of_access found, Value.hasType_load (Bytes.length_slice inside).ge⟩

/-- Where the end of an aggregate is a machine word, so is the end of each field. -/
theorem slice?_of_access (small : l.size < 2 ^ 63)
    (h : l.access buffer.length index = .ok field) :
    Bytes.slice? buffer field.1 field.2.size = some (Bytes.slice buffer field.1 field.2.size) := by
  have inside := stop_le_of_access h
  have right := (access_eq_ok_iff.1 h).1
  exact if_pos ⟨inside, by omega⟩

theorem read?_eq (small : l.size < 2 ^ 63) (buffer : Bytes) (index : Nat) :
    l.read? buffer index = some (l.read buffer index) := by
  cases h : l.access buffer.length index with
  | ok field =>
    rw [read_of_access h]
    simp only [read?, h, slice?_of_access small h, Option.map_some]
  | error e =>
    rw [read_of_access_error h]
    simp only [read?, h]

/-! ## Writing -/

theorem write_of_access (h : l.access buffer.length index = .ok field) {w : Value}
    (converts : v.coerceObject field.2 = .ok w) :
    l.write buffer index v = .ok (.overwriteAt buffer field.1 field.2.size w.encode) := by
  simp only [write, h, converts]

theorem write_of_coerce_error (h : l.access buffer.length index = .ok field)
    (refused : v.coerceObject field.2 = .error e) : l.write buffer index v = .error e := by
  simp only [write, h, refused]

theorem write_of_access_error (h : l.access buffer.length index = .error e) :
    l.write buffer index v = .error e := by
  simp only [write, h]

theorem write_of_refused (refused : l.WriteRefused buffer.length index v e) :
    l.write buffer index v = .error e := by
  cases refused with
  | access refused => exact write_of_access_error (access_of_refused refused)
  | value right type refused =>
    obtain ⟨offset, found⟩ := exists_offset_of_type type
    exact write_of_coerce_error (access_of_field? right found) refused

/-- A write is refused, or there are a field and a value of its type to be stored. -/
theorem write_refused_or_stored (l : Layout) (buffer : Bytes) (index : Nat) (v : Value) :
    (∃ e, l.WriteRefused buffer.length index v e) ∨
      ∃ field w, l.access buffer.length index = .ok field ∧
        v.coerceObject field.2 = .ok w := by
  cases h : l.access buffer.length index with
  | error e => exact .inl ⟨e, .access (access_eq_error_iff.1 h)⟩
  | ok field =>
    cases converts : v.coerceObject field.2 with
    | error e =>
      exact .inl ⟨e, .value (access_eq_ok_iff.1 h).1 (type_of_access h) converts⟩
    | ok w => exact .inr ⟨field, w, rfl, converts⟩

theorem write_eq_error_iff : l.write buffer index v = .error e ↔
    l.WriteRefused buffer.length index v e := by
  refine ⟨fun h => ?_, write_of_refused⟩
  rcases l.write_refused_or_stored buffer index v with ⟨f, refused⟩ | ⟨field, w, found, converts⟩
  · rw [write_of_refused refused] at h
    exact Except.error.inj h ▸ refused
  · rw [write_of_access found converts] at h
    cases h

theorem exists_write_iff : (∃ result, l.write buffer index v = .ok result) ↔
    buffer.length = l.size ∧
      ∃ t, l.fields.toList[index]? = some t ∧ ∃ w, v.coerce (.object t) = .ok w := by
  constructor
  · rintro ⟨result, h⟩
    rcases l.write_refused_or_stored buffer index v with ⟨e, refused⟩ | ⟨field, w, found, converts⟩
    · rw [write_of_refused refused] at h
      cases h
    · exact ⟨(access_eq_ok_iff.1 found).1, field.2, type_of_access found, w, converts⟩
  · rintro ⟨right, t, type, w, converts⟩
    obtain ⟨offset, found⟩ := exists_offset_of_type type
    exact ⟨_, write_of_access (access_of_field? right found) converts⟩

/-- The bytes of a value fill the range of a field of its type. -/
theorem overwriteAt?_of_access (small : l.size < 2 ^ 63)
    (h : l.access buffer.length index = .ok field) {w : Value}
    (converts : v.coerceObject field.2 = .ok w) :
    Bytes.overwriteAt? buffer field.1 field.2.size w.encode =
      some (Bytes.overwriteAt buffer field.1 field.2.size w.encode) := by
  have fills : w.encode.length = field.2.size :=
    Value.length_encode (Value.hasType_coerceObject converts)
  have range : (Bytes.slice buffer field.1 field.2.size).length = field.2.size :=
    Bytes.length_slice (stop_le_of_access h)
  rw [Bytes.overwriteAt?, slice?_of_access small h, Option.bind_some,
    if_pos (fills.trans range.symm)]

theorem write?_eq (small : l.size < 2 ^ 63) (buffer : Bytes) (index : Nat) (v : Value) :
    l.write? buffer index v = some (l.write buffer index v) := by
  cases h : l.access buffer.length index with
  | error e =>
    rw [write_of_access_error h]
    simp only [write?, h]
  | ok field =>
    cases converts : v.coerceObject field.2 with
    | error e =>
      rw [write_of_coerce_error h converts]
      simp only [write?, h, converts]
    | ok w =>
      rw [write_of_access h converts]
      simp only [write?, h, converts, overwriteAt?_of_access small h converts, Option.map_some]

/-- In every aggregate whose size is a machine word, every access to a field succeeds exactly if it
should, and its range lies in the buffer. -/
theorem accesses_in_bounds (small : l.size < 2 ^ 63) (buffer : Bytes) (index : Nat) (v : Value) :
    l.AccessedInBounds buffer index v where
  read_iff := exists_read_iff.trans exists_access_iff
  write_iff := exists_write_iff
  read_refused _ := read_eq_error_iff
  write_refused _ := write_eq_error_iff
  range_inside _ _ h := ⟨type_of_access h, stop_le_of_access h⟩
  read_whole _ h := hasType_of_read h
  write_whole _ _ _ h := Value.length_encode (Value.hasType_coerce h)
  read?_eq := read?_eq small buffer index
  write?_eq := write?_eq small buffer index v

/-- A byte, then an integer and a struct in one place. -/
def byteAndChoice : Layout :=
  ⟨.struct, .ofList (.scalar (.int .uint8)) [.aggregate .union (.ofList (.scalar (.int .int32))
    [.aggregate .struct (.ofList (.scalar (.int .uint16)) [.scalar (.int .uint8)])])]⟩

theorem accesses_in_bounds_nested :
    byteAndChoice.size < 2 ^ 63 ∧
    byteAndChoice.read? [1, 2, 3, 4, 5, 6, 7, 8] 1 = some (.ok (.aggregate [5, 6, 7, 8])) ∧
    byteAndChoice.write? [1, 2, 3, 4, 5, 6, 7, 8] 1 (.aggregate [0, 0, 0, 9]) =
      some (.ok [1, 2, 3, 4, 0, 0, 0, 9]) ∧
    byteAndChoice.WriteRefused 8 1 (.aggregate [9]) (.aggregateLength 4 1) ∧
    byteAndChoice.AccessRefused 7 2 (.bufferLength 8 7) := by
  have small : byteAndChoice.size < 2 ^ 63 := by decide
  have whole := accesses_in_bounds small [1, 2, 3, 4, 5, 6, 7, 8] 1
  have short := accesses_in_bounds small [1, 2, 3, 4, 5, 6, 7] 2 .void
  exact ⟨small, (whole .void).read?_eq, (whole (.aggregate [0, 0, 0, 9])).write?_eq,
    ((whole (.aggregate [9])).write_refused _).1 rfl, (short.read_refused _).1 rfl⟩

end Layout

end ForeignCall
