import ForeignCall.ErrorSlot.Basic
import Mathlib.Data.List.TakeWhile

/-!
# What readers of the error slot see

After a slot was cleared nothing is pending in it (`ReadsEmpty`).  After a diagnostic was recorded,
every reader sees as much of it as there is room for, and nothing of what the slot held before
(`Holds`).  A diagnostic is a string of at least one byte that does not end before its last
(`IsDiagnostic`): of others a reader would see less than was recorded.
-/

namespace ForeignCall

/-- The bytes are a text that ends where a zero byte follows it, and not before. -/
def IsDiagnostic (bytes : Bytes) : Prop := bytes ≠ [] ∧ 0 ∉ bytes

instance (bytes : Bytes) : Decidable (IsDiagnostic bytes) :=
  inferInstanceAs (Decidable (bytes ≠ [] ∧ 0 ∉ bytes))

theorem isDiagnostic_append {front back : Bytes} (hf : 0 ∉ front) (hb : IsDiagnostic back) :
    IsDiagnostic (front ++ back) :=
  ⟨List.append_ne_nil_of_right_ne_nil _ hb.1,
    fun zero => (List.mem_append.1 zero).elim hf hb.2⟩

theorem IsDiagnostic.append {front back : Bytes} (hf : IsDiagnostic front) (hb : 0 ∉ back) :
    IsDiagnostic (front ++ back) :=
  ⟨List.append_ne_nil_of_left_ne_nil hf.1 _,
    fun zero => (List.mem_append.1 zero).elim hf.2 hb⟩

theorem IsDiagnostic.take {bytes : Bytes} (h : IsDiagnostic bytes) {n : Nat} (hn : 0 < n) :
    IsDiagnostic (bytes.take n) := by
  refine ⟨?_, fun zero => h.2 (List.mem_of_mem_take zero)⟩
  rw [Ne, List.take_eq_nil_iff]
  exact fun none => none.elim (Nat.ne_of_gt hn) h.1

namespace ErrorSlot

/-- Every reader of the slot finds that no failure is pending. -/
structure ReadsEmpty (s : ErrorSlot) : Prop where
  content_eq : s.content = []
  cString_eq : s.cString = none
  text?_eq : s.text? = none
  pointer?_eq : s.pointer? = none

/-- Every reader of the slot finds the diagnostic, cut to the room there is. -/
structure Holds (s : ErrorSlot) (diagnostic : Bytes) : Prop where
  content_eq : s.content = diagnostic.take (capacity - 1)
  cString_eq : s.cString = some (diagnostic.take (capacity - 1))
  text?_eq : s.text? = some (Utf8.decodeLossy (diagnostic.take (capacity - 1)))
  pointer?_eq : ∃ rest, s.pointer? = some (diagnostic.take (capacity - 1) ++ 0 :: rest)

variable {s : ErrorSlot}

theorem WellFormed.buffer_eq (h : s.WellFormed) : ∃ rest, s.buffer = s.content ++ 0 :: rest := by
  obtain ⟨hlt, hzero⟩ := List.getElem?_eq_some_iff.1 h.buffer_length
  refine ⟨s.buffer.drop (s.length + 1), ?_⟩
  rw [content, ← hzero, ← List.drop_eq_getElem_cons hlt, List.take_append_drop]

theorem WellFormed.length_content (h : s.WellFormed) : s.content.length = s.length := by
  rw [content, List.length_take_of_le]
  exact h.length_buffer ▸ Nat.le_of_lt h.length_lt

theorem readsEmpty_clear (s : ErrorSlot) : s.clear.ReadsEmpty := ⟨rfl, rfl, rfl, rfl⟩

theorem readsEmpty_empty : empty.ReadsEmpty := ⟨rfl, rfl, rfl, rfl⟩

/-- What a slot holds is seen by its readers. -/
theorem holds_of_content (h : s.WellFormed) {diagnostic : Bytes} (hd : IsDiagnostic diagnostic)
    (content_eq : s.content = diagnostic.take (capacity - 1)) : s.Holds diagnostic := by
  have ⟨nonempty, noZero⟩ := hd.take (by decide : 0 < capacity - 1)
  obtain ⟨rest, buffer⟩ := h.buffer_eq
  rw [content_eq] at buffer
  have pending : s.isPending = true := by
    rw [isPending, ← h.length_content, content_eq, bne_iff_ne, Ne, List.length_eq_zero_iff]
    exact nonempty
  have whole : s.buffer.takeWhile (· != 0) = diagnostic.take (capacity - 1) := by
    rw [buffer, List.takeWhile_append_of_pos, List.takeWhile_cons_of_neg (by decide),
      List.append_nil]
    exact fun b hb => bne_iff_ne.2 fun zero => noZero (zero ▸ hb)
  have cString_eq : s.cString = some (diagnostic.take (capacity - 1)) := by
    have ends : s.buffer.contains 0 = true := by
      rw [buffer, List.contains_iff_mem]
      exact List.mem_append_right _ List.mem_cons_self
    rw [cString, pending, ends, whole]
    rfl
  refine ⟨content_eq, cString_eq, ?_, rest, ?_⟩
  · rw [text?, cString_eq, Option.map_some]
  · rw [pointer?, if_pos pending, buffer]

theorem holds_setBytes (h : s.WellFormed) {diagnostic : Bytes} (hd : IsDiagnostic diagnostic) :
    (s.setBytes diagnostic).Holds diagnostic :=
  holds_of_content (h.setBytes diagnostic) hd (content_setBytes h diagnostic)

theorem holds_setText (h : s.WellFormed) {text : String} (hd : IsDiagnostic (Utf8.encode text)) :
    (s.setText text).Holds (Utf8.encode text) :=
  holds_setBytes h hd

end ErrorSlot

end ForeignCall
