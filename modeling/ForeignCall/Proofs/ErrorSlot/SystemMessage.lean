import ForeignCall.Proofs.ErrorSlot.History
import ForeignCall.Proofs.Text.Utf16
import ForeignCall.Proofs.Text.Utf8Reading
import Mathlib.Data.List.DropRight

/-!
# System messages that fit

What the message of a system error is can be said without the way it is put together
(`ErrorSlot.IsMessage`): the context, what the system's text spells without the line breaks at its
end, or the number of the error.  A message that fits is recorded in full, whatever the slot held
before, and `ErrorSlot.text?` gives it back (`ErrorSlot.systemMessage_recorded_exactly`).
-/

namespace ForeignCall.ErrorSlot

open Utf8

/-! ## The message of an error -/

/-- The units are carriage returns and line feeds. -/
def AreBreaks (units : List UInt16) : Prop := ∀ u ∈ units, u = 0x0d ∨ u = 0x0a

instance (units : List UInt16) : Decidable (AreBreaks units) :=
  -- An instance that is searched for may try all units there are.
  List.decidableBAll _ units

/-- Of the units `kept ++ breaks` those are kept that stand before the line breaks at the end, and
there are some. -/
structure Trims (kept breaks : List UInt16) : Prop where
  nonempty : kept ≠ []
  last : ∀ u ∈ kept.getLast?, ¬ (u = 0x0d ∨ u = 0x0a)
  breaks : AreBreaks breaks

/-- The message in a context for a code and the units of the system's text, if there is one. -/
inductive IsMessage (context : String) : Nat → Option (List UInt16) → String → Prop
  | context (units : Option (List UInt16)) : IsMessage context 0 units context
  | text {code : Nat} {kept breaks : List UInt16} {cs : List Char} (failure : code ≠ 0)
      (trims : Trims kept breaks) (spells : Utf16.Spells kept cs) :
      IsMessage context code (some (kept ++ breaks)) (context ++ ": " ++ String.ofList cs)
  | number {code : Nat} {units : Option (List UInt16)} (failure : code ≠ 0)
      (blank : ∀ us ∈ units, AreBreaks us) :
      IsMessage context code units (context ++ " (error " ++ toString code ++ ")")

theorem isLineBreak_iff (u : UInt16) : isLineBreak u = true ↔ u = 0x0d ∨ u = 0x0a := by
  rw [isLineBreak, Bool.or_eq_true, beq_iff_eq, beq_iff_eq]

theorem trimLineBreaks_eq_nil_iff {units : List UInt16} :
    trimLineBreaks units = [] ↔ AreBreaks units :=
  List.rdropWhile_eq_nil_iff.trans (forall₂_congr fun u _ => isLineBreak_iff u)

theorem Trims.trimLineBreaks_eq {kept breaks : List UInt16} (h : Trims kept breaks) :
    trimLineBreaks (kept ++ breaks) = kept := by
  have dropped : breaks.reverse.dropWhile isLineBreak = [] := by
    refine List.dropWhile_eq_nil_iff.2 fun u hu => (isLineBreak_iff u).2 ?_
    exact h.breaks u (List.mem_reverse.1 hu)
  have stays : kept.rdropWhile isLineBreak = kept := by
    refine List.rdropWhile_eq_self_iff.2 fun nonempty isBreak => ?_
    exact h.last _ (List.getLast?_eq_some_getLast nonempty) ((isLineBreak_iff _).1 isBreak)
  rw [trimLineBreaks, List.reverse_append, List.dropWhile_append, dropped]
  exact stays

theorem exists_trims {units : List UInt16} (h : trimLineBreaks units ≠ []) :
    ∃ breaks, Trims (trimLineBreaks units) breaks ∧ units = trimLineBreaks units ++ breaks := by
  refine ⟨units.rtakeWhile isLineBreak, ⟨h, fun u hu isBreak => ?_, fun u hu => ?_⟩, ?_⟩
  · rw [List.getLast?_eq_some_getLast h, Option.mem_some_iff] at hu
    subst hu
    exact List.rdropWhile_last_not isLineBreak units h ((isLineBreak_iff _).2 isBreak)
  · exact (isLineBreak_iff u).1 (List.mem_rtakeWhile_imp hu)
  · exact List.rdropWhile_append_rtakeWhile.symm

/-- There is one message for an error, the one that is recorded. -/
theorem isMessage_iff {context : String} {code : Nat} {units : Option (List UInt16)} {m : String} :
    IsMessage context code units m ↔ m = systemMessage context code units := by
  constructor
  · intro h
    cases h with
    | context => rfl
    | text failure trims spells =>
      have kept := trims.trimLineBreaks_eq
      have nonempty := mt List.isEmpty_iff.1 trims.nonempty
      rw [systemMessage, if_neg failure, Option.getD_some, kept, if_neg nonempty,
        Utf16.spells_iff.1 spells]
    | number failure blank =>
      have empty : trimLineBreaks (units.getD []) = [] := by
        cases units with
        | none => rfl
        | some us => exact trimLineBreaks_eq_nil_iff.2 (blank us rfl)
      rw [systemMessage, if_neg failure, empty]
      rfl
  · rintro rfl
    by_cases zero : code = 0
    · subst zero
      exact .context units
    · rw [systemMessage, if_neg zero]
      split
      next empty =>
        refine .number zero fun us hus => trimLineBreaks_eq_nil_iff.1 ?_
        obtain rfl : units = some us := hus
        exact List.isEmpty_iff.1 empty
      next kept =>
        cases units with
        | none => exact absurd rfl kept
        | some us =>
          obtain ⟨breaks, trims, split⟩ := exists_trims (mt List.isEmpty_iff.2 kept)
          have spells := Utf16.spells_decode (trimLineBreaks us)
          have message : IsMessage context code _ _ := .text zero trims spells
          rwa [← split] at message

/-! ## A text that fits -/

variable {s : ErrorSlot}

theorem content_setSystemMessage (h : s.WellFormed) {context : String} {code : Nat}
    {units : Option (List UInt16)}
    (fits : (encode (systemMessage context code units)).length ≤ capacity - 1) :
    (s.setSystemMessage context code units).content =
      encode (systemMessage context code units) := by
  by_cases zero : code = 0
  · have message : systemMessage context code units = context := if_pos zero
    rw [message] at fits ⊢
    rw [setSystemMessage, if_pos zero, content_setText h, List.take_of_length_le fits]
  · rw [← join_systemPieces context units zero] at fits ⊢
    rw [setSystemMessage_of_ne zero, content_setPieces h, keptChars_eq_of_length_le fits]
    rfl

/-- What a reader makes of a slot that holds a text. -/
theorem text?_of_content (h : s.WellFormed) {m : String} (nonempty : m ≠ "")
    (noZero : '\x00' ∉ m.toList) (fits : m.utf8ByteSize ≤ capacity - 1)
    (content_eq : s.content = encode m) : s.text? = some m := by
  rw [← length_encode] at fits
  have whole : (encode m).take (capacity - 1) = encode m := List.take_of_length_le fits
  have diagnostic : IsDiagnostic (encode m) := by
    refine ⟨fun empty => nonempty ?_, mt (zero_mem_encode_iff m).1 noZero⟩
    rw [← decodeLossy_encode m, empty]
    rfl
  have reading := (holds_of_content h diagnostic (content_eq.trans whole.symm)).text?_eq
  rw [reading, whole, decodeLossy_encode]

theorem text?_setSystemMessage (h : s.WellFormed) {context : String} {code : Nat}
    {units : Option (List UInt16)} {m : String} (message : IsMessage context code units m)
    (fits : m.utf8ByteSize ≤ capacity - 1) (nonempty : m ≠ "") (noZero : '\x00' ∉ m.toList) :
    (s.setSystemMessage context code units).text? = some m := by
  obtain rfl := isMessage_iff.1 message
  refine text?_of_content (h.setSystemMessage context code units) nonempty noZero fits ?_
  exact content_setSystemMessage h (length_encode _ ▸ fits)

/-! ## A text that is passed as units -/

theorem trims_encode {text : String} (nonempty : text ≠ "")
    (last : ∀ c ∈ text.toList.getLast?, ¬ (c = '\r' ∨ c = '\n')) {breaks : List UInt16}
    (hbreaks : AreBreaks breaks) : Trims (Utf16.encode text) breaks := by
  obtain ⟨front, c, split⟩ : ∃ front c, text.toList = front ++ [c] :=
    (List.eq_nil_or_concat' text.toList).resolve_left (mt String.toList_eq_nil_iff.1 nonempty)
  obtain ⟨u, hu, number⟩ := Utf16.exists_getLast?_encodeChar c
  have units : Utf16.encode text = front.flatMap Utf16.encodeChar ++ Utf16.encodeChar c := by
    rw [Utf16.encode, split, List.flatMap_append, List.flatMap_singleton]
  have lastUnit : (Utf16.encode text).getLast? = some u := by
    rw [units, List.getLast?_append, hu, Option.some_or]
  refine ⟨fun empty => ?_, fun v hv isBreak => ?_, hbreaks⟩
  · rw [empty] at lastUnit
    exact nomatch lastUnit
  · obtain rfl : u = v := Option.some.inj (lastUnit.symm.trans hv)
    have lastChar : ¬ (c = '\r' ∨ c = '\n') := last c (by rw [split, List.getLast?_concat]; rfl)
    rcases isBreak with rfl | rfl
    · exact lastChar (Or.inl (Char.toNat_inj.1 (number (by decide)).symm))
    · exact lastChar (Or.inr (Char.toNat_inj.1 (number (by decide)).symm))

/-- The message that fits is recorded exactly, whatever the slot held: the readers see the one
message there is for the error.  A text that does not end in a line break is recorded as it is
where its units are passed with any line breaks behind them. -/
theorem systemMessage_recorded_exactly (h : s.WellFormed) (context : String) (code : Nat) :
    (∀ units, ∃! m, IsMessage context code units m) ∧
    (∀ units m, IsMessage context code units m →
      m.utf8ByteSize ≤ capacity - 1 → m ≠ "" → '\x00' ∉ m.toList →
        (s.setSystemMessage context code units).text? = some m) ∧
    ∀ (text : String) (breaks : List UInt16), code ≠ 0 → text ≠ "" →
      (∀ c ∈ text.toList.getLast?, ¬ (c = '\r' ∨ c = '\n')) → AreBreaks breaks →
      (context ++ ": " ++ text).utf8ByteSize ≤ capacity - 1 →
      '\x00' ∉ (context ++ ": " ++ text).toList →
        (s.setSystemMessage context code (some (Utf16.encode text ++ breaks))).text? =
          some (context ++ ": " ++ text) := by
  refine ⟨fun units => ?_, fun units m message fits nonempty noZero => ?_,
    fun text breaks failure nonempty last hbreaks fits noZero => ?_⟩
  · exact ⟨systemMessage context code units, isMessage_iff.2 rfl, fun m => isMessage_iff.1⟩
  · exact text?_setSystemMessage h message fits nonempty noZero
  · have message : IsMessage context code _ _ :=
      .text failure (trims_encode nonempty last hbreaks) (Utf16.spells_encode text)
    rw [String.ofList_toList] at message
    exact text?_setSystemMessage h message fits (by simp) noZero

/-- A pair of surrogates, a surrogate without its partner and two line breaks, recorded over an
earlier failure. -/
theorem systemMessage_recorded_exactly_surrogates :
    (empty.setText "an earlier failure").WellFormed ∧
      IsMessage "open" 5 (some [0x41, 0xd83d, 0xde00, 0xd800, 0x42, 0x0d, 0x0a])
        "open: A😀\uFFFDB" ∧
      ((empty.setText "an earlier failure").setSystemMessage "open" 5
        (some [0x41, 0xd83d, 0xde00, 0xd800, 0x42, 0x0d, 0x0a])).text? =
          some "open: A😀\uFFFDB" ∧
      ((empty.setText "an earlier failure").setSystemMessage "open" 5
        (some (Utf16.encode "A😀" ++ [0x0d, 0x0a]))).text? = some ("open" ++ ": " ++ "A😀") := by
  have slot : (empty.setText "an earlier failure").WellFormed := .setText .empty _
  have message : IsMessage "open" 5 (some [0x41, 0xd83d, 0xde00, 0xd800, 0x42, 0x0d, 0x0a])
      "open: A😀\uFFFDB" := isMessage_iff.2 rfl
  have last : ∀ c ∈ "A😀".toList.getLast?, ¬ (c = '\r' ∨ c = '\n') := by
    rintro c ⟨⟩
    decide
  have ⟨_, recorded, encoded⟩ := systemMessage_recorded_exactly slot "open" 5
  exact ⟨slot, message, recorded _ _ message (by decide) (by decide) (by decide),
    encoded _ _ (by decide) (by decide) last (by decide) (by decide) (by decide)⟩

end ForeignCall.ErrorSlot
