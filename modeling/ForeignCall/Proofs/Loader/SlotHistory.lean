import ForeignCall.Proofs.ErrorSlot.Extent
import ForeignCall.Proofs.Loader.LatestOperation

/-!
# Loader sessions as histories of error slots

Whatever a platform answers, an operation of the loader does to the slot of its thread what some
operations on slots do (`ErrorSlot.Becomes`), and the error of an operation that fails is made from
the slot it leaves (`LoaderSession.StepRecorded`).  So what holds of the slots after every history
holds of those in every session, and in particular readers see no more of them than there is room
for (`LoaderSession.readers_bounded`).
-/

namespace ForeignCall

variable {π α : Type}

/-! ## Slots that follow from one another -/

theorem SlotOperation.runAll_append (s : ErrorSlot) (first second : List SlotOperation) :
    runAll s (first ++ second) = runAll (runAll s first) second := by
  induction first generalizing s with
  | nil => rfl
  | cons operation rest ih => exact ih (operation.run s)

namespace ErrorSlot

/-- The slot `t` is what operations make of `s`. -/
def Becomes (s t : ErrorSlot) : Prop := ∃ operations, SlotOperation.runAll s operations = t

theorem Becomes.refl (s : ErrorSlot) : s.Becomes s := ⟨[], rfl⟩

variable {s t u : ErrorSlot}

theorem Becomes.trans (h : s.Becomes t) (h' : t.Becomes u) : s.Becomes u := by
  obtain ⟨first, rfl⟩ := h
  obtain ⟨second, rfl⟩ := h'
  exact ⟨first ++ second, SlotOperation.runAll_append s first second⟩

theorem becomes_clear (s : ErrorSlot) : s.Becomes s.clear := ⟨[.clear], rfl⟩

theorem Becomes.setText (h : s.Becomes t) (text : String) : s.Becomes (t.setText text) :=
  h.trans ⟨[.setText text], rfl⟩

theorem Becomes.record (h : s.Becomes t) (fallback : String) (diagnostic : Option Bytes) :
    s.Becomes (t.record fallback diagnostic) := by
  cases diagnostic with
  | none => exact h.setText fallback
  | some bytes => exact h.trans ⟨[.setBytes bytes], rfl⟩

theorem Becomes.bounded (h : empty.Becomes s) : s.Bounded := by
  obtain ⟨history, rfl⟩ := h
  exact (SlotOperation.runAll?_eq .empty history).2.bounded

end ErrorSlot

/-- The error that is answered, if any. -/
def LoaderOutcome.error? : LoaderOutcome → Option Error
  | .failed e => some e
  | _ => none

/-! ## Operations -/

section Operations

variable (P : Platform π) (view : ThreadView π)

theorem becomes_openHandle (path : Option Bytes) (options : OpenOptions) :
    view.slot.Becomes (P.openHandle path options view).2.slot := by
  have cleared := view.slot.becomes_clear
  unfold Platform.openHandle
  dsimp only
  split
  · exact cleared.setText _
  · split
    · exact cleared
    · exact cleared.record _ _

theorem becomes_findAddress (handle : Option Handle) (name : Bytes) :
    view.slot.Becomes (P.findAddress handle name view).2.slot := by
  have cleared := view.slot.becomes_clear
  unfold Platform.findAddress
  dsimp only
  split
  · exact cleared
  · exact cleared.record _ _

theorem becomes_releaseHandle (handle : Option Handle) :
    view.slot.Becomes (P.releaseHandle handle view).2.slot := by
  have cleared := view.slot.becomes_clear
  unfold Platform.releaseHandle
  dsimp only
  split
  · exact cleared
  · split
    · exact cleared
    · split
      · exact cleared
      · exact cleared.record _ _

theorem becomes_resolve (handle : Option Handle) (name : Option Bytes) :
    view.slot.Becomes (P.resolve handle name view).2.slot := by
  cases name with
  | none => exact (ErrorSlot.Becomes.refl _).setText _
  | some name => exact becomes_findAddress P view handle name

/-- An operation on an owned library leads to the slot it leaves, and an error has the text of that
slot as message. -/
structure Recorded (s : ErrorSlot) (result : Except Error α × ThreadView π) : Prop where
  becomes : s.Becomes result.2.slot
  message_eq : ∀ e, result.1 = .error e → result.2.slot.capture e.kind = e.message

section Results

variable {view}

theorem recorded_ok {s : ErrorSlot} (a : α) (h : s.Becomes view.slot) :
    Recorded s ((.ok a : Except Error α), view) :=
  ⟨h, fun _ result => nomatch result⟩

theorem recorded_failure {s : ErrorSlot} (stage : LoaderStage) (h : s.Becomes view.slot) :
    Recorded s ((.error (view.failure stage) : Except Error α), view) := by
  refine ⟨h, ?_⟩
  rintro e ⟨⟩
  rfl

theorem recorded_ofHandle {s : ErrorSlot} {opened : Option Handle × ThreadView π}
    (h : s.Becomes opened.2.slot) : Recorded s (Library.ofHandle opened) := by
  rcases opened with ⟨_ | handle, view⟩
  · exact recorded_failure .load h
  · exact recorded_ok _ h

end Results

theorem recorded_symbol (lib : Library) (name : Bytes) :
    Recorded view.slot (lib.symbol P name view) := by
  unfold Library.symbol
  split
  · exact recorded_failure .resolve ((ErrorSlot.Becomes.refl _).setText _)
  · have becomes := becomes_findAddress P view (some lib.handle) name
    rcases found : P.findAddress (some lib.handle) name view with ⟨_ | address, after⟩
    · rw [found] at becomes
      exact recorded_failure .resolve becomes
    · rw [found] at becomes
      exact recorded_ok _ becomes

theorem recorded_close (lib : Library) : Recorded view.slot (lib.close P view) := by
  have becomes := becomes_releaseHandle P view (some lib.handle)
  unfold Library.close
  rcases released : P.releaseHandle (some lib.handle) view with ⟨_ | _, after⟩
  · rw [released] at becomes
    exact recorded_failure .release becomes
  · rw [released] at becomes
    exact recorded_ok _ becomes

end Operations

/-! ## Sessions -/

namespace LoaderSession

variable {P : Platform π} {s : LoaderSession π} {thread : Nat}

/-- A step makes of every slot what operations on slots make of it, and the error of a step that
fails has the text of the slot of its thread as message. -/
structure StepRecorded (s : LoaderSession π) (thread : Nat)
    (answer : LoaderOutcome × LoaderSession π) : Prop where
  becomes : ∀ t, (s.slots t).Becomes (answer.2.slots t)
  message_eq : ∀ e, answer.1.error? = some e → (answer.2.slots thread).capture e.kind = e.message

theorem becomes_setView {view : ThreadView π} (h : (s.slots thread).Becomes view.slot) (t : Nat) :
    (s.slots t).Becomes ((s.setView thread view).slots t) := by
  by_cases own : t = thread
  · rw [own, slots_setView]
    exact h
  · have other : (s.setView thread view).slots t = s.slots t := if_neg own
    exact other ▸ .refl _

/-- A step that gives no error. -/
theorem stepRecorded_of_view {view : ThreadView π} {outcome : LoaderOutcome}
    {after : LoaderSession π} (h : (s.slots thread).Becomes view.slot)
    (slots : after.slots = (s.setView thread view).slots) (good : outcome.error? = none) :
    StepRecorded s thread (outcome, after) where
  becomes t := slots ▸ becomes_setView h t
  message_eq _ failed := nomatch good.symm.trans failed

theorem stepRecorded_of_error {view : ThreadView π} {e : Error} {after : LoaderSession π}
    (h : Recorded (s.slots thread) ((.error e : Except Error α), view))
    (slots : after.slots = (s.setView thread view).slots) :
    StepRecorded s thread (.failed e, after) where
  becomes t := slots ▸ becomes_setView h.becomes t
  message_eq e failed := by
    cases failed
    rw [slots, slots_setView]
    exact h.message_eq _ rfl

/-- A step that touches no slot. -/
theorem stepRecorded_of_slots {outcome : LoaderOutcome} {after : LoaderSession π}
    (slots : after.slots = s.slots) (good : outcome.error? = none) :
    StepRecorded s thread (outcome, after) where
  becomes _ := slots ▸ .refl _
  message_eq _ failed := nomatch good.symm.trans failed

theorem stepRecorded_opened {result : Except Error Library × ThreadView π}
    (h : Recorded (s.slots thread) result) (name : String) :
    StepRecorded s thread (s.opened P thread name result) := by
  rcases result with ⟨e | lib, view⟩
  · exact stepRecorded_of_error h rfl
  · exact stepRecorded_of_view h.becomes (slots_bindLibrary P _ thread name lib) rfl

theorem stepRecorded_withLibrary {f : Library → LoaderOutcome × LoaderSession π} (name : String)
    (known : ∀ lib, StepRecorded s thread (f lib)) :
    StepRecorded s thread (s.withLibrary name f) := by
  unfold withLibrary
  split
  · exact known _
  · exact stepRecorded_of_slots rfl rfl

theorem stepRecorded_withHandle {f : Option Handle → LoaderOutcome × LoaderSession π}
    (name : Option String) (known : ∀ handle, StepRecorded s thread (f handle)) :
    StepRecorded s thread (s.withHandle name f) := by
  unfold withHandle
  split
  · exact known _
  · exact stepRecorded_of_slots rfl rfl

theorem stepRecorded_step (P : Platform π) (s : LoaderSession π) (thread : Nat)
    (command : LoaderCommand) : StepRecorded s thread (s.step P thread command) := by
  cases command with
  | openPath path options name =>
    exact stepRecorded_opened (recorded_ofHandle (becomes_openHandle P (s.view thread) _ _)) name
  | openThis name =>
    exact stepRecorded_opened (recorded_ofHandle (becomes_openHandle P (s.view thread) _ _)) name
  | symbol library symbol name =>
    refine stepRecorded_withLibrary library fun lib => ?_
    have recorded := recorded_symbol P (s.view thread) lib symbol
    generalize lib.symbol P symbol (s.view thread) = result at recorded ⊢
    rcases result with ⟨e | a, view⟩
    · exact stepRecorded_of_error recorded rfl
    · exact stepRecorded_of_view recorded.becomes rfl rfl
  | close library =>
    refine stepRecorded_withLibrary library fun lib => ?_
    have recorded := recorded_close P (s.view thread) lib
    generalize lib.close P (s.view thread) = result at recorded ⊢
    rcases result with ⟨e | _, view⟩
    · exact stepRecorded_of_error recorded rfl
    · exact stepRecorded_of_view recorded.becomes rfl rfl
  | drop library =>
    exact stepRecorded_withLibrary library fun lib =>
      stepRecorded_of_slots (slots_setView_drop P s thread lib) rfl
  | giveUp library name =>
    exact stepRecorded_withLibrary library fun _ => stepRecorded_of_slots rfl rfl
  | adopt handle name =>
    refine stepRecorded_withHandle handle fun handle => ?_
    cases handle with
    | none => exact stepRecorded_of_slots rfl rfl
    | some handle =>
      exact stepRecorded_of_slots (slots_bindLibrary P s thread name ⟨handle⟩) rfl
  | openRaw path name =>
    have becomes := becomes_openHandle P (s.view thread) path {}
    rw [step]
    generalize P.openHandle path {} (s.view thread) = result at becomes ⊢
    rcases result with ⟨_ | handle, view⟩
    · exact stepRecorded_of_view becomes rfl rfl
    · exact stepRecorded_of_view becomes rfl rfl
  | resolveRaw handle name =>
    refine stepRecorded_withHandle handle fun raw => ?_
    have becomes := becomes_resolve P (s.view thread) raw name
    generalize P.resolve raw name (s.view thread) = result at becomes ⊢
    rcases result with ⟨_ | address, view⟩
    · exact stepRecorded_of_view becomes rfl rfl
    · exact stepRecorded_of_view becomes rfl rfl
  | closeRaw handle =>
    exact stepRecorded_withHandle handle fun raw =>
      stepRecorded_of_view (becomes_releaseHandle P (s.view thread) raw) rfl rfl

/-- A run makes of every slot what operations on slots make of it. -/
theorem becomes_run (P : Platform π) (commands : List (Nat × LoaderCommand)) (t : Nat) :
    ∀ s : LoaderSession π, (s.slots t).Becomes ((s.run P commands).slots t) := by
  induction commands with
  | nil => exact fun s => .refl _
  | cons entry rest ih =>
    obtain ⟨thread, command⟩ := entry
    exact fun s => ((stepRecorded_step P s thread command).becomes t).trans (ih _)

theorem becomes_run_start (P : Platform π) (platform : π) (commands : List (Nat × LoaderCommand))
    (t : Nat) : ErrorSlot.empty.Becomes (((start platform).run P commands).slots t) :=
  becomes_run P commands t (start platform)

/-! ## What readers see -/

/-- After every history of operations on slots, and after every session on any platform, readers of
the slots see no more than there is room for, up to the replacements in a text.  The message of the
error of a step that fails is one that the slot of its thread shows.  Of a message that was recorded
in pieces no more is shown than there is room for. -/
theorem readers_bounded (P : Platform π) (platform : π) (commands : List (Nat × LoaderCommand)) :
    (∀ history : List SlotOperation,
      let s := SlotOperation.runAll .empty history
      s.Bounded ∧ ∀ pieces message, (s.setPieces pieces).Shows message →
        message.utf8ByteSize ≤ ErrorSlot.capacity - 1) ∧
    let s := (start platform).run P commands
    (∀ thread, (s.slots thread).Bounded) ∧
      ∀ thread command e, (s.step P thread command).1 = .failed e →
        ((s.step P thread command).2.slots thread).Bounded ∧
          ((s.step P thread command).2.slots thread).Shows e.message := by
  refine ⟨fun history => ?_, fun thread => (becomes_run_start P platform commands thread).bounded,
    fun thread command e failed => ?_⟩
  · have wellFormed := (SlotOperation.runAll?_eq .empty history).2
    refine ⟨wellFormed.bounded, fun pieces message => ?_⟩
    exact (wellFormed.setPieces pieces).bounded.shows_le_of_lendsText
      (ErrorSlot.lendsText_setPieces wellFormed pieces) message
  · have recorded := stepRecorded_step P ((start platform).run P commands) thread command
    have slot := (becomes_run_start P platform commands thread).trans (recorded.becomes thread)
    exact ⟨slot.bounded, .inr ⟨e.kind, recorded.message_eq e (congrArg _ failed)⟩⟩

theorem readers_bounded_directory : ∃ e,
    let answer := (start oneObject.start).step oneObject.platform 0
      (.openPath (Utf8.encode "/") {} "root")
    answer.1 = .failed e ∧ (answer.2.slots 0).Bounded ∧ (answer.2.slots 0).Shows e.message := by
  have ⟨_, _, steps⟩ := readers_bounded oneObject.platform oneObject.start []
  exact ⟨_, rfl, steps 0 (.openPath (Utf8.encode "/") {} "root") _ rfl⟩

/-- A path that the platform cannot open is answered with what the platform says about it. -/
theorem step_openPath_of_error {P : Platform π} (s : LoaderSession π) (thread : Nat)
    {path d : Bytes} {options : OpenOptions} {p : π} (name : String)
    (h : (s.slots thread).WellFormed) (noZero : 0 ∉ path) (nonempty : path ≠ [])
    (diagnostic : IsDiagnostic d)
    (answer : P.openObject (some path) options s.platform = (.error (some d), p)) :
    let text := Utf8.decodeLossy (d.take (ErrorSlot.capacity - 1))
    let answer := s.step P thread (.openPath path options name)
    answer.1 = .failed (.loader .load text) ∧ (answer.2.slots thread).text? = some text := by
  have contains : path.contains 0 = false := by
    rw [← Bool.not_eq_true, List.contains_iff_mem]
    exact noZero
  have whole : (some path).filter (fun path => !path.isEmpty) = some path := by
    simpa [Option.filter_eq_some_iff] using nonempty
  have opened : P.openHandle (some path) options (s.view thread) =
      (none, ⟨(s.slots thread).clear.setBytes d, p⟩) := by
    unfold Platform.openHandle
    simp only [Option.getD_some, contains, Bool.false_eq_true, if_false, whole, view, answer]
    rfl
  have text := (ErrorSlot.holds_setBytes h.clear diagnostic).text?_eq
  rw [step, Library.ofPath, opened]
  simp only [Library.ofHandle, LoaderSession.opened, ThreadView.failure, ErrorSlot.capture, text,
    Option.getD_some, slots_setView, and_self]

/-- A path that leaves room for one more byte in a slot. -/
def accentedPath : List Char := '/' :: 'a' :: List.replicate 254 'é'

theorem length_encode_accentedPath : (Utf8.encodeChars accentedPath).length = 510 := by
  have two : 'é'.utf8Size = 2 := rfl
  have bytes := Utf8.length_encodeChars_replicate 254 'é'
  rw [two] at bytes
  rw [accentedPath, Utf8.encodeChars_cons, Utf8.encodeChars_cons, List.length_append,
    List.length_append, bytes]
  rfl

/-- Of a character of two bytes behind it the first is kept. -/
theorem take_encode_accentedPath (rest : Bytes) :
    (Utf8.encodeChars (accentedPath ++ ['é']) ++ rest).take (ErrorSlot.capacity - 1) =
      Utf8.encodeChars accentedPath ++ [0xc3] := by
  have bytes : Utf8.encodeChars (accentedPath ++ ['é']) ++ rest =
      (Utf8.encodeChars accentedPath ++ [0xc3]) ++ 0xa9 :: rest := by
    rw [Utf8.encodeChars_append, List.append_assoc, List.append_assoc]
    rfl
  rw [bytes]
  refine List.take_left' ?_
  rw [List.length_append, length_encode_accentedPath]
  rfl

theorem utf8ByteSize_accentedPath :
    (Utf8.decodeLossy (Utf8.encodeChars accentedPath ++ [0xc3])).utf8ByteSize = 513 := by
  have half : Utf8.decodeChars [0xc3] = [Utf8.replacement] := rfl
  rw [Utf8.decodeLossy, Utf8.utf8ByteSize_ofList, Utf8.decodeChars_encodeChars_append, half,
    Utf8.encodeChars_append, List.length_append, length_encode_accentedPath]
  rfl

theorem encodeChars_slash (cs : List Char) :
    Utf8.encodeChars ('/' :: cs) = 0x2f :: Utf8.encodeChars cs := rfl

/-- The half of a character that is kept is read as a replacement, which is longer. -/
theorem message_exceeds_capacity : ∃ e,
    let answer := (start oneObject.start).step oneObject.platform 0
      (.openPath (Utf8.encodeChars (accentedPath ++ ['é'])) {} "accented")
    answer.1 = .failed e ∧ (answer.2.slots 0).text? = some e.message ∧
      ¬ e.message.utf8ByteSize ≤ ErrorSlot.capacity - 1 := by
  have noZero : 0 ∉ Utf8.encodeChars (accentedPath ++ ['é']) := by
    rw [Utf8.zero_mem_encodeChars_iff, accentedPath]
    simp only [List.mem_append, List.mem_cons, List.mem_replicate, List.not_mem_nil]
    decide
  have cut := take_encode_accentedPath
  -- With the rest of the path unknown no step below computes it.
  obtain ⟨rest, path⟩ : ∃ rest, Utf8.encodeChars (accentedPath ++ ['é']) = 0x2f :: rest :=
    ⟨_, encodeChars_slash _⟩
  rw [path] at noZero cut ⊢
  have answer : oneObject.platform.openObject (some (0x2f :: rest)) {} oneObject.start =
      (.error (some (Installation.cannotOpen (0x2f :: rest))), oneObject.start) := rfl
  have diagnostic : IsDiagnostic (Installation.cannotOpen (0x2f :: rest)) :=
    isDiagnostic_append noZero (by split <;> decide)
  obtain ⟨failed, text⟩ := step_openPath_of_error (start oneObject.start) 0 "accented" .empty
    noZero (List.cons_ne_nil _ _) diagnostic answer
  refine ⟨_, failed, text, ?_⟩
  rw [Error.message, Installation.cannotOpen, cut, utf8ByteSize_accentedPath]
  decide

end LoaderSession

end ForeignCall
