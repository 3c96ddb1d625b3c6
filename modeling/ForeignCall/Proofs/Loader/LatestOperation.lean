import ForeignCall.Loader.Session
import ForeignCall.Proofs.Loader.Operation

/-!
# The slot tells of the latest operation

In a session of any threads, a step of a thread leaves the slots of the others alone and ends in one
of four ways (`LoaderSession.StepEffect`): it touches no slot, as a drop does; it succeeds and its
slot is empty; it fails on an owned library with an error whose message is the text of the slot; or
it is a raw operation that fails and says no more than that.  So after every run the slot of a
thread tells of the latest operation of this thread (`LoaderSession.latestReport`).
-/

namespace ForeignCall

variable {π : Type}

/-! ## Commands -/

namespace LoaderCommand

/-- The stage of a command that reports to its thread; a drop and a change of owner do not. -/
def stage? : LoaderCommand → Option LoaderStage
  | .openPath .. | .openThis _ | .openRaw .. => some .load
  | .symbol .. | .resolveRaw .. => some .resolve
  | .close _ | .closeRaw _ => some .release
  | .drop _ | .giveUp .. | .adopt .. => none

/-- What a raw command answers if it fails; the others answer with an error. -/
def rawFailure? : LoaderCommand → Option LoaderOutcome
  | .openRaw .. | .resolveRaw .. => some .null
  | .closeRaw _ => some (.released false)
  | _ => none

/-- A raw name is a string that ends at its first zero byte, so there is none in it. -/
def IsValid : LoaderCommand → Prop
  | .resolveRaw _ (some name) => 0 ∉ name
  | _ => True

end LoaderCommand

/-- The answer of an operation that succeeded. -/
def LoaderOutcome.IsSuccess : LoaderOutcome → Prop
  | .done | .address _ | .released true => True
  | _ => False

namespace LoaderSession

/-! ## Reports of commands -/

/-- What the command has to report to its thread, if it reports at all. -/
def report (P : Platform π) (s : LoaderSession π) : LoaderCommand → Option Report
  | .openPath path options _ => some (P.openReport (some path) options s.platform)
  | .openThis _ => some (P.openReport none {} s.platform)
  | .symbol library symbol _ =>
    (s.libraries.lookup library).map fun lib => P.symbolReport lib symbol s.platform
  | .close library =>
    (s.libraries.lookup library).map fun lib => P.releaseReport (some lib.handle) s.platform
  | .openRaw path _ => some (P.openReport path {} s.platform)
  | .resolveRaw handle symbol =>
    (s.handle? handle).map fun handle => P.resolveReport handle symbol s.platform
  | .closeRaw handle => (s.handle? handle).map fun handle => P.releaseReport handle s.platform
  | .drop _ | .giveUp .. | .adopt .. => none

/-- The latest report of the thread in a run, where `known` is the one before the run. -/
def latestReport (P : Platform π) (thread : Nat) (s : LoaderSession π) (known : Report) :
    List (Nat × LoaderCommand) → Report
  | [] => known
  | (t, command) :: rest =>
    latestReport P thread (s.step P t command).2
      (if t = thread then (s.report P command).getD known else known) rest

/-- Only the slot of the thread may differ, and it is well formed. -/
structure OnlyThread (s after : LoaderSession π) (thread : Nat) : Prop where
  others : ∀ t, t ≠ thread → after.slots t = s.slots t
  wellFormed : (after.slots thread).WellFormed

/-- The ways in which a step of a thread can end. -/
inductive StepEffect (P : Platform π) (s : LoaderSession π) (thread : Nat)
    (command : LoaderCommand) : LoaderOutcome × LoaderSession π → Prop where
  /-- A drop, a change of owner or a command on an unknown name. -/
  | untouched {outcome : LoaderOutcome} {after : LoaderSession π}
    (report : s.report P command = none)
    (silent : command.stage? = none ∨ ∃ name, outcome = .unknownName name)
    (slots : after.slots = s.slots) : StepEffect P s thread command (outcome, after)
  | succeeded {outcome : LoaderOutcome} {after : LoaderSession π}
    (report : s.report P command = some .success) (only : OnlyThread s after thread)
    (empty : (after.slots thread).ReadsEmpty) (success : outcome.IsSuccess) :
    StepEffect P s thread command (outcome, after)
  /-- The error has the kind of the operation, and its message is the text of the slot. -/
  | failed {after : LoaderSession π} {stage : LoaderStage} {diagnostic : Bytes} {e : Error}
    (owned : command.rawFailure? = none) (stage_eq : command.stage? = some stage)
    (report : s.report P command = some (.failure diagnostic)) (only : OnlyThread s after thread)
    (holds : (after.slots thread).Holds diagnostic) (kind_eq : e.kind = stage.kind)
    (message_eq : (after.slots thread).text? = some e.message) :
    StepEffect P s thread command (.failed e, after)
  | failedRaw {outcome : LoaderOutcome} {after : LoaderSession π} {diagnostic : Bytes}
    (raw : command.rawFailure? = some outcome)
    (report : s.report P command = some (.failure diagnostic)) (only : OnlyThread s after thread)
    (holds : (after.slots thread).Holds diagnostic) :
    StepEffect P s thread command (outcome, after)

/-! ## One step -/

section Step

variable {P : Platform π} {s after : LoaderSession π} {thread : Nat} {command : LoaderCommand}
  {outcome : LoaderOutcome} {view : ThreadView π}

theorem slots_setView (s : LoaderSession π) (thread : Nat) (view : ThreadView π) :
    (s.setView thread view).slots thread = view.slot :=
  if_pos rfl

theorem onlyThread_setView (s : LoaderSession π) (thread : Nat) (h : view.slot.WellFormed) :
    OnlyThread s (s.setView thread view) thread where
  others _ ht := if_neg ht
  wellFormed := by rwa [slots_setView]

/-- Dropping a library touches no slot, and naming one drops at most the one that had the name. -/
theorem slots_setView_drop (P : Platform π) (s : LoaderSession π) (thread : Nat) (lib : Library) :
    (s.setView thread (lib.drop P (s.view thread))).slots = s.slots := by
  funext t
  by_cases ht : t = thread
  · subst ht
    exact slots_setView _ _ _
  · exact if_neg ht

theorem slots_bindLibrary (P : Platform π) (s : LoaderSession π) (thread : Nat) (name : String)
    (lib : Library) : (s.bindLibrary P thread name lib).slots = s.slots := by
  unfold bindLibrary
  cases s.libraries.lookup name with
  | none => rfl
  | some old => exact slots_setView_drop P _ thread old

/-- A session with the slots that `setView` leaves differs in the slot of the thread alone. -/
theorem onlyThread_of_slots (slots : after.slots = (s.setView thread view).slots)
    (h : view.slot.WellFormed) : OnlyThread s after thread := by
  have only := onlyThread_setView s thread h
  exact ⟨fun t ht => slots ▸ only.others t ht, slots ▸ only.wellFormed⟩

variable {report : Report} {stage : LoaderStage}

theorem StepEffect.of_result (report_eq : s.report P command = some report)
    (ended : Ended report true view.slot) (slots : after.slots = (s.setView thread view).slots)
    (success : outcome.IsSuccess) : StepEffect P s thread command (outcome, after) := by
  have slot_eq : after.slots thread = view.slot := slots ▸ slots_setView s thread view
  cases ended with
  | success wellFormed empty =>
    exact .succeeded report_eq (onlyThread_of_slots slots wellFormed) (slot_eq ▸ empty) success

theorem StepEffect.of_none (raw : command.rawFailure? = some outcome)
    (report_eq : s.report P command = some report) (ended : Ended report false view.slot)
    (slots : after.slots = (s.setView thread view).slots) :
    StepEffect P s thread command (outcome, after) := by
  have slot_eq : after.slots thread = view.slot := slots ▸ slots_setView s thread view
  cases ended with
  | failure wellFormed holds =>
    exact .failedRaw raw report_eq (onlyThread_of_slots slots wellFormed) (slot_eq ▸ holds)

theorem StepEffect.of_error {α : Type} {e : Error} (owned : command.rawFailure? = none)
    (stage_eq : command.stage? = some stage) (report_eq : s.report P command = some report)
    (done : EndedOwned stage report (.error e : Except Error α) view.slot)
    (slots : after.slots = (s.setView thread view).slots) :
    StepEffect P s thread command (.failed e, after) := by
  have slot_eq : after.slots thread = view.slot := slots ▸ slots_setView s thread view
  obtain ⟨kind_eq, message_eq⟩ := done.error e rfl
  cases done.ended with
  | failure wellFormed holds =>
    exact .failed owned stage_eq report_eq (onlyThread_of_slots slots wellFormed)
      (slot_eq ▸ holds) kind_eq (slot_eq ▸ message_eq)

/-- Opening a library also names it, which may drop another. -/
theorem stepEffect_opened (owned : command.rawFailure? = none)
    (stage_eq : command.stage? = some .load) (report_eq : s.report P command = some report)
    {result : Except Error Library × ThreadView π}
    (done : EndedOwned .load report result.1 result.2.slot) (name : String) :
    StepEffect P s thread command (s.opened P thread name result) := by
  rcases result with ⟨e | lib, view⟩
  · exact .of_error owned stage_eq report_eq done rfl
  · exact .of_result report_eq done.ended (slots_bindLibrary P _ thread name lib) trivial

theorem stepEffect_withLibrary {f : Library → LoaderOutcome × LoaderSession π} (name : String)
    (unknown : s.libraries.lookup name = none → s.report P command = none)
    (known : ∀ lib, s.libraries.lookup name = some lib → StepEffect P s thread command (f lib)) :
    StepEffect P s thread command (s.withLibrary name f) := by
  unfold withLibrary
  split
  next lib found => exact known lib found
  next missing => exact .untouched (unknown missing) (.inr ⟨name, rfl⟩) rfl

theorem stepEffect_withHandle {f : Option Handle → LoaderOutcome × LoaderSession π}
    (name : Option String) (unknown : s.handle? name = none → s.report P command = none)
    (known : ∀ handle, s.handle? name = some handle → StepEffect P s thread command (f handle)) :
    StepEffect P s thread command (s.withHandle name f) := by
  unfold withHandle
  split
  next handle found => exact known handle found
  next missing => exact .untouched (unknown missing) (.inr ⟨name.getD "", rfl⟩) rfl

/-- Every command ends in one of the four ways. -/
theorem stepEffect_step (hP : P.SpeaksPlainly) (h : (s.view thread).slot.WellFormed)
    (valid : command.IsValid) : StepEffect P s thread command (s.step P thread command) := by
  cases command with
  | openPath path options name =>
    exact stepEffect_opened rfl rfl rfl
      (endedOwned_ofHandle (ended_openHandle hP h (some path) options)) name
  | openThis name =>
    exact stepEffect_opened rfl rfl rfl (endedOwned_ofHandle (ended_openHandle hP h none {})) name
  | symbol library symbol name =>
    refine stepEffect_withLibrary library (congrArg (Option.map _)) fun lib found => ?_
    have report_eq : s.report P (.symbol library symbol name) =
        some (P.symbolReport lib symbol s.platform) := by
      rw [LoaderSession.report, found, Option.map_some]
    have done := endedOwned_symbol hP h lib symbol
    generalize lib.symbol P symbol (s.view thread) = result at done ⊢
    rcases result with ⟨e | a, view⟩
    · exact .of_error rfl rfl report_eq done rfl
    · exact .of_result report_eq done.ended rfl trivial
  | close library =>
    refine stepEffect_withLibrary library (congrArg (Option.map _)) fun lib found => ?_
    have report_eq : s.report P (.close library) =
        some (P.releaseReport (some lib.handle) s.platform) := by
      rw [LoaderSession.report, found, Option.map_some]
    have done := endedOwned_close hP h lib
    generalize lib.close P (s.view thread) = result at done ⊢
    rcases result with ⟨e | _, view⟩
    · exact .of_error rfl rfl report_eq done rfl
    · exact .of_result report_eq done.ended rfl trivial
  | drop library =>
    exact stepEffect_withLibrary library (fun _ => rfl) fun lib _ =>
      .untouched rfl (.inl rfl) (slots_setView_drop P s thread lib)
  | giveUp library name =>
    exact stepEffect_withLibrary library (fun _ => rfl) fun _ _ => .untouched rfl (.inl rfl) rfl
  | adopt handle name =>
    refine stepEffect_withHandle handle (fun _ => rfl) fun handle _ => ?_
    cases handle with
    | none => exact .untouched rfl (.inl rfl) rfl
    | some handle =>
      exact .untouched rfl (.inl rfl) (slots_bindLibrary P s thread name ⟨handle⟩)
  | openRaw path name =>
    have ended := ended_openHandle hP h path {}
    rw [step]
    generalize P.openHandle path {} (s.view thread) = result at ended ⊢
    rcases result with ⟨_ | handle, view⟩
    · exact .of_none rfl rfl ended rfl
    · exact .of_result rfl ended rfl trivial
  | resolveRaw handle name =>
    refine stepEffect_withHandle handle (congrArg (Option.map _)) fun raw found => ?_
    have report_eq : s.report P (.resolveRaw handle name) =
        some (P.resolveReport raw name s.platform) := by
      rw [LoaderSession.report, found, Option.map_some]
    have noZero : ∀ n, name = some n → 0 ∉ n := by
      rintro n rfl
      exact valid
    have ended := ended_resolve hP h raw noZero
    generalize P.resolve raw name (s.view thread) = result at ended ⊢
    rcases result with ⟨_ | address, view⟩
    · exact .of_none rfl report_eq ended rfl
    · exact .of_result report_eq ended rfl trivial
  | closeRaw handle =>
    refine stepEffect_withHandle handle (congrArg (Option.map _)) fun raw found => ?_
    have report_eq : s.report P (.closeRaw handle) = some (P.releaseReport raw s.platform) := by
      rw [LoaderSession.report, found, Option.map_some]
    have ended := ended_releaseHandle hP h raw
    generalize P.releaseHandle raw (s.view thread) = result at ended ⊢
    rcases result with ⟨_ | _, view⟩
    · exact .of_none rfl report_eq ended rfl
    · exact .of_result report_eq ended rfl trivial

theorem OnlyThread.tells {t : Nat} {known : Report} (only : OnlyThread s after thread)
    (own : (after.slots thread).Tells report) (h : (s.slots t).Tells known) :
    (after.slots t).Tells (if thread = t then report else known) := by
  by_cases ht : thread = t
  · rw [if_pos ht, ← ht]
    exact own
  · rw [if_neg ht, only.others t fun same => ht same.symm]
    exact h

theorem OnlyThread.wellFormed_slots (only : OnlyThread s after thread)
    (h : ∀ t, (s.slots t).WellFormed) (t : Nat) : (after.slots t).WellFormed := by
  by_cases ht : t = thread
  · exact ht ▸ only.wellFormed
  · exact only.others t ht ▸ h t

variable {answer : LoaderOutcome × LoaderSession π}

theorem StepEffect.wellFormed_slots (effect : StepEffect P s thread command answer)
    (h : ∀ t, (s.slots t).WellFormed) (t : Nat) : (answer.2.slots t).WellFormed := by
  cases effect with
  | untouched _ _ slots => exact slots ▸ h t
  | succeeded _ only => exact only.wellFormed_slots h t
  | failed _ _ _ only => exact only.wellFormed_slots h t
  | failedRaw _ _ only => exact only.wellFormed_slots h t

/-- The slot of every thread tells what it told before, or the report of the command. -/
theorem StepEffect.tells {t : Nat} {known : Report} (effect : StepEffect P s thread command answer)
    (h : (s.slots t).Tells known) :
    (answer.2.slots t).Tells (if thread = t then (s.report P command).getD known else known) := by
  cases effect with
  | untouched report _ slots =>
    rw [report, Option.getD_none, ite_self, slots]
    exact h
  | succeeded report only empty =>
    rw [report]
    exact only.tells empty h
  | failed _ _ report only holds =>
    rw [report]
    exact only.tells holds h
  | failedRaw _ report only holds =>
    rw [report]
    exact only.tells holds h

end Step

/-! ## Runs -/

variable {P : Platform π}

/-- Every slot stays well formed and tells the latest report of its thread. -/
theorem run_tells (hP : P.SpeaksPlainly) (history : List (Nat × LoaderCommand)) :
    ∀ (s : LoaderSession π) (known : Nat → Report), (∀ t, (s.slots t).WellFormed) →
      (∀ t, (s.slots t).Tells (known t)) → (∀ entry ∈ history, entry.2.IsValid) →
      ∀ t, ((s.run P history).slots t).WellFormed ∧
        ((s.run P history).slots t).Tells (s.latestReport P t (known t) history) := by
  induction history with
  | nil => exact fun s known h tells _ t => ⟨h t, tells t⟩
  | cons entry rest ih =>
    obtain ⟨thread, command⟩ := entry
    intro s known h tells valid t
    have effect := stepEffect_step hP (h thread) (valid _ List.mem_cons_self)
    exact ih (s.step P thread command).2
      (fun t => if thread = t then (s.report P command).getD (known t) else known t)
      (effect.wellFormed_slots h) (fun t => effect.tells (tells t))
      (fun entry mem => valid entry (List.mem_cons_of_mem _ mem)) t

/-- After every run the slot of each thread tells of the latest operation of this thread, and the
next step of any thread ends as its own report says. -/
theorem slot_tells_latest (hP : P.SpeaksPlainly) (platform : π)
    (history : List (Nat × LoaderCommand)) (valid : ∀ entry ∈ history, entry.2.IsValid) :
    (∀ thread, (((start platform).run P history).slots thread).Tells
      ((start platform).latestReport P thread .success history)) ∧
    ∀ thread command, command.IsValid →
      StepEffect P ((start platform).run P history) thread command
        (((start platform).run P history).step P thread command) := by
  have run := run_tells hP history (start platform) (fun _ => .success)
    (fun _ => ErrorSlot.WellFormed.empty) (fun _ => ErrorSlot.readsEmpty_empty) valid
  exact ⟨fun thread => (run thread).2, fun thread command hc =>
    stepEffect_step hP (run thread).1 hc⟩

/-- A platform with one object that can be opened. -/
def oneObject : Installation where
  label := Utf8.encode "main"
  symbols := []
  objects := [⟨Utf8.encode "libone.so", Utf8.encode "libone.so", [], false⟩]

/-- Of four threads the first two fail in the end, each in its own way. -/
def fourThreads : List (Nat × LoaderCommand) :=
  [(0, .openPath (Utf8.encode "libone.so") {} "one"), (1, .symbol "one" (Utf8.encode "f") none),
    (0, .openRaw (some (Utf8.encode "/")) "root"), (1, .resolveRaw (some "root") none),
    (2, .openThis "main"), (2, .drop "main"), (3, .closeRaw none)]

/-- The session in which they did so. -/
def fourThreadsSession : LoaderSession OpenObjects :=
  (start oneObject.start).run oneObject.platform fourThreads

theorem slot_tells_latest_four_threads :
    oneObject.platform.SpeaksPlainly ∧ (∀ entry ∈ fourThreads, entry.2.IsValid) ∧
    (fourThreadsSession.slots 0).Holds (Utf8.encode "/: cannot read file data: Is a directory") ∧
    (fourThreadsSession.slots 1).Holds (Utf8.encode "symbol name is null") ∧
    (fourThreadsSession.slots 2).ReadsEmpty ∧ (fourThreadsSession.slots 3).ReadsEmpty ∧
    StepEffect oneObject.platform fourThreadsSession 1 (.close "one")
      (fourThreadsSession.step oneObject.platform 1 (.close "one")) := by
  have plain : oneObject.platform.SpeaksPlainly :=
    Installation.speaksPlainly (by decide) (by decide)
  have valid : ∀ entry ∈ fourThreads, entry.2.IsValid := by
    simp [fourThreads, LoaderCommand.IsValid]
  have ⟨slots, next⟩ := slot_tells_latest plain oneObject.start fourThreads valid
  exact ⟨plain, valid, slots 0, slots 1, slots 2, slots 3, next 1 _ trivial⟩

end LoaderSession

end ForeignCall
