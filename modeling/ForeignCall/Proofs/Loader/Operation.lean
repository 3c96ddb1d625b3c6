import ForeignCall.Loader.Installation
import ForeignCall.Loader.Library
import ForeignCall.Proofs.ErrorSlot.Reading

/-!
# What loader operations report

An operation succeeds or has a diagnostic of its own (`Report`): the text that the platform gave
with its failure, the fallback if it gave none, or the fixed text of an argument that makes no
sense.  Reports are said from the answers of the platform alone, without any slot.  Each operation
then leaves the slot as its report says and answers accordingly (`Ended`, `EndedOwned`), provided
that the diagnostics of the platform are texts (`Platform.SpeaksPlainly`).
-/

namespace ForeignCall

variable {π α : Type}

/-! ## Platforms and reports -/

/-- A diagnostic that the platform gives on strings without zero bytes is a text. -/
structure Platform.SpeaksPlainly (P : Platform π) : Prop where
  openObject : ∀ {path options p d}, 0 ∉ path.getD [] →
    (P.openObject path options p).1 = .error (some d) → IsDiagnostic d
  findSymbol : ∀ {handle name p d}, 0 ∉ name →
    (P.findSymbol handle name p).1 = .error (some d) → IsDiagnostic d
  releaseObject : ∀ {handle p d}, (P.releaseObject handle p).1 = .error (some d) → IsDiagnostic d

namespace Installation

variable {env : Installation}

theorem zero_notMem_searched (label : 0 ∉ env.label)
    (labels : ∀ object ∈ env.objects, 0 ∉ object.label) {p : OpenObjects}
    {handle : Option Handle} : 0 ∉ (env.searched p handle).1 := by
  unfold searched
  split
  · exact label
  · exact label
  next index =>
    split
    next object found => exact labels object (List.mem_of_getElem? found)
    · exact label

/-- The diagnostics of an installation quote names and paths, in which there is no zero byte. -/
theorem speaksPlainly (label : 0 ∉ env.label)
    (labels : ∀ object ∈ env.objects, 0 ∉ object.label) : env.platform.SpeaksPlainly := by
  refine ⟨?_, ?_, ?_⟩
  · intro path options p d noZero answer
    cases path with
    | none => cases answer
    | some path =>
      simp only [platform, openObject] at answer
      split at answer
      · cases answer
      · obtain rfl : cannotOpen path = d := Option.some.inj (Except.error.inj answer)
        exact isDiagnostic_append noZero (by split <;> decide)
  · intro handle name p d noZero answer
    simp only [platform, findSymbol] at answer
    split at answer
    · split at answer <;> cases answer
    · obtain rfl := Option.some.inj (Except.error.inj answer)
      have quotes : IsDiagnostic (Utf8.encode ": undefined symbol: " ++ name) :=
        IsDiagnostic.append (by decide) noZero
      rw [List.append_assoc]
      exact isDiagnostic_append (zero_notMem_searched label labels) quotes
  · intro handle p d answer
    obtain ⟨_ | index⟩ := handle
    · cases answer
    · simp only [platform, releaseObject] at answer
      split at answer
      next object state found _ =>
        split at answer
        · obtain rfl := Option.some.inj (Except.error.inj answer)
          exact isDiagnostic_append (labels object (List.mem_of_getElem? found)) (by decide)
        · cases answer
      · cases answer

end Installation

/-- What an operation has to say to its thread. -/
inductive Report where
  | success
  | failure (diagnostic : Bytes)

/-- The report of an answer of the platform. -/
def PlatformResult.report (answer : PlatformResult α) (stage : LoaderStage) : Report :=
  match answer with
  | .ok _ => .success
  | .error diagnostic => .failure (diagnostic.getD (Utf8.encode stage.kind.fallback))

namespace Platform

variable (P : Platform π)

def openReport (path : Option Bytes) (options : OpenOptions) (p : π) : Report :=
  if 0 ∈ path.getD [] then .failure (Utf8.encode "library path contains a NUL byte")
  else (P.openObject (path.filter fun path => !path.isEmpty) options p).1.report .load

def findReport (handle : Option Handle) (name : Bytes) (p : π) : Report :=
  (P.findSymbol handle name p).1.report .resolve

/-- No handle and that of the running program are released without asking the platform. -/
def releaseReport (handle : Option Handle) (p : π) : Report :=
  match handle with
  | none => .success
  | some handle =>
    let (isProgram, p) := P.isProgram handle p
    if isProgram then .success else (P.releaseObject handle p).1.report .release

def resolveReport (handle : Option Handle) (name : Option Bytes) (p : π) : Report :=
  match name with
  | some name => P.findReport handle name p
  | none => .failure (Utf8.encode "symbol name is null")

def symbolReport (lib : Library) (name : Bytes) (p : π) : Report :=
  if 0 ∈ name then .failure (Utf8.encode "symbol name contains a NUL byte")
  else P.findReport (some lib.handle) name p

end Platform

/-! ## The ends of operations -/

/-- The slot tells what the report says. -/
def ErrorSlot.Tells (slot : ErrorSlot) : Report → Prop
  | .success => slot.ReadsEmpty
  | .failure diagnostic => slot.Holds diagnostic

/-- An operation ended as its report says; `success` is whether it gave a result. -/
inductive Ended : Report → (success : Bool) → ErrorSlot → Prop where
  | success {slot : ErrorSlot} (wellFormed : slot.WellFormed) (empty : slot.ReadsEmpty) :
    Ended .success true slot
  | failure {slot : ErrorSlot} {diagnostic : Bytes} (wellFormed : slot.WellFormed)
    (holds : slot.Holds diagnostic) : Ended (.failure diagnostic) false slot

/-- An operation on an owned library ended as its report says: an error has the kind of the stage,
and its message is the text of the slot. -/
structure EndedOwned (stage : LoaderStage) (report : Report) (result : Except Error α)
    (slot : ErrorSlot) : Prop where
  ended : Ended report result.isOk slot
  error : ∀ e, result = .error e → e.kind = stage.kind ∧ slot.text? = some e.message

theorem isDiagnostic_fallback (stage : LoaderStage) :
    IsDiagnostic (Utf8.encode stage.kind.fallback) := by
  cases stage <;> decide

section Raw

variable {P : Platform π} {view : ThreadView π}

/-- A failure of the platform is recorded as it is reported. -/
theorem ended_record {s : ErrorSlot} (h : s.WellFormed) (stage : LoaderStage)
    {diagnostic : Option Bytes} (plain : ∀ d, diagnostic = some d → IsDiagnostic d) :
    Ended (.failure (diagnostic.getD (Utf8.encode stage.kind.fallback))) false
      (s.record stage.kind.fallback diagnostic) := by
  cases diagnostic with
  | none =>
    exact .failure (h.setText _) (ErrorSlot.holds_setText h (isDiagnostic_fallback stage))
  | some d => exact .failure (h.setBytes d) (ErrorSlot.holds_setBytes h (plain d rfl))

theorem ended_openHandle (hP : P.SpeaksPlainly) (h : view.slot.WellFormed) (path : Option Bytes)
    (options : OpenOptions) :
    Ended (P.openReport path options view.platform) (P.openHandle path options view).1.isSome
      (P.openHandle path options view).2.slot := by
  unfold Platform.openReport Platform.openHandle
  by_cases zero : 0 ∈ path.getD []
  · have contains : (path.getD []).contains 0 = true := List.contains_iff_mem.2 zero
    simp only [if_pos zero, contains, if_true]
    exact .failure (h.clear.setText _) (ErrorSlot.holds_setText h.clear (by decide))
  · have contains : (path.getD []).contains 0 = false := by
      rw [← Bool.not_eq_true, List.contains_iff_mem]
      exact zero
    have noZero : 0 ∉ (path.filter fun path => !path.isEmpty).getD [] := by
      cases path with
      | none => exact List.not_mem_nil
      | some path => cases path with
        | nil => exact List.not_mem_nil
        | cons b bs => exact zero
    simp only [if_neg zero, contains, Bool.false_eq_true, if_false]
    rcases answer : P.openObject (path.filter fun path => !path.isEmpty) options view.platform with
      ⟨diagnostic | handle, p⟩
    · refine ended_record h.clear .load ?_
      rintro d rfl
      exact hP.openObject noZero (congrArg Prod.fst answer)
    · exact .success h.clear (ErrorSlot.readsEmpty_clear _)

theorem ended_findAddress (hP : P.SpeaksPlainly) (h : view.slot.WellFormed)
    (handle : Option Handle) {name : Bytes} (noZero : 0 ∉ name) :
    Ended (P.findReport handle name view.platform) (P.findAddress handle name view).1.isSome
      (P.findAddress handle name view).2.slot := by
  unfold Platform.findReport Platform.findAddress
  rcases answer : P.findSymbol handle name view.platform with ⟨diagnostic | address, p⟩
  · refine ended_record h.clear .resolve ?_
    rintro d rfl
    exact hP.findSymbol noZero (congrArg Prod.fst answer)
  · exact .success h.clear (ErrorSlot.readsEmpty_clear _)

theorem ended_releaseHandle (hP : P.SpeaksPlainly) (h : view.slot.WellFormed)
    (handle : Option Handle) :
    Ended (P.releaseReport handle view.platform) (P.releaseHandle handle view).1
      (P.releaseHandle handle view).2.slot := by
  cases handle with
  | none => exact .success h.clear (ErrorSlot.readsEmpty_clear _)
  | some handle =>
    rcases program : P.isProgram handle view.platform with ⟨_ | _, p⟩
    · rcases answer : P.releaseObject handle p with ⟨diagnostic | _, q⟩
      · simp only [Platform.releaseReport, Platform.releaseHandle, program, answer,
          Bool.false_eq_true, if_false]
        refine ended_record h.clear .release ?_
        rintro d rfl
        exact hP.releaseObject (congrArg Prod.fst answer)
      · simp only [Platform.releaseReport, Platform.releaseHandle, program, answer,
          Bool.false_eq_true, if_false]
        exact .success h.clear (ErrorSlot.readsEmpty_clear _)
    · simp only [Platform.releaseReport, Platform.releaseHandle, program, if_true]
      exact .success h.clear (ErrorSlot.readsEmpty_clear _)

theorem ended_resolve (hP : P.SpeaksPlainly) (h : view.slot.WellFormed) (handle : Option Handle)
    {name : Option Bytes} (noZero : ∀ n, name = some n → 0 ∉ n) :
    Ended (P.resolveReport handle name view.platform) (P.resolve handle name view).1.isSome
      (P.resolve handle name view).2.slot := by
  cases name with
  | none => exact .failure (h.setText _) (ErrorSlot.holds_setText h (by decide))
  | some name => exact ended_findAddress hP h handle (noZero name rfl)

end Raw

/-! ## Operations on owned libraries -/

section Owned

variable {P : Platform π} {view : ThreadView π} {stage : LoaderStage} {report : Report}

/-- The error that is made from a slot with a diagnostic has the text of the slot as message. -/
theorem endedOwned_failure {slot : ErrorSlot} {p : π} (ended : Ended report false slot) :
    EndedOwned (α := α) stage report (.error (ThreadView.failure ⟨slot, p⟩ stage)) slot := by
  refine ⟨ended, ?_⟩
  rintro e ⟨⟩
  refine ⟨by cases stage <;> rfl, ?_⟩
  cases ended with
  | failure _ holds =>
    rw [ThreadView.failure, Error.message, ErrorSlot.capture, holds.text?_eq]
    rfl

theorem endedOwned_success {slot : ErrorSlot} (a : α) (ended : Ended report true slot) :
    EndedOwned stage report (.ok a) slot :=
  ⟨ended, fun _ h => nomatch h⟩

theorem endedOwned_ofHandle {opened : Option Handle × ThreadView π}
    (ended : Ended report opened.1.isSome opened.2.slot) :
    EndedOwned .load report (Library.ofHandle opened).1 (Library.ofHandle opened).2.slot := by
  rcases opened with ⟨_ | handle, view⟩
  · exact endedOwned_failure ended
  · exact endedOwned_success _ ended

theorem endedOwned_symbol (hP : P.SpeaksPlainly) (h : view.slot.WellFormed) (lib : Library)
    (name : Bytes) :
    EndedOwned .resolve (P.symbolReport lib name view.platform) (lib.symbol P name view).1
      (lib.symbol P name view).2.slot := by
  unfold Platform.symbolReport Library.symbol
  by_cases zero : 0 ∈ name
  · have contains : name.contains 0 = true := List.contains_iff_mem.2 zero
    simp only [if_pos zero, contains, if_true]
    exact endedOwned_failure (.failure (h.setText _) (ErrorSlot.holds_setText h (by decide)))
  · have contains : name.contains 0 = false := by
      rw [← Bool.not_eq_true, List.contains_iff_mem]
      exact zero
    have ended := ended_findAddress hP h (some lib.handle) zero
    simp only [if_neg zero, contains, Bool.false_eq_true, if_false]
    rcases found : P.findAddress (some lib.handle) name view with ⟨_ | address, after⟩
    · rw [found] at ended
      exact endedOwned_failure ended
    · rw [found] at ended
      exact endedOwned_success _ ended

theorem endedOwned_close (hP : P.SpeaksPlainly) (h : view.slot.WellFormed) (lib : Library) :
    EndedOwned .release (P.releaseReport (some lib.handle) view.platform) (lib.close P view).1
      (lib.close P view).2.slot := by
  have ended := ended_releaseHandle hP h (some lib.handle)
  unfold Library.close
  rcases released : P.releaseHandle (some lib.handle) view with ⟨_ | _, after⟩
  · rw [released] at ended
    exact endedOwned_failure ended
  · rw [released] at ended
    exact endedOwned_success _ ended

end Owned

end ForeignCall
