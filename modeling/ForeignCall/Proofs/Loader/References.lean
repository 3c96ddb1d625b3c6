import ForeignCall.Loader.Installation
import ForeignCall.Loader.Library
import Mathlib.Data.Multiset.AddSub

/-!
# References to open objects

A platform counts the references to each handle (`ReferenceCount`): opening adds one and a release
gives one up.  Of a release that has no reference to give up nothing is known, so whatever holds of
a session on every such platform holds without a release too many; `Platform.recorded` lists the
releases to say so.

Each loader operation changes the references by what it gains and what it gives up
(`ReferenceCount.Moves`).  The query for the running program, which opens it and releases it again,
does neither, and no operation gives up a reference to the running program.
-/

namespace ForeignCall

variable {π : Type}

/-- How a platform counts the references to its handles, as long as no release lacks one. -/
structure ReferenceCount (P : Platform π) where
  /-- The handle of the running program. -/
  program : Handle
  count : π → Handle → Nat
  /-- No release lacked a reference so far. -/
  Intact : π → Prop
  openProgram : ∀ options {p}, Intact p → (P.openObject none options p).1 = .ok program
  opened : ∀ {path options p q h}, Intact p → P.openObject path options p = (.ok h, q) →
    Intact q ∧ count q = Function.update (count p) h (count p h + 1)
  notOpened : ∀ {path options p q d}, Intact p → P.openObject path options p = (.error d, q) →
    Intact q ∧ count q = count p
  searched : ∀ handle name {p}, Intact p →
    Intact (P.findSymbol handle name p).2 ∧ count (P.findSymbol handle name p).2 = count p
  released : ∀ {p h}, Intact p → 0 < count p h →
    (P.releaseObject h p).1 = .ok () ∧ Intact (P.releaseObject h p).2 ∧
      count (P.releaseObject h p).2 = Function.update (count p) h (count p h - 1)

/-! ## Recording releases -/

/-- A release that a platform was asked for, and how many references there were to the handle. -/
structure ReleaseRequest where
  handle : Handle
  references : Nat
  deriving DecidableEq, Repr

/-- The platform, with a list of the releases it was asked for beside its state. -/
def Platform.recorded (P : Platform π) (count : π → Handle → Nat) :
    Platform (π × List ReleaseRequest) where
  openObject path options := fun (p, log) =>
    let (answer, p) := P.openObject path options p
    (answer, p, log)
  findSymbol handle name := fun (p, log) =>
    let (answer, p) := P.findSymbol handle name p
    (answer, p, log)
  releaseObject handle := fun (p, log) =>
    let (answer, q) := P.releaseObject handle p
    (answer, q, log ++ [⟨handle, count p handle⟩])

/-- A recording platform counts as before, and its record is intact if no release in it lacked a
reference. -/
def ReferenceCount.recorded {P : Platform π} (counts : ReferenceCount P) :
    ReferenceCount (P.recorded counts.count) where
  program := counts.program
  count s := counts.count s.1
  Intact s := counts.Intact s.1 ∧ ∀ request ∈ s.2, 0 < request.references
  openProgram options _ intact := counts.openProgram options intact.1
  opened := by
    rintro path options ⟨p, log⟩ ⟨q, log'⟩ h ⟨intact, record⟩ answer
    rcases inner : P.openObject path options p with ⟨result, r⟩
    simp only [Platform.recorded, inner, Prod.mk.injEq] at answer
    obtain ⟨rfl, rfl, rfl⟩ := answer
    have after := counts.opened intact inner
    exact ⟨⟨after.1, record⟩, after.2⟩
  notOpened := by
    rintro path options ⟨p, log⟩ ⟨q, log'⟩ d ⟨intact, record⟩ answer
    rcases inner : P.openObject path options p with ⟨result, r⟩
    simp only [Platform.recorded, inner, Prod.mk.injEq] at answer
    obtain ⟨rfl, rfl, rfl⟩ := answer
    have after := counts.notOpened intact inner
    exact ⟨⟨after.1, record⟩, after.2⟩
  searched := by
    rintro handle name ⟨p, log⟩ ⟨intact, record⟩
    have after := counts.searched handle name intact
    exact ⟨⟨after.1, record⟩, after.2⟩
  released := by
    rintro ⟨p, log⟩ h ⟨intact, record⟩ positive
    have after := counts.released intact positive
    refine ⟨after.1, ⟨after.2.1, ?_⟩, after.2.2⟩
    intro request mem
    rcases List.mem_append.1 mem with old | new
    · exact record request old
    · rw [List.mem_singleton.1 new]
      exact positive

/-! ## Installations count references -/

namespace OpenObjects

def references (p : OpenObjects) : Handle → Nat
  | ⟨0⟩ => p.programCount
  | ⟨index + 1⟩ => (p.objects[index]?.map ObjectState.count).getD 0

theorem references_set {p : OpenObjects} {index : Nat} (h : index < p.objects.length)
    (state : ObjectState) :
    references { p with objects := p.objects.set index state } =
      Function.update p.references ⟨index + 1⟩ state.count := by
  funext ⟨k⟩
  cases k with
  | zero => rw [Function.update_of_ne (by simp)]; rfl
  | succ k =>
    by_cases same : index = k
    · subst same
      rw [Function.update_self]
      simp [references, h]
    · rw [Function.update_of_ne (by simp [Ne.symm same])]
      simp [references, List.getElem?_set_ne same]

end OpenObjects

namespace Installation

variable {env : Installation}

theorem references_programCount (p : OpenObjects) (n : Nat) :
    OpenObjects.references { p with programCount := n } =
      Function.update p.references programHandle n := by
  funext ⟨k⟩
  cases k with
  | zero => rfl
  | succ k => rw [Function.update_of_ne (by simp [programHandle])]; rfl

/-- As long as a process knows of every object, an installation counts references. -/
def referenceCount (env : Installation) : ReferenceCount env.platform where
  program := programHandle
  count := OpenObjects.references
  Intact p := p.objects.length = env.objects.length
  openProgram _ _ _ := rfl
  opened := by
    intro path options p q h intact answer
    cases path with
    | none =>
      obtain ⟨handle, rfl⟩ := Prod.mk.inj answer
      obtain rfl : programHandle = h := Except.ok.inj handle
      exact ⟨intact, references_programCount p _⟩
    | some path =>
      simp only [platform, openObject] at answer
      split at answer
      next index found =>
        obtain ⟨handle, rfl⟩ := Prod.mk.inj answer
        obtain rfl : objectHandle index = h := Except.ok.inj handle
        have known : index < p.objects.length := by
          rw [intact]
          exact (List.findIdx?_eq_some_iff_findIdx_eq.1 found).1
        refine ⟨by simpa using intact, ?_⟩
        rw [List.modify_eq_set_get _ known, OpenObjects.references_set known]
        simp [OpenObjects.references, objectHandle, known]
      · cases answer
  notOpened := by
    intro path options p q d intact answer
    cases path with
    | none => cases answer
    | some path =>
      simp only [platform, openObject] at answer
      split at answer
      · cases answer
      · obtain ⟨-, rfl⟩ := Prod.mk.inj answer
        exact ⟨intact, rfl⟩
  searched := by
    intro handle name p intact
    have same : (env.platform.findSymbol handle name p).2 = p := by
      simp only [platform, findSymbol]
      split <;> rfl
    rw [same]
    exact ⟨intact, rfl⟩
  released := by
    rintro p ⟨_ | index⟩ intact positive
    · exact ⟨rfl, intact, references_programCount p _⟩
    · rcases known : p.objects[index]? with _ | state
      · simp [OpenObjects.references, known] at positive
      · have bound : index < p.objects.length := (List.getElem?_eq_some_iff.1 known).1
        obtain ⟨object, found⟩ : ∃ object, env.objects[index]? = some object :=
          ⟨_, List.getElem?_eq_getElem (intact ▸ bound)⟩
        have isOpen : state.count ≠ 0 := by
          simp only [OpenObjects.references, known] at positive
          exact Nat.ne_of_gt positive
        simp only [platform, releaseObject, found, known, if_neg isOpen]
        refine ⟨trivial, by simpa using intact, ?_⟩
        rw [OpenObjects.references_set bound]
        simp [OpenObjects.references, known]

theorem intact_start (env : Installation) : env.referenceCount.Intact env.start :=
  List.length_map _

/-- At the start of a process only the running program is open. -/
theorem count_start (env : Installation) {h : Handle} (other : h ≠ env.referenceCount.program) :
    env.referenceCount.count env.start h = 0 := by
  obtain ⟨_ | index⟩ := h
  · exact absurd rfl other
  · show (((env.objects.map fun _ => (⟨0, false⟩ : ObjectState))[index]?).map _).getD 0 = 0
    rw [List.getElem?_map]
    cases env.objects[index]? <;> rfl

end Installation

/-! ## What operations do to references -/

/-- The handle as a collection of at most one. -/
def Handle.bag : Option Handle → Multiset Handle
  | none => 0
  | some h => {h}

namespace ReferenceCount

variable {P : Platform π} {counts : ReferenceCount P} {p q r : π} {gained lost : Multiset Handle}
  {view : ThreadView π}

/-- Between two states the references change by those gained and those given up, and none to the
running program is given up. -/
structure Moves (counts : ReferenceCount P) (p q : π) (gained lost : Multiset Handle) : Prop where
  intact : counts.Intact q
  count_add : ∀ h, counts.count q h + lost.count h = counts.count p h + gained.count h
  program_notMem : counts.program ∉ lost

theorem Moves.refl (intact : counts.Intact p) : counts.Moves p p 0 0 :=
  ⟨intact, fun _ => rfl, Multiset.notMem_zero _⟩

theorem Moves.of_count_eq (intact : counts.Intact q) (same : counts.count q = counts.count p) :
    counts.Moves p q 0 0 :=
  ⟨intact, fun _ => by rw [same], Multiset.notMem_zero _⟩

theorem Moves.trans {gained' lost' : Multiset Handle} (first : counts.Moves p q gained lost)
    (second : counts.Moves q r gained' lost') :
    counts.Moves p r (gained + gained') (lost + lost') := by
  refine ⟨second.intact, fun h => ?_, ?_⟩
  · have h₁ := first.count_add h
    have h₂ := second.count_add h
    rw [Multiset.count_add, Multiset.count_add]
    omega
  · rw [Multiset.mem_add]
    exact not_or.2 ⟨first.program_notMem, second.program_notMem⟩

theorem Moves.count_eq (moves : counts.Moves p q 0 0) : counts.count q = counts.count p :=
  funext moves.count_add

theorem Moves.program_le (moves : counts.Moves p q gained lost) :
    counts.count p counts.program ≤ counts.count q counts.program := by
  have h := moves.count_add counts.program
  rw [Multiset.count_eq_zero.2 moves.program_notMem] at h
  omega

/-- What a release of the handle gives up: nothing of the running program. -/
def lostBy (counts : ReferenceCount P) : Option Handle → Multiset Handle
  | none => 0
  | some h => if h = counts.program then 0 else {h}

theorem count_lostBy {k : Handle} (hk : k ≠ counts.program) (handle : Option Handle) :
    (counts.lostBy handle).count k = (Handle.bag handle).count k := by
  cases handle with
  | none => rfl
  | some h =>
    rw [lostBy, Handle.bag]
    split
    next same => rw [same, Multiset.count_singleton, if_neg hk, Multiset.count_zero]
    · rfl

theorem moves_opened {path : Option Bytes} {options : OpenOptions} {h : Handle}
    (intact : counts.Intact p) (answer : P.openObject path options p = (.ok h, q)) :
    counts.Moves p q {h} 0 := by
  have ⟨intactAfter, more⟩ := counts.opened intact answer
  refine ⟨intactAfter, fun k => ?_, Multiset.notMem_zero _⟩
  rw [more, Multiset.count_zero, Multiset.count_singleton, Nat.add_zero]
  by_cases same : k = h
  · rw [same, Function.update_self, if_pos rfl]
  · rw [Function.update_of_ne same, if_neg same, Nat.add_zero]

theorem moves_released {h : Handle} (intact : counts.Intact p) (other : h ≠ counts.program)
    (positive : 0 < counts.count p h) : counts.Moves p (P.releaseObject h p).2 0 {h} := by
  have ⟨_, intactAfter, fewer⟩ := counts.released intact positive
  refine ⟨intactAfter, fun k => ?_, ?_⟩
  · rw [fewer, Multiset.count_zero, Multiset.count_singleton, Nat.add_zero]
    by_cases same : k = h
    · rw [same, Function.update_self, if_pos rfl]
      exact Nat.sub_add_cancel positive
    · rw [Function.update_of_ne same, if_neg same, Nat.add_zero]
  · rw [Multiset.mem_singleton]
    exact Ne.symm other

/-- The query whether a handle is that of the running program changes no references. -/
theorem isProgram_spec (intact : counts.Intact p) (h : Handle) :
    (P.isProgram h p).1 = decide (counts.program = h) ∧
      counts.Moves p (P.isProgram h p).2 0 0 := by
  rcases answer : P.openObject none {} p with ⟨d | program, q⟩
  · have opens := counts.openProgram {} intact
    rw [answer] at opens
    cases opens
  · obtain rfl : program = counts.program := by
      have opens := counts.openProgram {} intact
      rw [answer] at opens
      exact Except.ok.inj opens
    have ⟨intactOpen, countOpen⟩ := counts.opened intact answer
    have positive : 0 < counts.count q counts.program := by
      rw [countOpen, Function.update_self]
      exact Nat.succ_pos _
    have ⟨_, intactAfter, countAfter⟩ := counts.released intactOpen positive
    simp only [Platform.isProgram, answer]
    refine ⟨trivial, .of_count_eq intactAfter ?_⟩
    rw [countAfter, countOpen, Function.update_self, Function.update_idem, Nat.add_sub_cancel,
      Function.update_eq_self]

theorem moves_openHandle (intact : counts.Intact view.platform) (path : Option Bytes)
    (options : OpenOptions) :
    counts.Moves view.platform (P.openHandle path options view).2.platform
      (Handle.bag (P.openHandle path options view).1) 0 := by
  unfold Platform.openHandle
  by_cases zero : (path.getD []).contains 0
  · rw [if_pos zero]
    exact .refl intact
  · rw [if_neg zero]
    rcases answer : P.openObject (path.filter fun path => !path.isEmpty) options view.platform with
      ⟨d | h, q⟩
    · have ⟨intactAfter, same⟩ := counts.notOpened intact answer
      exact .of_count_eq intactAfter same
    · exact moves_opened intact answer

theorem platform_findAddress (handle : Option Handle) (name : Bytes) :
    (P.findAddress handle name view).2.platform = (P.findSymbol handle name view.platform).2 := by
  unfold Platform.findAddress
  rcases P.findSymbol handle name view.platform with ⟨d | a, q⟩ <;> rfl

theorem moves_findAddress (intact : counts.Intact view.platform) (handle : Option Handle)
    (name : Bytes) :
    counts.Moves view.platform (P.findAddress handle name view).2.platform 0 0 := by
  have ⟨intactAfter, same⟩ := counts.searched handle name intact
  rw [platform_findAddress]
  exact .of_count_eq intactAfter same

theorem moves_resolve (intact : counts.Intact view.platform) (handle : Option Handle)
    (name : Option Bytes) :
    counts.Moves view.platform (P.resolve handle name view).2.platform 0 0 := by
  cases name with
  | none => exact .refl intact
  | some name => exact moves_findAddress intact handle name

theorem platform_releaseHandle {h : Handle} (asked : P.isProgram h view.platform = (false, q)) :
    (P.releaseHandle (some h) view).2.platform = (P.releaseObject h q).2 := by
  simp only [Platform.releaseHandle, asked]
  rcases P.releaseObject h q with ⟨d | a, q'⟩ <;> rfl

/-- A release gives up the reference, provided that there is one. -/
theorem moves_releaseHandle (intact : counts.Intact view.platform) {handle : Option Handle}
    (positive : ∀ h ∈ handle, h ≠ counts.program → 0 < counts.count view.platform h) :
    counts.Moves view.platform (P.releaseHandle handle view).2.platform 0
      (counts.lostBy handle) := by
  cases handle with
  | none => exact .refl intact
  | some h =>
    have ⟨answer, query⟩ := isProgram_spec intact h
    rcases asked : P.isProgram h view.platform with ⟨isProgram, q⟩
    rw [asked] at answer query
    by_cases program : h = counts.program
    · obtain rfl : isProgram = true := answer.trans (decide_eq_true program.symm)
      rw [lostBy, if_pos program]
      simp only [Platform.releaseHandle, asked]
      exact query
    · obtain rfl : isProgram = false := answer.trans (decide_eq_false (Ne.symm program))
      have referenced : 0 < counts.count q h := by
        rw [query.count_eq]
        exact positive h rfl program
      rw [platform_releaseHandle asked, lostBy, if_neg program]
      exact query.trans (moves_released query.intact program referenced)

/-! ### Owned libraries -/

theorem moves_symbol (intact : counts.Intact view.platform) (lib : Library) (name : Bytes) :
    counts.Moves view.platform (lib.symbol P name view).2.platform 0 0 := by
  unfold Library.symbol
  split
  · exact .refl intact
  · have moves := moves_findAddress intact (some lib.handle) name
    rcases found : P.findAddress (some lib.handle) name view with ⟨_ | a, after⟩
    · rwa [found] at moves
    · rwa [found] at moves

theorem moves_close (intact : counts.Intact view.platform) (lib : Library)
    (positive : lib.handle ≠ counts.program → 0 < counts.count view.platform lib.handle) :
    counts.Moves view.platform (lib.close P view).2.platform 0
      (counts.lostBy (some lib.handle)) := by
  have released : ∀ h ∈ some lib.handle, h ≠ counts.program →
      0 < counts.count view.platform h := by
    rintro h ⟨⟩
    exact positive
  have moves := moves_releaseHandle intact released
  unfold Library.close
  rcases answer : P.releaseHandle (some lib.handle) view with ⟨_ | _, after⟩
  · rwa [answer] at moves
  · rwa [answer] at moves

theorem moves_drop (intact : counts.Intact view.platform) (lib : Library)
    (positive : lib.handle ≠ counts.program → 0 < counts.count view.platform lib.handle) :
    counts.Moves view.platform (lib.drop P view).platform 0 (counts.lostBy (some lib.handle)) :=
  moves_releaseHandle intact (by rintro h ⟨⟩; exact positive)

end ReferenceCount

end ForeignCall
