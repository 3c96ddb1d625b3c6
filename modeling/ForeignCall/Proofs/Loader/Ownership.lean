import ForeignCall.Proofs.Loader.LatestOperation
import ForeignCall.Proofs.Loader.References

/-!
# Every reference has one owner

The owners of a session are its libraries and the raw handles that were given out and not yet taken
back or closed (`LoaderSession.owners`).  A program that passes no raw handle on more often than it
was given out (`LoaderSession.MayRun`) keeps the accounts balanced: for every handle but that of the
running program there are as many references as owners (`LoaderSession.Balanced`).  Every step moves
owners and references alike, so the balance is kept over every run.
-/

namespace ForeignCall

variable {π : Type}

/-! ## Tables -/

namespace Table

variable {α : Type} {t : Table α} {name : String}

theorem nodup_erase (h : (t.map Prod.fst).Nodup) (name : String) :
    ((t.erase name).map Prod.fst).Nodup :=
  h.sublist (List.filter_sublist.map _)

theorem nodup_insert (h : (t.map Prod.fst).Nodup) (name : String) (a : α) :
    ((t.insert name a).map Prod.fst).Nodup := by
  refine List.nodup_cons.2 ⟨?_, nodup_erase h name⟩
  intro mem
  obtain ⟨entry, hentry, same⟩ := List.mem_map.1 mem
  have other := (List.mem_filter.1 hentry).2
  rw [same] at other
  simp at other

theorem erase_eq_self (h : name ∉ t.map Prod.fst) : t.erase name = t := by
  refine List.filter_eq_self.2 fun entry hentry => bne_iff_ne.2 ?_
  rintro rfl
  exact h (List.mem_map_of_mem hentry)

theorem perm_erase_of_lookup {a : α} (h : (t.map Prod.fst).Nodup) (found : t.lookup name = some a) :
    t.Perm ((name, a) :: t.erase name) := by
  induction t with
  | nil => cases found
  | cons entry t ih =>
    obtain ⟨n, b⟩ := entry
    have ⟨fresh, nodup⟩ := List.nodup_cons.1 h
    by_cases same : name = n
    · subst same
      rw [List.lookup_cons_self] at found
      obtain rfl := Option.some.inj found
      have tail : Table.erase ((name, b) :: t) name = t := by
        rw [Table.erase, List.filter_cons_of_neg (by simp)]
        exact erase_eq_self fresh
      rw [tail]
    · rw [List.lookup_cons, beq_false_of_ne same] at found
      have tail : Table.erase ((n, b) :: t) name = (n, b) :: Table.erase t name :=
        List.filter_cons_of_pos (by simpa using Ne.symm same)
      rw [tail]
      exact ((ih nodup found).cons _).trans (List.Perm.swap _ _ _)

theorem not_mem_of_lookup_eq_none (missing : t.lookup name = none) : name ∉ t.map Prod.fst := by
  intro mem
  obtain ⟨entry, hentry, rfl⟩ := List.mem_map.1 mem
  rw [List.lookup_eq_none_iff] at missing
  simpa using missing entry hentry

/-- The handles of the libraries. -/
def handles (t : Table Library) : Multiset Handle := ↑(t.map fun entry => entry.2.handle)

theorem handles_insert (t : Table Library) (name : String) (lib : Library) :
    handles (t.insert name lib) = {lib.handle} + handles (t.erase name) := rfl

theorem handles_eq_add_erase {t : Table Library} (h : (t.map Prod.fst).Nodup) (name : String) :
    handles t = Handle.bag ((t.lookup name).map Library.handle) + handles (t.erase name) := by
  rcases found : t.lookup name with _ | lib
  · rw [erase_eq_self (not_mem_of_lookup_eq_none found)]
    exact (Multiset.zero_add _).symm
  · have perm := perm_erase_of_lookup h found
    exact Multiset.coe_eq_coe.2 (perm.map _)

end Table

/-! ## Owners -/

namespace LoaderSession

/-- The raw handle that a command passes on, to be owned or closed. -/
def taken? (s : LoaderSession π) : LoaderCommand → Option Handle
  | .adopt handle _ | .closeRaw handle => (s.handle? handle).join
  | _ => none

/-- The raw handle that a command gives out. -/
def given? (P : Platform π) (thread : Nat) (s : LoaderSession π) : LoaderCommand → Option Handle
  | .giveUp library _ => (s.libraries.lookup library).map Library.handle
  | .openRaw path _ => (P.openHandle path {} (s.view thread)).1
  | _ => none

/-- The raw handles that are out after a command, where `raws` are those before it. -/
def rawsAfter (P : Platform π) (thread : Nat) (s : LoaderSession π) (raws : Multiset Handle)
    (command : LoaderCommand) : Multiset Handle :=
  Handle.bag (s.given? P thread command) + (raws - Handle.bag (s.taken? command))

/-- The raw handles that are out after a run, where `raws` are those before it. -/
def rawsOut (P : Platform π) (s : LoaderSession π) (raws : Multiset Handle) :
    List (Nat × LoaderCommand) → Multiset Handle
  | [] => raws
  | (thread, command) :: rest =>
    rawsOut P (s.step P thread command).2 (s.rawsAfter P thread raws command) rest

/-- The command passes on a raw handle that is out, or that of the running program. -/
def MayRun (program : Handle) (s : LoaderSession π) (raws : Multiset Handle)
    (command : LoaderCommand) : Prop :=
  ∀ h ∈ s.taken? command, h = program ∨ h ∈ raws

/-- No raw handle but that of the running program is passed on more often than it was given out. -/
def PassesOnce (P : Platform π) (program : Handle) (s : LoaderSession π) (raws : Multiset Handle) :
    List (Nat × LoaderCommand) → Prop
  | [] => True
  | (thread, command) :: rest =>
    s.MayRun program raws command ∧
      PassesOnce P program (s.step P thread command).2 (s.rawsAfter P thread raws command) rest

instance (program : Handle) (s : LoaderSession π) (raws : Multiset Handle)
    (command : LoaderCommand) : Decidable (s.MayRun program raws command) :=
  inferInstanceAs (Decidable (∀ h ∈ s.taken? command, h = program ∨ h ∈ raws))

instance decidablePassesOnce (P : Platform π) (program : Handle) :
    (s : LoaderSession π) → (raws : Multiset Handle) → (history : List (Nat × LoaderCommand)) →
      Decidable (s.PassesOnce P program raws history)
  | _, _, [] => .isTrue trivial
  | s, raws, (thread, command) :: rest =>
    have := decidablePassesOnce P program (s.step P thread command).2
      (s.rawsAfter P thread raws command) rest
    inferInstanceAs (Decidable (s.MayRun program raws command ∧ PassesOnce P program _ _ rest))

/-- What owns a reference: the libraries and the raw handles that are out. -/
def owners (s : LoaderSession π) (raws : Multiset Handle) : Multiset Handle :=
  Table.handles s.libraries + raws

/-- There are as many references as owners. -/
structure Balanced {P : Platform π} (counts : ReferenceCount P) (s : LoaderSession π)
    (raws : Multiset Handle) : Prop where
  intact : counts.Intact s.platform
  names : (s.libraries.map Prod.fst).Nodup
  count_eq : ∀ h, h ≠ counts.program → counts.count s.platform h = (s.owners raws).count h

/-! ## One step -/

section Step

variable {P : Platform π} {counts : ReferenceCount P} {s after : LoaderSession π}
  {raws gained lost : Multiset Handle} {thread : Nat} {name : String} {lib : Library}
  {command : LoaderCommand}

theorem Balanced.count_pos (hs : s.Balanced counts raws) {h : Handle} (other : h ≠ counts.program)
    (owner : h ∈ s.owners raws) : 0 < counts.count s.platform h := by
  rw [hs.count_eq h other]
  exact Multiset.count_pos.2 owner

theorem Balanced.count_pos_of_lookup (hs : s.Balanced counts raws)
    (found : s.libraries.lookup name = some lib) (other : lib.handle ≠ counts.program) :
    0 < counts.count s.platform lib.handle := by
  refine hs.count_pos other (Multiset.mem_add.2 (.inl ?_))
  rw [Table.handles_eq_add_erase hs.names name, found]
  exact Multiset.mem_add.2 (.inl (Multiset.mem_singleton_self _))

/-- A session after a step: balanced, and with no fewer references to the running program. -/
structure Kept (counts : ReferenceCount P) (s after : LoaderSession π) (raws' : Multiset Handle) :
    Prop where
  balanced : after.Balanced counts raws'
  program_le : counts.count s.platform counts.program ≤ counts.count after.platform counts.program

theorem count_rawsAfter (thread : Nat) (may : s.MayRun counts.program raws command) {k : Handle}
    (other : k ≠ counts.program) :
    (s.rawsAfter P thread raws command).count k + (Handle.bag (s.taken? command)).count k =
      raws.count k + (Handle.bag (s.given? P thread command)).count k := by
  unfold MayRun at may
  rw [rawsAfter, Multiset.count_add, Multiset.count_sub]
  generalize s.taken? command = taken at may
  rcases taken with _ | h
  · rw [Handle.bag, Multiset.count_zero]
    omega
  · rw [Handle.bag, Multiset.count_singleton]
    split
    next same =>
      have out : k ∈ raws := same ▸ (may h rfl).resolve_left (same ▸ other)
      have := Multiset.count_pos.2 out
      omega
    · omega

/-- If the handles of the libraries change as the references do, but for raw handles that are given
out or passed on, the balance is kept. -/
theorem Balanced.kept (hs : s.Balanced counts raws) (may : s.MayRun counts.program raws command)
    (names : (after.libraries.map Prod.fst).Nodup)
    (moves : counts.Moves s.platform after.platform gained lost)
    (handles : ∀ h, h ≠ counts.program →
      (Table.handles after.libraries).count h + (Handle.bag (s.given? P thread command)).count h +
          lost.count h =
        (Table.handles s.libraries).count h + (Handle.bag (s.taken? command)).count h +
          gained.count h) :
    Kept counts s after (s.rawsAfter P thread raws command) := by
  refine ⟨⟨moves.intact, names, fun h other => ?_⟩, moves.program_le⟩
  have platform := moves.count_add h
  have balance := hs.count_eq h other
  have held := handles h other
  have out := count_rawsAfter (P := P) thread may other
  rw [owners, Multiset.count_add] at balance ⊢
  omega

/-- A step that touches neither the libraries nor the references. -/
theorem Balanced.kept_same (hs : s.Balanced counts raws)
    (may : s.MayRun counts.program raws command) (libraries : after.libraries = s.libraries)
    (moves : counts.Moves s.platform after.platform 0 0) (given : s.given? P thread command = none)
    (taken : s.taken? command = none) :
    Kept counts s after (s.rawsAfter P thread raws command) := by
  refine hs.kept may (libraries ▸ hs.names) moves fun h _ => ?_
  rw [libraries, given, taken]

@[simp] theorem libraries_setView (s : LoaderSession π) (thread : Nat) (view : ThreadView π) :
    (s.setView thread view).libraries = s.libraries := rfl

theorem libraries_bindLibrary (P : Platform π) (s : LoaderSession π) (thread : Nat) (name : String)
    (lib : Library) :
    (s.bindLibrary P thread name lib).libraries = s.libraries.insert name lib := by
  unfold bindLibrary
  cases s.libraries.lookup name <;> rfl

/-- Naming a library drops the one that had the name. -/
theorem moves_bindLibrary (intact : counts.Intact s.platform) (thread : Nat) (lib : Library)
    (positive : ∀ old, s.libraries.lookup name = some old → old.handle ≠ counts.program →
      0 < counts.count s.platform old.handle) :
    counts.Moves s.platform (s.bindLibrary P thread name lib).platform 0
      (counts.lostBy ((s.libraries.lookup name).map Library.handle)) := by
  have view : counts.Intact (s.view thread).platform := intact
  unfold bindLibrary
  rcases found : s.libraries.lookup name with _ | old
  · exact .refl intact
  · exact ReferenceCount.moves_drop view old (positive old found)

theorem count_handles_insert (names : (s.libraries.map Prod.fst).Nodup) (name : String)
    (lib : Library) {k : Handle} (other : k ≠ counts.program) :
    (Table.handles (s.libraries.insert name lib)).count k +
        (counts.lostBy ((s.libraries.lookup name).map Library.handle)).count k =
      (Table.handles s.libraries).count k + ({lib.handle} : Multiset Handle).count k := by
  rw [Table.handles_insert, Table.handles_eq_add_erase names name,
    ReferenceCount.count_lostBy other, Multiset.count_add, Multiset.count_add]
  omega

/-- What was opened by a session is owned by a library. -/
theorem Balanced.kept_opened (hs : s.Balanced counts raws)
    (may : s.MayRun counts.program raws command) (given : s.given? P thread command = none)
    (taken : s.taken? command = none) {opened : Option Handle × ThreadView π}
    (moves : counts.Moves s.platform opened.2.platform (Handle.bag opened.1) 0) :
    Kept counts s (s.opened P thread name (Library.ofHandle opened)).2
      (s.rawsAfter P thread raws command) := by
  obtain ⟨_ | h, view⟩ := opened
  · exact hs.kept_same may rfl moves given taken
  · have positive : ∀ old, s.libraries.lookup name = some old → old.handle ≠ counts.program →
        0 < counts.count view.platform old.handle := by
      intro old found other
      have before := hs.count_pos_of_lookup found other
      have after := moves.count_add old.handle
      simp only [Multiset.count_zero] at after
      omega
    have bind := moves_bindLibrary (s := s.setView thread view) moves.intact thread ⟨h⟩ positive
    refine hs.kept may ?_ (moves.trans bind) fun k other => ?_
    · rw [LoaderSession.opened, Library.ofHandle, libraries_bindLibrary]
      exact Table.nodup_insert hs.names name _
    · have insert := count_handles_insert hs.names name ⟨h⟩ other
      rw [LoaderSession.opened, Library.ofHandle, libraries_bindLibrary, given, taken,
        Multiset.count_add, Multiset.count_add]
      simp only [libraries_setView, Handle.bag, Multiset.count_zero] at insert ⊢
      omega

/-- A library that is taken from its table owns nothing any more, and nothing else changes. -/
theorem count_handles_forget (names : (s.libraries.map Prod.fst).Nodup)
    (found : s.libraries.lookup name = some lib) (k : Handle) :
    (Table.handles s.libraries).count k =
      ({lib.handle} : Multiset Handle).count k +
        (Table.handles (s.forget name).libraries).count k := by
  rw [Table.handles_eq_add_erase names name, found, Multiset.count_add]
  rfl

theorem Balanced.kept_forget (hs : s.Balanced counts raws)
    (may : s.MayRun counts.program raws command) (found : s.libraries.lookup name = some lib)
    (libraries : after.libraries = (s.forget name).libraries)
    (moves : counts.Moves s.platform after.platform 0 (counts.lostBy (some lib.handle)))
    (given : s.given? P thread command = none) (taken : s.taken? command = none) :
    Kept counts s after (s.rawsAfter P thread raws command) := by
  refine hs.kept may ?_ moves fun k other => ?_
  · rw [libraries]
    exact Table.nodup_erase hs.names name
  · rw [libraries, given, taken, count_handles_forget hs.names found,
      ReferenceCount.count_lostBy other]
    simp only [Handle.bag, Multiset.count_zero]
    omega

theorem libraries_step_of_resolve (resolves : command.stage? = some .resolve) :
    (s.step P thread command).2.libraries = s.libraries := by
  cases command with
  | symbol library symbol name =>
    simp only [step, withLibrary]
    rcases s.libraries.lookup library with _ | lib
    · rfl
    · simp only
      rcases lib.symbol P symbol (s.view thread) with ⟨_ | a, view⟩ <;> rfl
  | resolveRaw handle symbol =>
    simp only [step, withHandle]
    rcases s.handle? handle with _ | h <;> rfl
  | _ => cases resolves

/-- Finding a symbol changes no references. -/
theorem moves_step_of_resolve (intact : counts.Intact s.platform)
    (resolves : command.stage? = some .resolve) :
    counts.Moves s.platform (s.step P thread command).2.platform 0 0 := by
  have view : counts.Intact (s.view thread).platform := intact
  cases command with
  | symbol library symbol name =>
    simp only [step, withLibrary]
    rcases s.libraries.lookup library with _ | lib
    · exact .refl intact
    · have moves := ReferenceCount.moves_symbol view lib symbol
      simp only
      generalize lib.symbol P symbol (s.view thread) = result at moves ⊢
      rcases result with ⟨e | a, view⟩
      · exact moves
      · exact moves
  | resolveRaw handle symbol =>
    simp only [step, withHandle]
    rcases s.handle? handle with _ | h
    · exact .refl intact
    · exact ReferenceCount.moves_resolve view h symbol
  | _ => cases resolves

/-- Every command keeps the balance. -/
theorem Balanced.kept_step (hs : s.Balanced counts raws)
    (may : s.MayRun counts.program raws command) :
    Kept counts s (s.step P thread command).2 (s.rawsAfter P thread raws command) := by
  have intact : counts.Intact (s.view thread).platform := hs.intact
  cases command with
  | openPath path options name =>
    exact hs.kept_opened may rfl rfl (ReferenceCount.moves_openHandle intact (some path) options)
  | openThis name =>
    exact hs.kept_opened may rfl rfl (ReferenceCount.moves_openHandle intact none {})
  | symbol library symbol name =>
    apply hs.kept_same may _ (moves_step_of_resolve intact rfl) rfl rfl
    exact libraries_step_of_resolve rfl
  | close library =>
    simp only [step, withLibrary]
    rcases found : s.libraries.lookup library with _ | lib
    · exact hs.kept_same may rfl (.refl hs.intact) rfl rfl
    · have moves := ReferenceCount.moves_close intact lib (hs.count_pos_of_lookup found)
      simp only
      generalize lib.close P (s.view thread) = result at moves ⊢
      rcases result with ⟨e | _, view⟩
      · exact hs.kept_forget may found rfl moves rfl rfl
      · exact hs.kept_forget may found rfl moves rfl rfl
  | drop library =>
    simp only [step, withLibrary]
    rcases found : s.libraries.lookup library with _ | lib
    · exact hs.kept_same may rfl (.refl hs.intact) rfl rfl
    · have moves := ReferenceCount.moves_drop intact lib (hs.count_pos_of_lookup found)
      exact hs.kept_forget may found rfl moves rfl rfl
  | giveUp library name =>
    have given : s.given? P thread (.giveUp library name) =
        (s.libraries.lookup library).map Library.handle := rfl
    simp only [step, withLibrary]
    rcases found : s.libraries.lookup library with _ | lib
    · rw [found] at given
      exact hs.kept_same may rfl (.refl hs.intact) given rfl
    · refine hs.kept may (Table.nodup_erase hs.names library) (.refl hs.intact) fun k _ => ?_
      rw [given, found, count_handles_forget hs.names found]
      exact congrArg (· + _) (Nat.add_comm _ _)
  | adopt handle name =>
    have taken : s.taken? (.adopt handle name) = (s.handle? handle).join := rfl
    simp only [step, withHandle]
    rcases found : s.handle? handle with _ | _ | h
    · rw [found] at taken
      exact hs.kept_same may rfl (.refl hs.intact) rfl taken
    · rw [found] at taken
      exact hs.kept_same may rfl (.refl hs.intact) rfl taken
    · have positive : ∀ old, s.libraries.lookup name = some old → old.handle ≠ counts.program →
          0 < counts.count s.platform old.handle := fun _ found => hs.count_pos_of_lookup found
      have moves := moves_bindLibrary hs.intact thread ⟨h⟩ positive
      refine hs.kept may ?_ moves fun k other => ?_
      · rw [libraries_bindLibrary]
        exact Table.nodup_insert hs.names name _
      · rw [libraries_bindLibrary, taken, found]
        exact count_handles_insert hs.names name ⟨h⟩ other
  | openRaw path name =>
    have moves := ReferenceCount.moves_openHandle intact path {}
    exact hs.kept may hs.names moves fun k _ => rfl
  | resolveRaw handle symbol =>
    apply hs.kept_same may _ (moves_step_of_resolve intact rfl) rfl rfl
    exact libraries_step_of_resolve rfl
  | closeRaw handle =>
    have taken : s.taken? (.closeRaw handle) = (s.handle? handle).join := rfl
    simp only [step, withHandle]
    rcases found : s.handle? handle with _ | h
    · rw [found] at taken
      exact hs.kept_same may rfl (.refl hs.intact) rfl taken
    · rw [found] at taken
      have positive : ∀ k ∈ h, k ≠ counts.program → 0 < counts.count s.platform k := by
        intro k hk other
        have out : k ∈ raws := (may k (taken ▸ hk)).resolve_left other
        exact hs.count_pos other (Multiset.mem_add.2 (.inr out))
      have moves := ReferenceCount.moves_releaseHandle intact positive
      refine hs.kept may hs.names moves fun k other => ?_
      rw [taken, ReferenceCount.count_lostBy other]
      rfl

end Step

/-! ## Runs -/

variable {P : Platform π}

theorem Balanced.run {counts : ReferenceCount P} (history : List (Nat × LoaderCommand)) :
    ∀ {s : LoaderSession π} {raws : Multiset Handle}, s.Balanced counts raws →
      s.PassesOnce P counts.program raws history →
      (s.run P history).Balanced counts (s.rawsOut P raws history) := by
  induction history with
  | nil => exact fun hs _ => hs
  | cons entry rest ih =>
    obtain ⟨thread, command⟩ := entry
    exact fun hs once => ih (hs.kept_step once.1).balanced once.2

theorem balanced_start {counts : ReferenceCount P} {p : π} (intact : counts.Intact p)
    (closed : ∀ h, h ≠ counts.program → counts.count p h = 0) :
    (start p).Balanced counts 0 :=
  ⟨intact, List.nodup_nil, closed⟩

/-- After every run that passes no raw handle on more often than it was given out, there are as many
references to a handle as owners, and no release lacked a reference; those to the running program
are never given up, and finding a symbol changes none. -/
theorem references_eq_owners (counts : ReferenceCount P) {p : π} (intact : counts.Intact p)
    (closed : ∀ h, h ≠ counts.program → counts.count p h = 0)
    (history : List (Nat × LoaderCommand))
    (once : (start (p, [])).PassesOnce (P.recorded counts.count) counts.program 0 history) :
    let s := (start (p, [])).run (P.recorded counts.count) history
    let raws := (start (p, [])).rawsOut (P.recorded counts.count) 0 history
    (∀ h, h ≠ counts.program → counts.count s.platform.1 h = (s.owners raws).count h) ∧
    (s.owners raws = 0 → ∀ h, h ≠ counts.program → counts.count s.platform.1 h = 0) ∧
    (∀ request ∈ s.platform.2, 0 < request.references) ∧
    (∀ thread command, s.MayRun counts.program raws command →
      counts.count s.platform.1 counts.program ≤
        counts.count (s.step (P.recorded counts.count) thread command).2.platform.1
          counts.program) ∧
    ∀ thread command, command.stage? = some .resolve →
      counts.count (s.step (P.recorded counts.count) thread command).2.platform.1 =
        counts.count s.platform.1 := by
  intro s raws
  have opened : counts.recorded.Intact (p, []) := ⟨intact, fun _ => nofun⟩
  have balanced : s.Balanced counts.recorded raws :=
    (balanced_start opened closed).run history once
  refine ⟨balanced.count_eq, fun none h other => ?_, balanced.intact.2, ?_, ?_⟩
  · have count := balanced.count_eq h other
    rw [none] at count
    exact count
  · exact fun thread command may => (balanced.kept_step may).program_le
  · exact fun thread command resolves =>
      (moves_step_of_resolve balanced.intact resolves).count_eq

/-- Two threads that hand the references to one object around: in the end one is owned by a library
and one by a raw handle. -/
def handedAround : List (Nat × LoaderCommand) :=
  [(0, .openPath (Utf8.encode "libone.so") {} "one"),
    (1, .openRaw (some (Utf8.encode "libone.so")) "raw"), (0, .giveUp "one" "given"),
    (1, .adopt (some "given") "two"), (0, .openThis "main"), (0, .giveUp "main" "program"),
    (1, .closeRaw (some "program")), (0, .closeRaw (some "program")), (0, .closeRaw none),
    (1, .openPath (Utf8.encode "libone.so") {} "two"), (0, .giveUp "two" "last"),
    (0, .closeRaw (some "raw")), (1, .resolveRaw (some "raw") (some (Utf8.encode "f"))),
    (0, .openPath (Utf8.encode "libone.so") {} "three")]

/-- The platform on which they do so, with its releases recorded. -/
def recordedObject : Platform (OpenObjects × List ReleaseRequest) :=
  oneObject.platform.recorded oneObject.referenceCount.count

theorem references_eq_owners_handed_around :
    oneObject.referenceCount.Intact oneObject.start ∧
    (∀ h, h ≠ Installation.programHandle → oneObject.start.references h = 0) ∧
    (start (oneObject.start, [])).PassesOnce recordedObject Installation.programHandle 0
      handedAround ∧
    ((start (oneObject.start, [])).run recordedObject handedAround).platform.1.references ⟨1⟩ = 2 ∧
    (((start (oneObject.start, [])).run recordedObject handedAround).owners
      ((start (oneObject.start, [])).rawsOut recordedObject 0 handedAround)).count ⟨1⟩ = 2 ∧
    ∀ request ∈ ((start (oneObject.start, [])).run recordedObject handedAround).platform.2,
      0 < request.references := by
  have once : (start (oneObject.start, [])).PassesOnce recordedObject Installation.programHandle 0
      handedAround := by decide +kernel
  have owners : (((start (oneObject.start, [])).run recordedObject handedAround).owners
      ((start (oneObject.start, [])).rawsOut recordedObject 0 handedAround)).count ⟨1⟩ = 2 := by
    decide +kernel
  have run := references_eq_owners oneObject.referenceCount oneObject.intact_start
    (fun _ => oneObject.count_start) handedAround once
  exact ⟨oneObject.intact_start, fun _ => oneObject.count_start, once,
    (run.1 ⟨1⟩ (by decide)).trans owners, owners, run.2.2.1⟩

end LoaderSession

end ForeignCall
