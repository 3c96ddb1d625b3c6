import ForeignCall.Loader.Library

/-!
# Loader sessions

A session is what a program does with the loader: threads, each with an error slot of its own, run
commands on libraries, raw handles and symbols that are known by names.  A raw handle is one whose
reference nobody owns: a library was given up for it, or it was opened as such.
-/

namespace ForeignCall

/-- A loader operation on things known by names. -/
inductive LoaderCommand where
  /-- Opens the library at the path. -/
  | openPath (path : Bytes) (options : OpenOptions) (name : String)
  /-- Opens the running program. -/
  | openThis (name : String)
  /-- Finds a symbol of a library, and keeps it under a name. -/
  | symbol (library : String) (symbol : Bytes) (name : Option String)
  | close (library : String)
  | drop (library : String)
  /-- Gives up a library for its raw handle. -/
  | giveUp (library : String) (name : String)
  /-- Takes ownership of a raw handle. -/
  | adopt (handle : Option String) (name : String)
  | openRaw (path : Option Bytes) (name : String)
  | resolveRaw (handle : Option String) (symbol : Option Bytes)
  | closeRaw (handle : Option String)

/-- What a command answers. -/
inductive LoaderOutcome where
  | done
  | address (address : Address)
  | failed (error : Error)
  /-- A raw operation gave nothing. -/
  | null
  /-- There was no handle to take. -/
  | nothingToAdopt
  /-- A raw handle was released, or not. -/
  | released (success : Bool)
  /-- The command names something that is not there. -/
  | unknownName (name : String)
  deriving DecidableEq

/-- Things known by names, the latest first. -/
abbrev Table (α : Type) := List (String × α)

namespace Table

variable {α : Type}

/-- The table without the name. -/
def erase (t : Table α) (name : String) : Table α := t.filter fun entry => entry.1 != name

/-- The table with the name for something else. -/
def insert (t : Table α) (name : String) (a : α) : Table α := (name, a) :: erase t name

end Table

/-- The threads, tables and platform of a program. -/
structure LoaderSession (π : Type) where
  slots : Nat → ErrorSlot
  platform : π
  libraries : Table Library
  handles : Table (Option Handle)
  symbols : Table Address

namespace LoaderSession

variable {π : Type}

/-- A session in which nothing was done. -/
def start (platform : π) : LoaderSession π := ⟨fun _ => .empty, platform, [], [], []⟩

/-- What an operation of the thread sees. -/
def view (s : LoaderSession π) (thread : Nat) : ThreadView π := ⟨s.slots thread, s.platform⟩

/-- The session after an operation of the thread left the view. -/
def setView (s : LoaderSession π) (thread : Nat) (view : ThreadView π) : LoaderSession π :=
  { s with
    slots := fun t => if t = thread then view.slot else s.slots t
    platform := view.platform }

/-- The raw handle with the name; no name stands for no handle. -/
def handle? (s : LoaderSession π) : Option String → Option (Option Handle)
  | none => some none
  | some name => s.handles.lookup name

/-- Names a library.  The one that had the name before is dropped. -/
def bindLibrary (P : Platform π) (s : LoaderSession π) (thread : Nat) (name : String)
    (lib : Library) : LoaderSession π :=
  let previous := s.libraries.lookup name
  let s := { s with libraries := s.libraries.insert name lib }
  match previous with
  | some old => s.setView thread (old.drop P (s.view thread))
  | none => s

/-- The session after a library was opened or not. -/
def opened (P : Platform π) (s : LoaderSession π) (thread : Nat) (name : String)
    (result : Except Error Library × ThreadView π) : LoaderOutcome × LoaderSession π :=
  let s := s.setView thread result.2
  match result.1 with
  | .ok lib => (.done, s.bindLibrary P thread name lib)
  | .error e => (.failed e, s)

/-- Runs a function on the library with the name. -/
def withLibrary (s : LoaderSession π) (name : String)
    (f : Library → LoaderOutcome × LoaderSession π) : LoaderOutcome × LoaderSession π :=
  match s.libraries.lookup name with
  | some lib => f lib
  | none => (.unknownName name, s)

/-- Runs a function on the raw handle with the name. -/
def withHandle (s : LoaderSession π) (name : Option String)
    (f : Option Handle → LoaderOutcome × LoaderSession π) : LoaderOutcome × LoaderSession π :=
  match s.handle? name with
  | some handle => f handle
  | none => (.unknownName (name.getD ""), s)

/-- The session without the library of the name. -/
def forget (s : LoaderSession π) (name : String) : LoaderSession π :=
  { s with libraries := s.libraries.erase name }

/-- Runs a command on a thread. -/
def step (P : Platform π) (thread : Nat) (s : LoaderSession π) :
    LoaderCommand → LoaderOutcome × LoaderSession π
  | .openPath path options name =>
    s.opened P thread name (Library.ofPath P path options (s.view thread))
  | .openThis name => s.opened P thread name (Library.this P (s.view thread))
  | .symbol library symbol name =>
    s.withLibrary library fun lib =>
      let (result, view) := lib.symbol P symbol (s.view thread)
      let s := s.setView thread view
      match result with
      | .ok a =>
        (.address a, { s with symbols := (name.map (s.symbols.insert · a)).getD s.symbols })
      | .error e => (.failed e, s)
  | .close library =>
    s.withLibrary library fun lib =>
      let (result, view) := lib.close P (s.view thread)
      let s := (s.forget library).setView thread view
      match result with
      | .ok () => (.done, s)
      | .error e => (.failed e, s)
  | .drop library =>
    s.withLibrary library fun lib =>
      (.done, (s.forget library).setView thread (lib.drop P (s.view thread)))
  | .giveUp library name =>
    s.withLibrary library fun lib =>
      (.done, { s.forget library with handles := s.handles.insert name (some lib.handle) })
  | .adopt handle name =>
    s.withHandle handle fun
      | some h => (.done, s.bindLibrary P thread name ⟨h⟩)
      | none => (.nothingToAdopt, s)
  | .openRaw path name =>
    let (handle, view) := P.openHandle path {} (s.view thread)
    let s := { s.setView thread view with handles := s.handles.insert name handle }
    (if handle.isSome then .done else .null, s)
  | .resolveRaw handle symbol =>
    s.withHandle handle fun h =>
      let (address, view) := P.resolve h symbol (s.view thread)
      (match address with
        | some a => .address a
        | none => .null, s.setView thread view)
  | .closeRaw handle =>
    s.withHandle handle fun h =>
      let (success, view) := P.releaseHandle h (s.view thread)
      (.released success, s.setView thread view)

/-- Runs commands of any threads one after the other. -/
def run (P : Platform π) (s : LoaderSession π) : List (Nat × LoaderCommand) → LoaderSession π
  | [] => s
  | (thread, command) :: rest => run P (s.step P thread command).2 rest

end LoaderSession

end ForeignCall
