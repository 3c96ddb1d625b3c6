import ForeignCall.ErrorSlot.Operation
import ForeignCall.Loader.Platform

/-!
# Libraries

Loading libraries on top of a platform, with the error slot of the calling thread.  Every operation
clears the slot first and writes to it only if it fails, so the slot tells about the latest
operation of its thread.

`openHandle`, `findAddress` and `releaseHandle` work on handles that nobody owns.  A `Library` owns
one reference to its object, which `Library.close` and `Library.drop` give up; the running program
is never released.
-/

namespace ForeignCall

/-- What an operation of a thread sees: its error slot and the platform. -/
structure ThreadView (π : Type) where
  slot : ErrorSlot
  platform : π

/-- The slot after an operation of the platform failed: its diagnostic, or else the fallback. -/
def ErrorSlot.record (s : ErrorSlot) (fallback : String) (diagnostic : Option Bytes) :
    ErrorSlot :=
  match diagnostic with
  | some text => s.setBytes text
  | none => s.setText fallback

variable {π : Type}

namespace Platform

/-! ## Handles -/

/-- Opens the object at the path, or the running program if there is no path or an empty one. -/
def openHandle (P : Platform π) (path : Option Bytes) (options : OpenOptions)
    (view : ThreadView π) : Option Handle × ThreadView π :=
  let slot := view.slot.clear
  if (path.getD []).contains 0 then
    (none, ⟨slot.setText "library path contains a NUL byte", view.platform⟩)
  else
    match P.openObject (path.filter fun p => !p.isEmpty) options view.platform with
    | (.ok handle, platform) => (some handle, ⟨slot, platform⟩)
    | (.error diagnostic, platform) =>
      (none, ⟨slot.record ErrorKind.load.fallback diagnostic, platform⟩)

/-- Finds the symbol in an object, or in the whole process. -/
def findAddress (P : Platform π) (handle : Option Handle) (name : Bytes)
    (view : ThreadView π) : Option Address × ThreadView π :=
  let slot := view.slot.clear
  match P.findSymbol handle name view.platform with
  | (.ok address, platform) => (some address, ⟨slot, platform⟩)
  | (.error diagnostic, platform) =>
    (none, ⟨slot.record ErrorKind.resolve.fallback diagnostic, platform⟩)

/-- Whether the handle is that of the running program, which is opened and released again to
compare it. -/
def isProgram (P : Platform π) (handle : Handle) (platform : π) : Bool × π :=
  match P.openObject none {} platform with
  | (.ok program, platform) => (program = handle, (P.releaseObject program platform).2)
  | (.error _, platform) => (false, platform)

/-- Gives up one reference; no handle and that of the running program are left alone. -/
def releaseHandle (P : Platform π) (handle : Option Handle) (view : ThreadView π) :
    Bool × ThreadView π :=
  let slot := view.slot.clear
  match handle with
  | none => (true, ⟨slot, view.platform⟩)
  | some handle =>
    match P.isProgram handle view.platform with
    | (true, platform) => (true, ⟨slot, platform⟩)
    | (false, platform) =>
      match P.releaseObject handle platform with
      | (.ok (), platform) => (true, ⟨slot, platform⟩)
      | (.error diagnostic, platform) =>
        (false, ⟨slot.record ErrorKind.release.fallback diagnostic, platform⟩)

/-- Finds a symbol for a caller that may give no name at all. -/
def resolve (P : Platform π) (handle : Option Handle) (name : Option Bytes)
    (view : ThreadView π) : Option Address × ThreadView π :=
  match name with
  | some name => P.findAddress handle name view
  | none => (none, { view with slot := view.slot.setText "symbol name is null" })

end Platform

/-! ## Owned libraries -/

/-- An open library, which owns one reference to its object. -/
structure Library where
  handle : Handle
  deriving DecidableEq, Repr

/-- The error of a failed loader operation: its message is the text of the slot. -/
def ThreadView.failure (view : ThreadView π) (stage : LoaderStage) : Error :=
  .loader stage (view.slot.capture stage.kind)

namespace Library

/-- The library of an opened handle. -/
def ofHandle (opened : Option Handle × ThreadView π) : Except Error Library × ThreadView π :=
  match opened with
  | (some handle, view) => (.ok ⟨handle⟩, view)
  | (none, view) => (.error (view.failure .load), view)

/-- Opens the library at the path; an empty path is the running program. -/
def ofPath (P : Platform π) (path : Bytes) (options : OpenOptions) (view : ThreadView π) :
    Except Error Library × ThreadView π :=
  ofHandle (P.openHandle (some path) options view)

def this (P : Platform π) (view : ThreadView π) : Except Error Library × ThreadView π :=
  ofHandle (P.openHandle none {} view)

def symbol (P : Platform π) (lib : Library) (name : Bytes) (view : ThreadView π) :
    Except Error Address × ThreadView π :=
  if name.contains 0 then
    let view := { view with slot := view.slot.setText "symbol name contains a NUL byte" }
    (.error (view.failure .resolve), view)
  else
    match P.findAddress (some lib.handle) name view with
    | (some address, view) => (.ok address, view)
    | (none, view) => (.error (view.failure .resolve), view)

def close (P : Platform π) (lib : Library) (view : ThreadView π) :
    Except Error Unit × ThreadView π :=
  match P.releaseHandle (some lib.handle) view with
  | (true, view) => (.ok (), view)
  | (false, view) => (.error (view.failure .release), view)

/-- Releases the library at the end of its life: the slot is as it was. -/
def drop (P : Platform π) (lib : Library) (view : ThreadView π) : ThreadView π :=
  ⟨view.slot, (P.releaseHandle (some lib.handle) view).2.platform⟩

end Library

end ForeignCall
