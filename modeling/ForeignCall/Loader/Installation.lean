import ForeignCall.Loader.Platform
import ForeignCall.Text.Utf8

/-!
# Installations of shared objects

A platform on which certain objects can be opened (`Installation`).  Every object has one handle
and a count of its references.  A resident object stays usable when its count falls to zero; an
object whose symbols were made global is searched by the whole process as long as it is open.

The diagnostics are those of the C library's loader.
-/

namespace ForeignCall

/-- An object that can be opened. -/
structure SharedObject where
  /-- The path it is opened by. -/
  path : Bytes
  /-- Its name in diagnostics. -/
  label : Bytes
  /-- The symbols found through its handle. -/
  symbols : List (Bytes × Address)
  /-- Whether it stays usable when nobody holds it open. -/
  isResident : Bool

/-- The objects of a platform. -/
structure Installation where
  /-- The name of the running program in diagnostics. -/
  label : Bytes
  /-- The symbols of the running program. -/
  symbols : List (Bytes × Address)
  objects : List SharedObject

/-- What a process knows of an object. -/
structure ObjectState where
  count : Nat
  isGlobal : Bool

/-- What a process has open: the running program and the objects of the installation in order. -/
structure OpenObjects where
  programCount : Nat
  objects : List ObjectState

namespace Installation

/-- The process at its start: only the running program is open. -/
def start (env : Installation) : OpenObjects := ⟨1, env.objects.map fun _ => ⟨0, false⟩⟩

def programHandle : Handle := ⟨0⟩

def objectHandle (index : Nat) : Handle := ⟨index + 1⟩

/-- Whether the path is a spelling of the root directory. -/
def isRootDirectory (path : Bytes) : Bool :=
  path.head? == some 0x2f && (path.splitOn 0x2f).all fun part => part.all (· == 0x2e) &&
    part.length ≤ 2

/-- The diagnostic of a path that cannot be opened. -/
def cannotOpen (path : Bytes) : Bytes :=
  path ++ Utf8.encode (if isRootDirectory path then ": cannot read file data: Is a directory"
    else ": cannot open shared object file: No such file or directory")

/-- Opens the object at the path, or the running program. -/
def openObject (env : Installation) (path : Option Bytes) (options : OpenOptions)
    (p : OpenObjects) : PlatformResult Handle × OpenObjects :=
  match path with
  | none => (.ok programHandle, { p with programCount := p.programCount + 1 })
  | some path =>
    match env.objects.findIdx? (·.path == path) with
    | some index =>
      let opened (o : ObjectState) : ObjectState :=
        ⟨o.count + 1, o.isGlobal || options.scope = .global⟩
      (.ok (objectHandle index), { p with objects := p.objects.modify index opened })
    | none => (.error (some (cannotOpen path)), p)

/-- The symbols that the whole process sees. -/
def processSymbols (env : Installation) (p : OpenObjects) : List (Bytes × Address) :=
  env.symbols ++ (env.objects.zip p.objects).flatMap fun (object, state) =>
    if state.isGlobal then object.symbols else []

/-- The name in diagnostics and the symbols of what a handle stands for. -/
def searched (env : Installation) (p : OpenObjects) (handle : Option Handle) :
    Bytes × List (Bytes × Address) :=
  let whole := (env.label, env.processSymbols p)
  match handle with
  | none | some ⟨0⟩ => whole
  | some ⟨index + 1⟩ =>
    match env.objects[index]? with
    | some object => (object.label, object.symbols)
    | none => whole

/-- Finds the symbol.  A symbol whose address is null counts as missing, without a diagnostic. -/
def findSymbol (env : Installation) (handle : Option Handle) (name : Bytes)
    (p : OpenObjects) : PlatformResult Address × OpenObjects :=
  let (label, symbols) := env.searched p handle
  match symbols.lookup name with
  | some a => (if a = Address.null then .error none else .ok a, p)
  | none => (.error (some (label ++ Utf8.encode ": undefined symbol: " ++ name)), p)

/-- Gives up one reference to an object. -/
def releaseObject (env : Installation) (handle : Handle) (p : OpenObjects) :
    PlatformResult Unit × OpenObjects :=
  match handle with
  | ⟨0⟩ => (.ok (), { p with programCount := p.programCount - 1 })
  | ⟨index + 1⟩ =>
    match env.objects[index]?, p.objects[index]? with
    | some object, some state =>
      if state.count = 0 then
        (.error (some (object.label ++ Utf8.encode ": shared object not open")), p)
      else
        let keeps := object.isResident || 1 < state.count
        let released : ObjectState := ⟨state.count - 1, state.isGlobal && keeps⟩
        (.ok (), { p with objects := p.objects.set index released })
    | _, _ => (.error none, p)

def platform (env : Installation) : Platform OpenObjects where
  openObject := env.openObject
  findSymbol := env.findSymbol
  releaseObject := env.releaseObject

end Installation

end ForeignCall
