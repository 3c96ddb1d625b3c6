import ForeignCall.Value.Basic

/-!
# The platform's loader

What a platform offers for loading libraries (`Platform`): opening an object, finding a symbol and
releasing an object.  An operation that fails may come with a diagnostic.
-/

namespace ForeignCall

/-- What the platform identifies an open object by. -/
structure Handle where
  number : Nat
  deriving DecidableEq, Repr

/-- When the references of a freshly opened object are bound. -/
inductive Binding where
  /-- Each on its first use. -/
  | onUse
  /-- All at once. -/
  | atOnce
  deriving DecidableEq, Repr

/-- Who sees the symbols of an opened object. -/
inductive Scope where
  /-- Those who hold its handle. -/
  | confined
  /-- The whole process. -/
  | global
  deriving DecidableEq, Repr

/-- How an object is opened. -/
structure OpenOptions where
  binding : Binding := .onUse
  scope : Scope := .confined
  deriving DecidableEq, Repr

/-- The outcome of an operation of the platform, which may say why it failed. -/
abbrev PlatformResult (α : Type) := Except (Option Bytes) α

/-- A platform with the state `π`. -/
structure Platform (π : Type) where
  /-- Opens the object at the path, or the running program. -/
  openObject : Option Bytes → OpenOptions → π → PlatformResult Handle × π
  /-- Finds the symbol in an object, or in the whole process. -/
  findSymbol : Option Handle → Bytes → π → PlatformResult Address × π
  /-- Gives up one reference to an object. -/
  releaseObject : Handle → π → PlatformResult Unit × π

end ForeignCall
