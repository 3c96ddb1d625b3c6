import ForeignCall.Layout.Basic

/-!
# Types of the probe library

The aggregates that functions of the probe library take: a pair with padding between its fields, a
reference to memory of the caller, and a word that is an integer or a pointer.
-/

namespace ForeignCall.Native

/-- A number and its weight. -/
def pairLayout : Layout := ⟨.struct, .ofList (.scalar (.int .int32)) [.scalar .float64]⟩

/-- A flag and a pointer to a number. -/
def refLayout : Layout := ⟨.struct, .ofList (.scalar (.int .int32)) [.scalar .pointer]⟩

/-- An integer or a pointer. -/
def wordLayout : Layout := ⟨.union, .ofList (.scalar (.int .int64)) [.scalar .pointer]⟩

end ForeignCall.Native
