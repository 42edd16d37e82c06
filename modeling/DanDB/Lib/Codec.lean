import Mathlib
/-!
# Codecs

The two directions of a stored format.  Both may refuse: `encode` a value that
the format has no room for, `decode` a sequence of cells that stands for no
value.  They are inverse when each undoes the other wherever it succeeds, so
that the values that can be stored and the forms that can be read correspond one
to one.
-/

namespace Codec

variable {ε α β : Type}

/-- Each direction undoes the other. -/
def Inverse (encode : α → Except ε β) (decode : β → Except ε α) : Prop :=
  ∀ value stored, encode value = .ok stored ↔ decode stored = .ok value

namespace Inverse

variable {encode : α → Except ε β} {decode : β → Except ε α}

theorem decode_encode (h : Inverse encode decode) {value : α} {stored : β}
    (hencode : encode value = .ok stored) : decode stored = .ok value :=
  (h value stored).mp hencode

theorem encode_decode (h : Inverse encode decode) {value : α} {stored : β}
    (hdecode : decode stored = .ok value) : encode value = .ok stored :=
  (h value stored).mpr hdecode

/-- No two forms are read as the same value. -/
theorem stored_unique (h : Inverse encode decode) {value : α} {stored other : β}
    (hstored : decode stored = .ok value) (hother : decode other = .ok value) :
    stored = other := by
  have heq := (h.encode_decode hstored).symm.trans (h.encode_decode hother)
  exact Except.ok.inj heq

end Inverse

end Codec
