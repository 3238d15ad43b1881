import Mathlib

/-! Objects of a fixed size that are filled from the front, with fields behind which
more has been written already. A write that does not fit has no result. -/
namespace Spdylay.Library

variable {β : Type} {buf front field rest bytes : List β} {i : Nat}

def writeAt (buf : List β) (i : Nat) (bytes : List β) : Option (List β) :=
  if i+bytes.length ≤ buf.length then some (buf.take i ++ bytes ++ buf.drop (i+bytes.length)) else none

theorem writeAt_of_le (h : i+bytes.length ≤ buf.length) :
    writeAt buf i bytes = some (buf.take i ++ bytes ++ buf.drop (i+bytes.length)) := if_pos h

theorem writeAt_of_lt (h : buf.length < i+bytes.length) : writeAt buf i bytes = none := if_neg h.not_ge

/-- The front grows. -/
theorem writeAt_front (h : bytes.length ≤ rest.length) (hi : i = front.length) :
    writeAt (front ++ rest) i bytes = some (front ++ bytes ++ rest.drop bytes.length) := by
  subst hi
  rw [writeAt_of_le (by rw [List.length_append]; omega),List.take_left' rfl,← List.drop_drop,List.drop_left' rfl]

/-- A field gets a new value of its length. -/
theorem writeAt_field (h : bytes.length = field.length) (hi : i = front.length) :
    writeAt (front ++ field ++ rest) i bytes = some (front ++ bytes ++ rest) := by
  subst hi
  rw [List.append_assoc,writeAt_front (by rw [List.length_append]; omega) rfl,List.drop_left' h.symm]

end Spdylay.Library
