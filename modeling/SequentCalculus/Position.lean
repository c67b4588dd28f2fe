/-!
# Position — places in a list, counted from either end

A place `0, 1, …` counts from the front and a place `-1, -2, …` from the end.
-/

namespace SequentCalculus

/-- The index that a place names in a list of the given length, `none` if the place is outside. -/
def indexOf? (length : Nat) (place : Int) : Option Nat :=
  if 0 ≤ place then
    if place < length then some place.toNat else none
  else
    if 0 ≤ place + length then some (place + length).toNat else none

/-- A place names an index inside the list. -/
theorem lt_of_indexOf? {length : Nat} {place : Int} {i : Nat} (h : indexOf? length place = some i) :
    i < length := by
  unfold indexOf? at h
  split at h <;> split at h <;> simp at h <;> omega

/-- An index inside the list is the place it names. -/
theorem indexOf?_natCast {length i : Nat} (h : i < length) : indexOf? length i = some i := by
  simp [indexOf?, h]

end SequentCalculus
