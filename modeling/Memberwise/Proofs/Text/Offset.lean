import Memberwise.Text.Position
import Mathlib.Data.List.Basic

/-!
# Offsets and prefixes

A character boundary of a text is known by the text before it, and that by its size: of two prefixes
of one text the one with fewer bytes is a prefix of the other.
-/

namespace Memberwise.Text

theorem utf8ByteSize_ofList (text : List Char) :
    (String.ofList text).utf8ByteSize = byteSize text := by
  induction text with
  | nil => rfl
  | cons c rest ih =>
    rw [String.ofList_cons, String.utf8ByteSize_append, String.utf8ByteSize_singleton, ih,
      byteSize_cons]

theorem byteSize_toList (text : String) : byteSize text.toList = text.utf8ByteSize := by
  rw [← utf8ByteSize_ofList, String.ofList_toList]

theorem byteSize_eq_zero_iff {text : List Char} : byteSize text = 0 ↔ text = [] := by
  cases text with
  | nil => simp
  | cons c rest =>
    have hpos := c.utf8Size_pos
    simp only [byteSize_cons, reduceCtorEq, iff_false]
    omega

/-- Prefixes of a text are ordered by their sizes. -/
theorem prefix_of_byteSize_le {front other text : List Char} (hfront : front <+: text)
    (hother : other <+: text) (h : byteSize front ≤ byteSize other) : front <+: other := by
  rcases List.prefix_or_prefix_of_prefix hfront hother with hle | ⟨back, rfl⟩
  · exact hle
  · rw [byteSize_append] at h
    obtain rfl : back = [] := byteSize_eq_zero_iff.mp (by omega)
    simp

end Memberwise.Text
