import Memberwise.Proofs.Text.Offset
import Memberwise.Proofs.Text.Runs
import Memberwise.Source.Mark
import Mathlib.Data.List.Induction

/-!
# Boundaries of a source text

A boundary of a text lies behind a prefix of it. It is named by the size of the prefix or by the row
and column that the prefix ends at, and both names order the boundaries of a text in the same way.
-/

namespace Memberwise

namespace Text

/-! ## Rows and columns -/

theorem lineFeeds_append (front back : List Char) :
    lineFeeds (front ++ back) = lineFeeds front + lineFeeds back := List.count_append

theorem lineFeeds_pos {text : List Char} (h : '\n' ∈ text) : 0 < lineFeeds text :=
  List.count_pos_iff.mpr h

theorem lineFeeds_eq_zero {text : List Char} (h : '\n' ∉ text) : lineFeeds text = 0 :=
  List.count_eq_zero.mpr h

theorem lastLine_append {back : List Char} (h : '\n' ∉ back) (front : List Char) :
    lastLine (front ++ back) = lastLine front ++ back := by
  have hbackward : '\n' ∉ back.reverse := mt List.mem_reverse.mp h
  rw [lastLine, lastLine, List.reverse_append, takeWhile_append_of_lineFeed_not_mem hbackward,
    List.reverse_append, List.reverse_reverse]

namespace Point

theorem after_concat (text : List Char) (c : Char) :
    after (text ++ [c]) =
      if c = '\n' then ⟨(after text).row + 1, 0⟩
      else ⟨(after text).row, (after text).column + c.utf8Size⟩ := by
  split
  · subst c
    simp [after, lineFeeds, lastLine]
  · rename_i hc
    have hfree : '\n' ∉ [c] := by simpa using Ne.symm hc
    simp [after, lineFeeds_append, lineFeeds_eq_zero hfree, lastLine_append hfree]

theorem after_le_after_append (front back : List Char) : after front ≤ after (front ++ back) := by
  by_cases h : '\n' ∈ back
  · have hpos := lineFeeds_pos h
    refine Or.inl ?_
    simp only [after, lineFeeds_append]
    omega
  · refine Or.inr ⟨?_, ?_⟩
    · simp [after, lineFeeds_append, lineFeeds_eq_zero h]
    · simp [after, lastLine_append h]

/-- Behind more text there is no earlier point. -/
theorem eq_nil_of_after_append_le {front back : List Char}
    (h : after (front ++ back) ≤ after front) : back = [] := by
  by_contra hne
  by_cases hfeed : '\n' ∈ back
  · have hpos := lineFeeds_pos hfeed
    rcases h with hrow | ⟨hrow, _⟩ <;> simp only [after, lineFeeds_append] at hrow <;> omega
  · have hrow : (after (front ++ back)).row = (after front).row := by
      simp [after, lineFeeds_append, lineFeeds_eq_zero hfeed]
    have hcolumn : (after (front ++ back)).column = (after front).column + byteSize back := by
      simp [after, lastLine_append hfeed]
    have hsize : byteSize back ≠ 0 := fun hzero ↦ hne (byteSize_eq_zero_iff.mp hzero)
    rcases h with hlt | ⟨_, hle⟩ <;> omega

/-- The points of a text are in the order of its offsets. -/
theorem after_le_after_iff {front other text : List Char} (hfront : front <+: text)
    (hother : other <+: text) : after front ≤ after other ↔ byteSize front ≤ byteSize other := by
  constructor
  · intro h
    rcases List.prefix_or_prefix_of_prefix hfront hother with ⟨back, rfl⟩ | ⟨back, rfl⟩
    · simp
    · simp [eq_nil_of_after_append_le h]
  · intro h
    obtain ⟨back, rfl⟩ := prefix_of_byteSize_le hfront hother h
    exact after_le_after_append front back

end Point

end Text

namespace Source.Mark

open Text (byteSize Point)

/-! ## Marks -/

theorem start_advance (text : List Char) :
    start.advance text = ⟨byteSize text, Point.after text⟩ := by
  induction text using List.reverseRecOn with
  | nil => rfl
  | append_singleton text c ih =>
    rw [advance_append, ih, Point.after_concat, Text.byteSize_append]
    rfl

/-- The mark lies behind a prefix of the text. -/
def IsBoundary (source : List Char) (mark : Mark) : Prop :=
  ∃ front, front <+: source ∧ mark = start.advance front

namespace IsBoundary

variable {source : List Char} {mark other : Mark}

theorem exists_splitAt? (h : mark.IsBoundary source) :
    ∃ front back, Text.splitAt? mark.offset source = some (front, back) ∧
      mark.point = Point.after front := by
  obtain ⟨front, ⟨back, rfl⟩, rfl⟩ := h
  rw [start_advance]
  exact ⟨front, back, Text.splitAt?_byteSize front back, rfl⟩

/-- Between two boundaries the text can be cut out. -/
theorem exists_slice? (h : mark.IsBoundary source) (hother : other.IsBoundary source)
    (hle : mark.offset ≤ other.offset) :
    ∃ middle, Text.slice? mark.offset other.offset source = some middle := by
  obtain ⟨front, hfront, rfl⟩ := h
  obtain ⟨upto, hupto, rfl⟩ := hother
  simp only [start_advance] at hle ⊢
  obtain ⟨middle, rfl⟩ := Text.prefix_of_byteSize_le hfront hupto hle
  obtain ⟨back, rfl⟩ := hupto
  exact ⟨middle, Text.slice?_byteSize front middle back⟩

/-- Boundaries of one text are in the same order by their points and by their offsets. -/
theorem point_le_iff (h : mark.IsBoundary source) (hother : other.IsBoundary source) :
    mark.point ≤ other.point ↔ mark.offset ≤ other.offset := by
  obtain ⟨front, hfront, rfl⟩ := h
  obtain ⟨before, hbefore, rfl⟩ := hother
  rw [start_advance, start_advance]
  exact Point.after_le_after_iff hfront hbefore

end IsBoundary

end Source.Mark

end Memberwise
