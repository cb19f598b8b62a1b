import Memberwise.Proofs.Source.Mark
import Memberwise.Proofs.Text.Lines

/-!
# Carets and lines

A caret is a line and a column, and stands on the character that it counts to. The caret behind a
text that goes on is on the character that follows, whatever precedes it. Behind joined lines it is
known from their number and from the last of them. Later offsets of a text have later carets, so
that no two offsets share one.
-/

namespace Memberwise.Text

/-! ## Counting in joined lines -/

theorem lineFeeds_unlines {pieces : List (List Char)} (hne : pieces ≠ [])
    (hfree : ∀ piece ∈ pieces, '\n' ∉ piece) : lineFeeds (unlines pieces) + 1 = pieces.length := by
  induction pieces with
  | nil => exact absurd rfl hne
  | cons piece others ih =>
    have hpiece := lineFeeds_eq_zero (hfree piece List.mem_cons_self)
    cases others with
    | nil => simpa [unlines] using hpiece
    | cons next others =>
      have hothers := ih (List.cons_ne_nil next others)
        fun other hother ↦ hfree other (List.mem_cons_of_mem piece hother)
      have hfeed : lineFeeds ('\n' :: unlines (next :: others)) =
          lineFeeds (unlines (next :: others)) + 1 := List.count_cons_self
      rw [unlines_cons (List.cons_ne_nil next others), lineFeeds_append, hpiece, hfeed,
        List.length_cons, ← hothers]
      omega

theorem lastLine_append_lineFeed (front back : List Char) :
    lastLine (front ++ '\n' :: back) = lastLine back := by
  rw [lastLine, lastLine, List.reverse_append, List.reverse_cons, List.append_assoc,
    List.takeWhile_append]
  split
  · rename_i hall
    have hback : back.reverse.takeWhile (· ≠ '\n') = back.reverse :=
      (List.takeWhile_prefix _).eq_of_length hall
    rw [hback]
    simp
  · rfl

/-! ## The character at a caret -/

/-- What precedes the first line feed goes to the first piece. -/
theorem splitAtEach_append_of_not_mem {front : List Char} (h : '\n' ∉ front) (back : List Char) :
    splitAtEach (· == '\n') (front ++ back) =
      (splitAtEach (· == '\n') back).modifyHead (front ++ ·) := by
  induction front with
  | nil =>
    rw [List.nil_append]
    cases splitAtEach (· == '\n') back <;> rfl
  | cons c rest ih =>
    rw [List.mem_cons, not_or] at h
    simp only [splitAtEach_eq_splitOnP] at ih ⊢
    rw [List.cons_append, List.splitOnP_cons_eq_if_modifyHead, if_neg (by simpa using Ne.symm h.1),
      ih h.2, List.modifyHead_modifyHead]
    rfl

namespace Caret

/-- The character that a caret stands on, if it stands on a line and not behind its end. -/
def character? (caret : Caret) (text : List Char) : Option Char :=
  match caret with
  | ⟨line + 1, column + 1⟩ => (splitAtEach (· == '\n') text)[line]?.bind (·[column]?)
  | _ => none

/-- The caret behind a text stands on what follows it. -/
theorem character?_after {c : Char} (hc : c ≠ '\n') (front back : List Char) :
    (after front).character? (front ++ c :: back) = some c := by
  induction hcount : lineFeeds front generalizing front with
  | zero =>
    have hfree : '\n' ∉ front := List.count_eq_zero.mp hcount
    have hline : lastLine front = front := by simpa [lastLine] using lastLine_append hfree []
    obtain ⟨piece, pieces, hback⟩ :=
      List.exists_cons_of_ne_nil (splitAtEach_ne_nil (· == '\n') back)
    have hsplit : splitAtEach (· == '\n') (front ++ c :: back) =
        (front ++ c :: piece) :: pieces := by
      rw [splitAtEach_append_of_not_mem hfree, splitAtEach, if_neg (by simpa using hc), hback]
      rfl
    simp [after, character?, hcount, hline, hsplit]
  | succ count ih =>
    have hmem : '\n' ∈ front := List.count_pos_iff.mp (by rw [← lineFeeds, hcount]; omega)
    obtain ⟨line, rest, rfl, hline⟩ := List.eq_append_cons_of_mem hmem
    have hrest : lineFeeds rest = count := by
      simpa [lineFeeds, List.count_eq_zero.mpr hline] using hcount
    have hsplit : splitAtEach (· == '\n') (line ++ '\n' :: rest ++ c :: back) =
        line :: splitAtEach (· == '\n') (rest ++ c :: back) := by
      rw [List.append_assoc, List.cons_append, splitAtEach_append_lineFeed hline]
    have hbehind := ih rest hrest
    rw [after, hrest] at hbehind
    rw [after, hcount, lastLine_append_lineFeed]
    simp only [character?, hsplit, List.getElem?_cons_succ] at hbehind ⊢
    exact hbehind

/-! ## The order of carets -/

/-- Carets are ordered by line, then by column. -/
protected def lt (caret other : Caret) : Prop :=
  caret.line < other.line ∨ caret.line = other.line ∧ caret.column < other.column

instance : LT Caret := ⟨Caret.lt⟩

theorem lt_irrefl (caret : Caret) : ¬ caret < caret := by
  rintro (hline | ⟨-, hcolumn⟩)
  · exact Nat.lt_irrefl _ hline
  · exact Nat.lt_irrefl _ hcolumn

/-- Behind more text there is a later caret: on a later line if the text has a line feed, and
further right if it has none. -/
theorem after_lt_after_append (front : List Char) {back : List Char} (h : back ≠ []) :
    after front < after (front ++ back) := by
  by_cases hfeed : '\n' ∈ back
  · apply Or.inl
    have hpos := lineFeeds_pos hfeed
    simp only [after, lineFeeds_append]
    omega
  · apply Or.inr
    constructor
    · simp [after, lineFeeds_append, lineFeeds_eq_zero hfeed]
    · have hpos := List.length_pos_iff.mpr h
      simp only [after, lastLine_append hfeed, List.length_append]
      omega

theorem at?_eq_some_iff {text : List Char} {offset : Nat} {caret : Caret} :
    at? text offset = some caret ↔
      ∃ front, front <+: text ∧ byteSize front = offset ∧ after front = caret := by
  rw [at?, Option.map_eq_some_iff]
  constructor
  · rintro ⟨⟨front, back⟩, hcut, hcaret⟩
    have hparts := append_eq_of_splitAt?_eq_some hcut
    exact ⟨front, ⟨back, hparts.1⟩, hparts.2, hcaret⟩
  · rintro ⟨front, ⟨back, rfl⟩, rfl, hcaret⟩
    exact ⟨(front, back), splitAt?_byteSize front back, hcaret⟩

/-- A later offset has a later caret. -/
theorem at?_lt_at? {text : List Char} {early late : Nat} {first second : Caret}
    (hfirst : at? text early = some first) (hsecond : at? text late = some second)
    (h : early < late) : first < second := by
  obtain ⟨front, hfront, rfl, rfl⟩ := at?_eq_some_iff.mp hfirst
  obtain ⟨other, hother, rfl, rfl⟩ := at?_eq_some_iff.mp hsecond
  obtain ⟨back, rfl⟩ := prefix_of_byteSize_le hfront hother h.le
  apply after_lt_after_append
  rintro rfl
  simp at h

/-- Different offsets never share a caret. -/
theorem at?_injective {text : List Char} {offset other : Nat} {caret : Caret}
    (hcaret : at? text offset = some caret) (hother : at? text other = some caret) :
    offset = other := by
  rcases Nat.lt_trichotomy offset other with hlt | heq | hgt
  · exact absurd (at?_lt_at? hcaret hother hlt) (lt_irrefl caret)
  · exact heq
  · exact absurd (at?_lt_at? hother hcaret hgt) (lt_irrefl caret)

end Caret

end Memberwise.Text
