import Memberwise.Proofs.Text.Runs
import Memberwise.Text.Line
import Memberwise.Text.Position

/-!
# Counting lines

The lines of a text are cut off one by one, each with the line feed that ends it. So there is a line
for every line feed, and one more if anything follows the last of them.
-/

namespace Memberwise.Text

theorem splitAtEach_eq_singleton {text : List Char} (h : '\n' ∉ text) :
    splitAtEach (· == '\n') text = [text] := by
  rw [splitAtEach_eq_splitOnP]
  exact List.splitOnP_eq_singleton fun c hc ↦ beq_false_of_ne fun heq ↦ h (heq ▸ hc)

theorem splitAtEach_append_lineFeed {front : List Char} (h : '\n' ∉ front) (back : List Char) :
    splitAtEach (· == '\n') (front ++ '\n' :: back) = front :: splitAtEach (· == '\n') back := by
  have hfront : ∀ c ∈ front, (c == '\n') = false :=
    fun c hc ↦ beq_false_of_ne fun heq ↦ h (heq ▸ hc)
  simp only [splitAtEach_eq_splitOnP]
  exact List.splitOnP_append_cons_of_forall_mem hfront '\n' (beq_self_eq_true '\n') back

/-- The first line is cut off with its line feed. -/
theorem lines_append_lineFeed {front : List Char} (h : '\n' ∉ front) (back : List Char) :
    lines (front ++ '\n' :: back) = dropCarriageReturn front :: lines back := by
  obtain ⟨piece, pieces, heq⟩ := List.exists_cons_of_ne_nil (splitAtEach_ne_nil (· == '\n') back)
  rw [lines, lines, splitAtEach_append_lineFeed h, heq]
  rfl

theorem lines_of_not_mem {text : List Char} (h : '\n' ∉ text) :
    lines text = if text.isEmpty then [] else [text] := by
  rw [lines, splitAtEach_eq_singleton h]
  rfl

theorem length_lines (text : List Char) :
    (lines text).length =
      lineFeeds text + if text.getLast?.all (· == '\n') then 0 else 1 := by
  induction hcount : lineFeeds text generalizing text with
  | zero =>
    have hfree : '\n' ∉ text := List.count_eq_zero.mp hcount
    rw [lines_of_not_mem hfree]
    cases hlast : text.getLast? with
    | none => simp [List.getLast?_eq_none_iff.mp hlast]
    | some c =>
      have hne : c ≠ '\n' := fun heq ↦ hfree (heq ▸ List.mem_of_getLast? hlast)
      have htext : text ≠ [] := by
        rintro rfl
        simp at hlast
      simp [htext, hne]
  | succ count ih =>
    have hmem : '\n' ∈ text := List.count_pos_iff.mp (by rw [← lineFeeds, hcount]; omega)
    obtain ⟨front, back, rfl, hfront⟩ := List.eq_append_cons_of_mem hmem
    have hback : lineFeeds back = count := by
      simpa [lineFeeds, List.count_eq_zero.mpr hfront] using hcount
    have hlast : (front ++ '\n' :: back).getLast?.all (· == '\n') =
        back.getLast?.all (· == '\n') := by
      rw [List.getLast?_append, List.getLast?_cons]
      cases back.getLast? <;> rfl
    rw [lines_append_lineFeed hfront, List.length_cons, ih back hback, hlast]
    omega

/-! ## Lines joined -/

/-- Reading lines gives the line back as it is: no line end is in it, and no part of one at its
end. -/
structure IsLine (line : List Char) : Prop where
  lineFeed_not_mem : '\n' ∉ line
  getLast?_ne : line.getLast? ≠ some '\r'

theorem IsLine.dropCarriageReturn_eq {line : List Char} (h : IsLine line) :
    dropCarriageReturn line = line := by
  rw [dropCarriageReturn, if_neg h.getLast?_ne]

theorem unlines_cons {others : List (List Char)} (h : others ≠ []) (piece : List Char) :
    unlines (piece :: others) = piece ++ '\n' :: unlines others := by
  obtain ⟨next, rest, rfl⟩ := List.exists_cons_of_ne_nil h
  rw [unlines, List.intercalate_cons_cons, List.append_assoc]
  rfl

theorem unlines_concat {pieces : List (List Char)} (h : pieces ≠ []) (last : List Char) :
    unlines (pieces ++ [last]) = unlines pieces ++ '\n' :: last := by
  induction pieces with
  | nil => exact absurd rfl h
  | cons piece others ih =>
    by_cases hothers : others = []
    · subst hothers
      rw [List.singleton_append, unlines_cons (List.cons_ne_nil last [])]
      simp [unlines]
    · calc
        unlines (piece :: others ++ [last]) = piece ++ '\n' :: unlines (others ++ [last]) :=
          unlines_cons (by simp) piece
        _ = piece ++ '\n' :: unlines others ++ '\n' :: last := by
          rw [ih hothers, List.append_assoc, List.cons_append]
        _ = unlines (piece :: others) ++ '\n' :: last := by rw [unlines_cons hothers]

/-- Lines that were joined are read again, unless an empty one comes last. -/
theorem lines_unlines {pieces : List (List Char)} (hpieces : ∀ piece ∈ pieces, IsLine piece)
    (hlast : pieces.getLast? ≠ some []) : lines (unlines pieces) = pieces := by
  induction pieces with
  | nil => rfl
  | cons piece others ih =>
    have hpiece := hpieces piece List.mem_cons_self
    have hothers := fun other hother ↦ hpieces other (List.mem_cons_of_mem piece hother)
    cases others with
    | nil =>
      have hne : piece ≠ [] := fun heq ↦ hlast (by rw [heq]; rfl)
      rw [unlines, List.intercalate_singleton, lines_of_not_mem hpiece.lineFeed_not_mem,
        if_neg (by simpa using hne)]
    | cons next others =>
      rw [unlines_cons (List.cons_ne_nil next others),
        lines_append_lineFeed hpiece.lineFeed_not_mem, hpiece.dropCarriageReturn_eq,
        ih hothers (by simpa using hlast)]

theorem indentLines_unlines {pieces : List (List Char)} (indent : List Char)
    (hpieces : ∀ piece ∈ pieces, IsLine piece) (hlast : pieces.getLast? ≠ some []) :
    indentLines indent (unlines pieces) = unlines (pieces.map (indentLine indent)) := by
  rw [indentLines, lines_unlines hpieces hlast]

end Memberwise.Text
