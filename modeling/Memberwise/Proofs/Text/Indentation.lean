import Memberwise.Proofs.Text.Characters
import Memberwise.Proofs.Text.Lines

/-!
# Indents that can be taken off again

An indent is put before the pieces of a text that are not empty, where the pieces are what stands
between line feeds. Its lines are read first, and reading keeps the pieces unless one of them ends
with a carriage return or nothing follows the last line feed. Such a text is taken apart and put
together without loss, so the indent can be taken off again, piece by piece.
-/

namespace Memberwise.Text

/-! ## Pieces -/

/-- What stands between the line feeds of a text. -/
def pieces (text : List Char) : List (List Char) := splitAtEach (· == '\n') text

@[simp] theorem pieces_nil : pieces [] = [[]] := rfl

theorem pieces_ne_nil (text : List Char) : pieces text ≠ [] := splitAtEach_ne_nil _ text

theorem lineFeed_not_mem_of_mem_pieces {text piece : List Char} (h : piece ∈ pieces text) :
    '\n' ∉ piece := by
  intro hmem
  have hfree := not_isSeparator_of_mem_splitAtEach h hmem
  simp at hfree

theorem unlines_pieces (text : List Char) : unlines (pieces text) = text := by
  rw [pieces, splitAtEach_eq_splitOnP, unlines]
  exact List.intercalate_splitOn '\n'

theorem pieces_unlines {lines : List (List Char)} (hne : lines ≠ [])
    (hfree : ∀ line ∈ lines, '\n' ∉ line) : pieces (unlines lines) = lines := by
  rw [pieces, splitAtEach_eq_splitOnP, unlines]
  exact List.splitOn_intercalate '\n' hfree hne

/-- Reading the lines of the text gives its pieces. -/
structure IsReadable (text : List Char) : Prop where
  carriageReturn : ∀ piece ∈ pieces text, piece.getLast? ≠ some '\r'
  lineFeed : text.getLast? ≠ some '\n'

theorem isReadable_of_not_mem {text : List Char} (hreturn : '\r' ∉ text)
    (hlast : text.getLast? ≠ some '\n') : IsReadable text where
  carriageReturn _ hpiece hend :=
    hreturn (subset_of_mem_splitAtEach hpiece (List.mem_of_getLast? hend))
  lineFeed := hlast

/-- Only a line feed at the end leaves an empty piece there. -/
theorem IsReadable.getLast?_pieces_ne {text : List Char} (h : IsReadable text) (hne : text ≠ []) :
    (pieces text).getLast? ≠ some [] := by
  intro hlast
  obtain ⟨earlier, hpieces⟩ := List.getLast?_eq_some_iff.mp hlast
  have htext := unlines_pieces text
  rw [hpieces] at htext
  by_cases hearlier : earlier = []
  · subst hearlier
    exact hne htext.symm
  · rw [unlines_concat hearlier] at htext
    exact h.lineFeed (by rw [← htext, List.getLast?_concat])

theorem IsReadable.lines_eq {text : List Char} (h : IsReadable text) (hne : text ≠ []) :
    lines text = pieces text := by
  have hpieces : ∀ piece ∈ pieces text, IsLine piece := fun piece hpiece ↦
    ⟨lineFeed_not_mem_of_mem_pieces hpiece, h.carriageReturn piece hpiece⟩
  calc
    lines text = lines (unlines (pieces text)) := by rw [unlines_pieces]
    _ = pieces text := lines_unlines hpieces (h.getLast?_pieces_ne hne)

/-! ## Putting an indent on -/

theorem lineFeed_not_mem_indentLine {indent line : List Char} (hindent : '\n' ∉ indent)
    (hline : '\n' ∉ line) : '\n' ∉ indentLine indent line := by
  rw [indentLine]
  split
  · exact List.not_mem_nil
  · simp [hindent, hline]

theorem indentLine_eq_nil_iff {indent line : List Char} :
    indentLine indent line = [] ↔ line = [] := by
  rw [indentLine]
  split <;> simp_all

theorem pieces_indentLines {indent text : List Char} (hindent : '\n' ∉ indent)
    (h : IsReadable text) :
    pieces (indentLines indent text) = (pieces text).map (indentLine indent) := by
  by_cases hne : text = []
  · subst hne
    rfl
  · have hmapped : (pieces text).map (indentLine indent) ≠ [] := by
      simpa using pieces_ne_nil text
    rw [indentLines, h.lines_eq hne]
    refine pieces_unlines hmapped fun line hline ↦ ?_
    obtain ⟨piece, hpiece, rfl⟩ := List.mem_map.mp hline
    exact lineFeed_not_mem_indentLine hindent (lineFeed_not_mem_of_mem_pieces hpiece)

/-! ## Taking it off -/

/-- A piece without an indent before it. -/
def unindentLine (indent line : List Char) : List Char :=
  if line.isEmpty then [] else line.drop indent.length

/-- A text without an indent before its pieces, empty ones apart. -/
def unindentLines (indent text : List Char) : List Char :=
  unlines ((pieces text).map (unindentLine indent))

theorem unindentLine_indentLine (indent line : List Char) :
    unindentLine indent (indentLine indent line) = line := by
  rw [unindentLine, indentLine]
  cases line with
  | nil => rfl
  | cons c rest => simp

/-- The text is the block with an indent before every piece that is not empty. -/
structure Indented (indent block text : List Char) : Prop where
  length_eq : (pieces text).length = (pieces block).length
  empty_iff : ∀ i : Nat, (pieces text)[i]? = some [] ↔ (pieces block)[i]? = some []
  indented : ∀ line ∈ pieces text, line ≠ [] → indent <+: line
  unindent : unindentLines indent text = block

theorem Indented.of_pieces {indent block text : List Char}
    (h : pieces text = (pieces block).map (indentLine indent)) : Indented indent block text where
  length_eq := by rw [h, List.length_map]
  empty_iff i := by simp [h, indentLine_eq_nil_iff]
  indented := by
    intro line hline hne
    rw [h] at hline
    obtain ⟨piece, -, rfl⟩ := List.mem_map.mp hline
    rw [ne_eq, indentLine_eq_nil_iff] at hne
    rw [indentLine, if_neg (by simpa using hne)]
    exact List.prefix_append indent piece
  unindent := by
    have hback : unindentLine indent ∘ indentLine indent = id :=
      funext fun line ↦ unindentLine_indentLine indent line
    rw [unindentLines, h, List.map_map, hback, List.map_id, unlines_pieces]

theorem indented_indentLines {indent block : List Char} (hindent : '\n' ∉ indent)
    (h : IsReadable block) : Indented indent block (indentLines indent block) :=
  .of_pieces (pieces_indentLines hindent h)

/-- Without an indent nothing changes, whether the block can be read or not. -/
theorem indented_self (block : List Char) : Indented [] block block := by
  apply Indented.of_pieces
  have hsame : indentLine [] = id := by
    funext line
    cases line <;> rfl
  rw [hsame, List.map_id]

end Memberwise.Text
