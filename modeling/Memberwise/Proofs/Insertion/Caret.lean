import Memberwise.Proofs.Constructor.Layout
import Memberwise.Proofs.Insertion.Point
import Memberwise.Proofs.Text.Caret
import Memberwise.Source.Lenient.Parser
import Memberwise.Source.Placement

/-!
# The caret behind an insertion

The caret comes to rest on the last character inserted. For a constructor that is the closing brace
of its `impl` block, which stands alone on its line behind the indent, six lines below the text that
the block was put behind. Neither the fields nor what is selected moves it, because the block always
takes five lines.
-/

namespace Memberwise

open Text (Caret byteSize lastLine lineFeeds unlines)

namespace Insertion

/-! ## The last character inserted -/

theorem caret_between (front opening : List Char) (c : Char) (back : List Char) :
    (between front (opening ++ [c]) back).caret = Caret.after (front ++ emptyLine ++ opening) := by
  rw [between, ← List.append_assoc, List.dropLast_concat]

theorem toList_text_between (front block back : List Char) :
    (between front block back).text.toList = front ++ emptyLine ++ block ++ back :=
  String.toList_ofList

theorem at?_caret_between (front opening : List Char) (c : Char) (back : List Char) :
    let insertion := between front (opening ++ [c]) back
    Caret.at? insertion.text.toList (byteSize (front ++ emptyLine ++ opening)) =
      some insertion.caret := by
  have htext : front ++ emptyLine ++ (opening ++ [c]) ++ back =
      (front ++ emptyLine ++ opening) ++ (c :: back) := by simp
  simp only [caret_between, toList_text_between, htext, Caret.at?, Text.splitAt?_byteSize,
    Option.map_some]

/-- The caret stands on the last character of the block, unless that ends a line. -/
theorem character?_caret_between {c : Char} (hc : c ≠ '\n') (front opening back : List Char) :
    let insertion := between front (opening ++ [c]) back
    insertion.caret.character? insertion.text.toList = some c := by
  have htext : front ++ emptyLine ++ (opening ++ [c]) ++ back =
      (front ++ emptyLine ++ opening) ++ (c :: back) := by simp
  simp only [caret_between, toList_text_between, htext]
  exact Caret.character?_after hc _ back

/-- Behind an empty line and more lines the caret is known from their number and from the last
one. -/
theorem after_lines (front : List Char) {lines : List (List Char)} {last : List Char}
    (hne : lines ≠ []) (hlines : ∀ line ∈ lines, '\n' ∉ line) (hlast : '\n' ∉ last) :
    Caret.after (front ++ emptyLine ++ (unlines lines ++ '\n' :: last)) =
      ⟨1 + lineFeeds front + (lines.length + 2), 1 + last.length⟩ := by
  have hjoined := Text.lineFeeds_unlines hne hlines
  have hbehind : lineFeeds ('\n' :: last) = 1 := by
    rw [lineFeeds, List.count_cons_self, List.count_eq_zero.mpr hlast]
  have hcount : lineFeeds (front ++ emptyLine ++ (unlines lines ++ '\n' :: last)) =
      lineFeeds front + (lines.length + 2) := by
    calc
      _ = lineFeeds front + 2 + (lineFeeds (unlines lines) + 1) := by
        rw [Text.lineFeeds_append, Text.lineFeeds_append, Text.lineFeeds_append, hbehind]
        rfl
      _ = lineFeeds front + (lines.length + 2) := by omega
  have hline : lastLine (front ++ emptyLine ++ (unlines lines ++ '\n' :: last)) = last := by
    rw [← List.append_assoc, Text.lastLine_append_lineFeed]
    simpa [lastLine] using Text.lastLine_append hlast []
  rw [Caret.after, hcount, hline, Caret.mk.injEq]
  omega

/-! ## Indented blocks -/

theorem toList_indentBlock {block : String} {lines : List (List Char)}
    (hblock : block.toList = unlines lines)
    (hlines : ∀ line ∈ lines, Constructor.IsBracketed line) (indent : String) :
    (indentBlock block indent).toList = unlines (lines.map (indent.toList ++ ·)) := by
  rw [indentBlock]
  split
  · rename_i hempty
    have hindent : indent.toList = [] := by simpa using hempty
    simp [hblock, hindent]
  · rw [String.toList_ofList, hblock, Constructor.indentLines_of_isBracketed hlines]

end Insertion

namespace Source.Located

/-- The block of a constructor: four lines, and then a brace behind the indent. -/
theorem exists_block_eq {declaration : Declaration} (hunbroken : declaration.Unbroken)
    (located : Located) (hindent : '\n' ∉ located.indent.toList) (selected : List Candidate) :
    ∃ lines, lines.length = 4 ∧ (∀ line ∈ lines, '\n' ∉ line) ∧
      (located.block (Generation.constructorFor declaration.analysis selected)).toList =
        unlines lines ++ '\n' :: (located.indent.toList ++ ['\x7d']) := by
  have hblock := Insertion.toList_indentBlock (declaration.toList_implBlock hunbroken selected)
    (declaration.isBracketed_blockLines hunbroken selected) located.indent
  obtain ⟨upper, hupper⟩ : ∃ upper, declaration.blockLines selected = upper ++ [['\x7d']] :=
    ⟨(declaration.blockLines selected).dropLast, rfl⟩
  have hlength : upper.length = 4 := by
    simpa [hupper] using declaration.length_blockLines selected
  have hne : upper.map (located.indent.toList ++ ·) ≠ [] :=
    List.ne_nil_of_length_pos (by simp [hlength])
  refine ⟨upper.map (located.indent.toList ++ ·), by simpa using hlength, fun line hline ↦ ?_, ?_⟩
  · obtain ⟨bare, hbare, rfl⟩ := List.mem_map.mp hline
    have hmem : bare ∈ declaration.blockLines selected := by simp [hupper, hbare]
    have hfree := (declaration.isBracketed_blockLines hunbroken selected bare hmem).lineFeed_not_mem
    simp [hindent, hfree]
  · rw [block, hblock, hupper, List.map_append, List.map_singleton, Text.unlines_concat hne]

/-- An insertion is made wherever the declaration ends, and its caret stands on the closing brace of
the block: six lines below the text that the block was put behind, and behind the indent. -/
theorem exists_insertion?_caret {σ : Type} {presenter : Presenter σ} {declaration : Declaration}
    {state next : σ} {built : Constructor}
    (hbuilt : declaration.generate presenter state = (.ok (.emitted built), next))
    (hunbroken : declaration.Unbroken) {source : String} {located : Located}
    (hstop : (Text.splitAt? located.stop.offset source.toList).isSome = true)
    (hindent : '\n' ∉ located.indent.toList) :
    ∃ point before after insertion lines,
      Insertion.point? source located.stop.offset = some point ∧
      Text.splitAt? point source.toList = some (before, after) ∧
      located.insertion? source built = some insertion ∧
      insertion.text.toList = before ++ ['\n', '\n'] ++ (located.block built).toList ++ after ∧
      (located.block built).toList = unlines lines ++ '\n' :: (located.indent.toList ++ ['\x7d']) ∧
      lines.length = 4 ∧ (∀ line ∈ lines, '\n' ∉ line) ∧
      Caret.at? insertion.text.toList
        (byteSize (before ++ ['\n', '\n'] ++ (located.block built).toList.dropLast)) =
          some insertion.caret ∧
      insertion.caret.character? insertion.text.toList = some '\x7d' ∧
      insertion.caret = ⟨1 + lineFeeds before + 6, 1 + located.indent.length⟩ := by
  obtain ⟨selected, -, rfl⟩ := Declaration.exists_of_generate_eq_emitted hbuilt
  obtain ⟨⟨front, back⟩, hcut⟩ := Option.isSome_iff_exists.mp hstop
  obtain ⟨point, before, after, hpoint, hsplit, hsplice⟩ := Insertion.exists_splice? hcut
  obtain ⟨lines, hlength, hlines, hblock⟩ := exists_block_eq hunbroken located hindent selected
  set built := Generation.constructorFor declaration.analysis selected
  have hconcat : (located.block built).toList =
      unlines lines ++ '\n' :: located.indent.toList ++ ['\x7d'] := by simpa using hblock
  have hne : lines ≠ [] := List.ne_nil_of_length_pos (by omega)
  refine ⟨point, before, after, _, lines, hpoint, hsplit, ?_, Insertion.toList_text_between _ _ _,
    hblock, hlength, hlines, ?_, ?_, ?_⟩
  · rw [insertion?, hpoint, Option.bind_some, hsplice]
  · rw [hconcat, List.dropLast_concat]
    exact Insertion.at?_caret_between before _ '\x7d' after
  · rw [hconcat]
    exact Insertion.character?_caret_between (by decide) before _ after
  · rw [hconcat, Insertion.caret_between, Insertion.after_lines before hne hlines hindent, hlength,
      String.length_toList]

/-- A generic struct with a comment behind it, indented and below a letter of two bytes, of which
the second field is chosen. -/
theorem exists_insertion?_caret_of_generic_struct :
    let source := "// é\n  struct S<T>(u8, Vec<\n    T>); // both\n"
    let declaration : Declaration :=
      ⟨"S", some ⟨"<T>", "<T>", none⟩, .tuple [⟨none, some "u8"⟩, ⟨none, some "Vec<\n    T>"⟩]⟩
    let located : Located := ⟨declaration, ⟨8, ⟨1, 2⟩⟩, ⟨37, ⟨2, 8⟩⟩, "  "⟩
    let presenter : Presenter Unit := fun _ _ ↦ (.ok (.chosen [1]), ())
    located ∈ all source ∧ ∃ built insertion,
      declaration.generate presenter () = (.ok (.emitted built), ()) ∧
      located.insertion? source built = some insertion ∧ insertion.caret = ⟨9, 3⟩ ∧
      insertion.caret.character? insertion.text.toList = some '\x7d' := by
  intro source declaration located presenter
  have hbuilt : declaration.generate presenter () = (.ok (.emitted _), ()) :=
    Declaration.generate_of_chosen (by decide) rfl (by decide)
  have hunbroken : declaration.Unbroken := by
    refine ⟨by decide, ?_, by decide⟩
    rintro generics ⟨⟩
    exact ⟨Text.over_ne_lineFeed_iff.mpr (by decide), Text.over_ne_lineFeed_iff.mpr (by decide),
      by simp⟩
  obtain ⟨point, before, after, insertion, lines, hpoint, hsplit, hinsertion, -, -, -, -, -,
    hcharacter, hcaret⟩ :=
    @exists_insertion?_caret _ _ _ _ _ _ hbuilt hunbroken source located (by decide +kernel)
      (by decide)
  refine ⟨by decide +kernel, _, insertion, hbuilt, hinsertion, hcaret.trans ?_, hcharacter⟩
  have hplace : Insertion.point? source 37 = some 45 := by decide +kernel
  obtain rfl : point = 45 := Option.some.inj (hpoint.symm.trans hplace)
  have hbefore : Text.splitAt? 45 source.toList =
      some ("// é\n  struct S<T>(u8, Vec<\n    T>); // both".toList, ['\n']) := by decide +kernel
  obtain ⟨rfl, -⟩ := Prod.mk.inj (Option.some.inj (hsplit.symm.trans hbefore))
  decide

end Source.Located

end Memberwise
