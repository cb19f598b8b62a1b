import Memberwise.Proofs.Insertion.Caret
import Memberwise.Proofs.Text.Indentation

/-!
# Blocks that can be read back

A block is indented where it is inserted, and the function in it was indented before that, when the
block was put around it. Neither step loses anything: from a text that can be read line by line the
indent can be taken off again. For a constructor the indent itself is seen in the last line, where
nothing but a brace follows it, so the block and the function can both be read off the text that was
inserted.
-/

namespace Memberwise

open Text (Indented indentLine indentLines pieces unindentLines unlines)

namespace Constructor

/-! ## Lines with a bracket at the end -/

section Bracketed

variable {lines : List (List Char)} (hne : lines ≠ []) (hlines : ∀ line ∈ lines, IsBracketed line)
include hne hlines

theorem pieces_of_isBracketed : pieces (unlines lines) = lines :=
  Text.pieces_unlines hne fun line hline ↦ (hlines line hline).lineFeed_not_mem

variable {indent : List Char} (hindent : '\n' ∉ indent)
include hindent

theorem pieces_indented_of_isBracketed :
    pieces (unlines (lines.map (indent ++ ·))) = lines.map (indent ++ ·) := by
  refine pieces_of_isBracketed (by simpa using hne) fun line hline ↦ ?_
  obtain ⟨bare, hbare, rfl⟩ := List.mem_map.mp hline
  exact (hlines bare hbare).append hindent

theorem indented_of_isBracketed :
    Indented indent (unlines lines) (unlines (lines.map (indent ++ ·))) := by
  have hmapped : lines.map (indentLine indent) = lines.map (indent ++ ·) :=
    List.map_congr_left fun line hline ↦ (hlines line hline).indentLine_eq indent
  apply Indented.of_pieces
  rw [pieces_indented_of_isBracketed hne hlines hindent, pieces_of_isBracketed hne hlines, hmapped]

end Bracketed

/-! ## Blocks around any text -/

theorem exists_indented_implBlockText (name : String) (generics : Option Generics)
    {function : String} (hreadable : Text.IsReadable function.toList) :
    ∃ body : String, implBlockText name generics function =
        implHeader name generics ++ " \x7b" ++ "\n" ++ body ++ "\n" ++ "\x7d" ∧
      Indented "    ".toList function.toList body.toList := by
  set body := indentLines "    ".toList function.toList with hbody
  have hopening : " \x7b\n" = " \x7b" ++ "\n" := rfl
  have hclosing : "\n\x7d" = "\n" ++ "\x7d" := rfl
  have hspaces : '\n' ∉ "    ".toList := by decide
  have htext : (String.ofList body).toList = body := String.toList_ofList
  refine ⟨String.ofList body, ?_, ?_⟩
  · rw [implBlockText, hopening, hclosing, ← hbody]
    simp only [String.append_assoc]
  · rw [htext]
    exact Text.indented_indentLines hspaces hreadable

end Constructor

namespace Insertion

theorem indented_indentBlock {block indent : String} (hreadable : Text.IsReadable block.toList)
    (hindent : '\n' ∉ indent.toList) :
    Indented indent.toList block.toList (indentBlock block indent).toList := by
  rw [indentBlock]
  split
  · rename_i hempty
    have hnone : indent.toList = [] := by simpa using hempty
    rw [hnone]
    exact Text.indented_self block.toList
  · rw [String.toList_ofList]
    exact Text.indented_indentLines hindent hreadable

/-! ## Reading a constructor back -/

/-- What stands before the last character of the last line. -/
def closingIndent (text : List Char) : List Char := ((pieces text).getLastD []).dropLast

/-- The text without the indent of its last line. -/
def bareBlock (text : List Char) : List Char := unindentLines (closingIndent text) text

/-- What stands between the first line and the last one, four spaces to the left. -/
def bareFunction (text : List Char) : List Char :=
  unindentLines "    ".toList (unlines (pieces (bareBlock text)).tail.dropLast)

section ReadBack

variable {declaration : Declaration} (hunbroken : declaration.Unbroken) (selected : List Candidate)
include hunbroken

theorem pieces_implBlock :
    pieces (Generation.constructorFor declaration.analysis selected).implBlock.toList =
      declaration.blockLines selected := by
  have hne : declaration.blockLines selected ≠ [] := List.cons_ne_nil _ _
  rw [declaration.toList_implBlock hunbroken selected]
  have hbracketed := declaration.isBracketed_blockLines hunbroken selected
  exact Constructor.pieces_of_isBracketed hne hbracketed

theorem pieces_function :
    pieces (Generation.constructorFor declaration.analysis selected).function.toList =
      Constructor.functionLines declaration.name declaration.body.shape declaration.body.candidates
        selected := by
  have hfunction : (Generation.constructorFor declaration.analysis selected).function.toList =
      unlines (Constructor.functionLines declaration.name declaration.body.shape
        declaration.body.candidates selected) :=
    Constructor.toList_functionText_eq_unlines _ _ _ selected
  have hlines := Constructor.isBracketed_functionLines hunbroken selected
  rw [hfunction]
  exact Constructor.pieces_of_isBracketed (List.cons_ne_nil _ _) hlines

variable {indent : String} (hindent : '\n' ∉ indent.toList)
include hindent

theorem closingIndent_indentBlock :
    closingIndent (indentBlock (Generation.constructorFor declaration.analysis selected).implBlock
      indent).toList = indent.toList := by
  have hlines := declaration.isBracketed_blockLines hunbroken selected
  have hblock := declaration.toList_implBlock hunbroken selected
  obtain ⟨upper, hupper⟩ : ∃ upper, declaration.blockLines selected = upper ++ [['\x7d']] :=
    ⟨(declaration.blockLines selected).dropLast, rfl⟩
  have hne : declaration.blockLines selected ≠ [] := List.cons_ne_nil _ _
  rw [closingIndent, toList_indentBlock hblock hlines indent,
    Constructor.pieces_indented_of_isBracketed hne hlines hindent, hupper]
  simp

theorem bareBlock_indentBlock :
    bareBlock (indentBlock (Generation.constructorFor declaration.analysis selected).implBlock
        indent).toList =
      (Generation.constructorFor declaration.analysis selected).implBlock.toList := by
  have hne : declaration.blockLines selected ≠ [] := List.cons_ne_nil _ _
  have hlines := declaration.isBracketed_blockLines hunbroken selected
  have hblock := declaration.toList_implBlock hunbroken selected
  rw [bareBlock, closingIndent_indentBlock hunbroken selected hindent,
    toList_indentBlock hblock hlines indent, hblock]
  exact (Constructor.indented_of_isBracketed hne hlines hindent).unindent

theorem bareFunction_indentBlock :
    bareFunction (indentBlock (Generation.constructorFor declaration.analysis selected).implBlock
        indent).toList =
      (Generation.constructorFor declaration.analysis selected).function.toList := by
  have hlines := pieces_function hunbroken selected
  set function := (Generation.constructorFor declaration.analysis selected).function.toList
  have hinner : (declaration.blockLines selected).tail.dropLast =
      (pieces function).map ("    ".toList ++ ·) := by
    rw [Declaration.blockLines, Constructor.implBlockLines, List.tail_cons, List.dropLast_concat,
      hlines]
  have hbracketed : ∀ line ∈ pieces function, Constructor.IsBracketed line := by
    rw [hlines]
    exact Constructor.isBracketed_functionLines hunbroken selected
  have hspaces : '\n' ∉ "    ".toList := by decide
  have hindented :=
    Constructor.indented_of_isBracketed (Text.pieces_ne_nil function) hbracketed hspaces
  rw [bareFunction, bareBlock_indentBlock hunbroken selected hindent,
    pieces_implBlock hunbroken selected, hinner, hindented.unindent, Text.unlines_pieces]

end ReadBack

/-- Indenting loses nothing, of a block as of the function in it; and of a constructor, which takes
three lines and in its block five, both can be read off the text that is inserted. -/
theorem indentBlock_loses_nothing :
    (∀ block indent : String, '\r' ∉ block.toList → block.toList.getLast? ≠ some '\n' →
      '\n' ∉ indent.toList →
      Indented indent.toList block.toList (indentBlock block indent).toList) ∧
    (∀ (name : String) (generics : Option Generics), ∃ header : String, ∀ function : String,
      '\r' ∉ function.toList → function.toList.getLast? ≠ some '\n' →
      ∃ body : String, Constructor.implBlockText name generics function =
          header ++ " \x7b" ++ "\n" ++ body ++ "\n" ++ "\x7d" ∧
        Indented "    ".toList function.toList body.toList) ∧
    (∀ declaration : Declaration, declaration.Unbroken →
      ∀ selected, selected ⊆ declaration.analysis.candidates →
      ∃ built, Generation.constructor? declaration.analysis selected = some built ∧
        (pieces built.function.toList).length = 3 ∧ (pieces built.implBlock.toList).length = 5 ∧
        ∀ indent : String, '\n' ∉ indent.toList →
          bareBlock (indentBlock built.implBlock indent).toList = built.implBlock.toList ∧
          bareFunction (indentBlock built.implBlock indent).toList = built.function.toList) := by
  refine ⟨fun block indent hreturn hlast hindent ↦ ?_, fun name generics ↦ ?_,
    fun declaration hunbroken selected hselected ↦ ?_⟩
  · exact indented_indentBlock (Text.isReadable_of_not_mem hreturn hlast) hindent
  · refine ⟨Constructor.implHeader name generics, fun function hreturn hlast ↦ ?_⟩
    exact Constructor.exists_indented_implBlockText name generics
      (Text.isReadable_of_not_mem hreturn hlast)
  · refine ⟨_, Generation.constructor?_of_subset hselected, ?_, ?_, fun indent hindent ↦ ⟨?_, ?_⟩⟩
    · rw [pieces_function hunbroken selected]
      rfl
    · rw [pieces_implBlock hunbroken selected]
      rfl
    · exact bareBlock_indentBlock hunbroken selected hindent
    · exact bareFunction_indentBlock hunbroken selected hindent

/-- A block with an empty line in it, a function of two lines, and a generic struct of which the
second field is chosen. -/
theorem indentBlock_loses_nothing_of_generic_struct :
    let block := "impl S \x7b\n\n\x7d"
    let function := "fn f() \x7b\n\x7d"
    let declaration : Declaration :=
      ⟨"S", some ⟨"<T>", "<T>", none⟩, .tuple [⟨none, some "u8"⟩, ⟨none, some "T"⟩]⟩
    let selected := declaration.analysis.candidates.drop 1
    Indented "  ".toList block.toList (indentBlock block "  ").toList ∧
    (∃ header body : String,
      Constructor.implBlockText "S" none function =
        header ++ " \x7b" ++ "\n" ++ body ++ "\n" ++ "\x7d" ∧
      Indented "    ".toList function.toList body.toList) ∧
    ∃ built, Generation.constructor? declaration.analysis selected = some built ∧
      bareBlock (indentBlock built.implBlock "\t").toList = built.implBlock.toList ∧
      bareFunction (indentBlock built.implBlock "\t").toList = built.function.toList := by
  intro block function declaration selected
  have hunbroken : declaration.Unbroken := by
    refine ⟨by decide, ?_, by decide⟩
    rintro generics ⟨⟩
    exact ⟨Text.over_ne_lineFeed_iff.mpr (by decide), Text.over_ne_lineFeed_iff.mpr (by decide),
      by simp⟩
  obtain ⟨hblock, hwrapped, hemitted⟩ := indentBlock_loses_nothing
  obtain ⟨header, hfunction⟩ := hwrapped "S" none
  obtain ⟨body, hbody⟩ := hfunction function (by decide) (by decide)
  obtain ⟨built, hbuilt, -, -, hback⟩ :=
    hemitted declaration hunbroken selected (List.drop_subset 1 _)
  exact ⟨hblock block "  " (by decide) (by decide) (by decide), ⟨header, body, hbody⟩, built,
    hbuilt, hback "\t" (by decide)⟩

end Insertion

end Memberwise
