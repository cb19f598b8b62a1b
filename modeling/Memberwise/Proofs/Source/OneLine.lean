import Memberwise.Candidate
import Memberwise.Proofs.Source.Uncommented
import Memberwise.Source.Lenient.Parser

/-!
# Source text on one line

The type of a field, a generic parameter and a `where` clause are shown on one line, with the
comments in them. A block comment does no harm there, but the line feed that ends a line comment
becomes a space like any other blank.

The main statement: what is shown has the words of the source up to its first line comment, and the
words behind the line of that comment are lost to it.
-/

namespace Memberwise

theorem toList_oneLineType {text : String} (h : Text.words text.toList ≠ []) :
    (oneLineType (some text)).toList = Text.collapse text.toList := by
  have hne : Text.collapse text.toList ≠ [] := mt Text.collapse_eq_nil_iff.mp h
  simp [oneLineType, hne]

namespace Source

/-- A part of the source, and the line that shows it. -/
inductive OnOneLine : List Char → List Char → Prop where
  /-- The type of a field. -/
  | type (text : String) (h : Text.words text.toList ≠ []) :
      OnOneLine text.toList (oneLineType (some text)).toList
  /-- Any other text, as that of a generic parameter or of a `where` clause. -/
  | collapsed (text : String) : OnOneLine text.toList (collapseWhitespace text).toList

theorem OnOneLine.eq_collapse {source shown : List Char} (h : OnOneLine source shown) :
    shown = Text.collapse source := by
  cases h with
  | type text h => exact toList_oneLineType h
  | collapsed text => rw [collapseWhitespace, String.toList_ofList]

/-! Generic parameters and `where` clauses are shown in this way, whatever the tree is. -/

theorem SourceFile.onOneLine_of_withoutDefault? {source : SourceFile} {parameter : Node}
    {shown : String} (h : source.withoutDefault? parameter = some shown) :
    ∃ stop text, source.between? parameter.start stop = some text ∧
      OnOneLine text.toList shown.toList := by
  obtain ⟨text, htext, rfl⟩ := Option.map_eq_some_iff.mp h
  exact ⟨_, text, htext, .collapsed text⟩

theorem SourceFile.onOneLine_of_whereClause? {source : SourceFile} {node : Node} {shown : String}
    (h : source.whereClause? node = some (some shown)) :
    ∃ clause ∈ node.children, ∃ text, source.nodeText? clause = some text ∧
      OnOneLine text.toList shown.toList := by
  rw [whereClause?] at h
  split at h
  · simp at h
  · rename_i clause hclause
    obtain ⟨text, htext, hshown⟩ := Option.map_eq_some_iff.mp h
    obtain rfl := Option.some.inj hshown
    exact ⟨clause, List.mem_of_mem_filter (List.mem_of_find?_eq_some hclause), text, htext,
      .collapsed text⟩

/-- One line shows the words of the source up to the end of the line of the first line comment. So
it shows all of them exactly if none stands behind that line. -/
theorem OnOneLine.visibleWords_iff {source shown : List Char} (h : OnOneLine source shown) :
    visibleWords source = visibleWords shown ++ visibleWords (behindLineComment source) ∧
      (visibleWords shown = visibleWords source ↔
        visibleWords (behindLineComment source) = []) := by
  rw [h.eq_collapse]
  exact ⟨visibleWords_eq_append source, visibleWords_collapse_iff source⟩

/-- Without two slashes in a row nothing is lost. -/
theorem OnOneLine.visibleWords_eq {source shown : List Char} (h : OnOneLine source shown)
    (hslashes : ¬ ['/', '/'] <:+: source) : visibleWords shown = visibleWords source := by
  rw [h.eq_collapse, visibleWords_collapse hslashes]

/-- A parameter that loses its last words to a line comment, and a type with a block comment. -/
theorem OnOneLine.visibleWords_iff_of_comments :
    visibleWords "T: Clone // copies\n    + Copy ".toList =
        visibleWords "T: Clone // copies + Copy".toList ++ ["+".toList, "Copy".toList] ∧
      visibleWords (oneLineType (some "Vec<\n    /* item */ u8>")).toList =
        visibleWords "Vec<\n    /* item */ u8>".toList := by
  have hshown : (collapseWhitespace "T: Clone // copies\n    + Copy ").toList =
      "T: Clone // copies + Copy".toList := by
    decide +kernel
  have hbehind : visibleWords (behindLineComment "T: Clone // copies\n    + Copy ".toList) =
      ["+".toList, "Copy".toList] := by
    decide +kernel
  constructor
  · have hwords := (OnOneLine.visibleWords_iff (.collapsed "T: Clone // copies\n    + Copy ")).1
    rwa [hshown, hbehind] at hwords
  · exact (OnOneLine.visibleWords_iff (.type "Vec<\n    /* item */ u8>" (by decide +kernel))).2.mpr
      (by decide +kernel)

/-- The type of a field whose last word is lost. -/
theorem oneLineType_loses_word :
    let text := "Vec<\n    u8, // item\n>"
    (Locator.locate "struct S(Vec<\n    u8, // item\n>);\n" .only).toOption.map
        (fun located ↦ located.declaration.body) = some (.tuple [⟨none, some text⟩]) ∧
      visibleWords text.toList = ["Vec<".toList, "u8,".toList, ">".toList] ∧
      visibleWords (oneLineType (some text)).toList = ["Vec<".toList, "u8,".toList] := by
  decide +kernel

end Source

end Memberwise
