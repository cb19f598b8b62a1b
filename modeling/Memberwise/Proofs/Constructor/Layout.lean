import Memberwise.Proofs.Constructor.Distinction
import Memberwise.Proofs.Text.Lines

/-!
# The lines of a constructor

A function takes three lines and its `impl` block five, for every struct and every selection: no
parameter and no literal needs a line of its own, because types are written on one line and names
have no line feed in them. Each line ends with a bracket, so the same lines are read again when the
block is indented.
-/

namespace Memberwise

open Text (Over IsLine unlines indentLine)

/-- No name and no generic parameter of the declaration has a line feed in it. Types may. -/
structure Declaration.Unbroken (declaration : Declaration) : Prop where
  name : '\n' ∉ declaration.name.toList
  generics : ∀ generics ∈ declaration.generics, generics.WrittenIn (· ≠ '\n')
  idents : ∀ field ∈ declaration.body.fields, ∀ ident ∈ field.ident, '\n' ∉ ident.toList

namespace Text

theorem over_ne_lineFeed_iff {text : List Char} : Over (· ≠ '\n') text ↔ '\n' ∉ text :=
  ⟨fun h hmem ↦ h '\n' hmem rfl, fun h _ hc heq ↦ h (heq ▸ hc)⟩

theorem ne_lineFeed_of_isGraphic (c : Char) (h : isGraphic c = true) : c ≠ '\n' := by
  rintro rfl
  exact absurd h (by decide)

theorem getLast?_toList_append {back : String} {c : Char} (h : back.toList.getLast? = some c)
    (front : String) : (front ++ back).toList.getLast? = some c := by
  rw [String.toList_append, List.getLast?_append, h]
  rfl

end Text

namespace Constructor

/-! ## Lines with a bracket at the end -/

structure IsBracketed (line : List Char) : Prop where
  lineFeed_not_mem : '\n' ∉ line
  bracket : ∃ c ∈ [')', '\x7b', '\x7d'], line.getLast? = some c

namespace IsBracketed

theorem ne_nil {line : List Char} (h : IsBracketed line) : line ≠ [] := by
  rintro rfl
  obtain ⟨c, -, hlast⟩ := h.bracket
  simp at hlast

theorem isLine {line : List Char} (h : IsBracketed line) : IsLine line where
  lineFeed_not_mem := h.lineFeed_not_mem
  getLast?_ne := by
    obtain ⟨c, hc, hlast⟩ := h.bracket
    rintro heq
    obtain rfl : c = '\r' := Option.some.inj (hlast.symm.trans heq)
    exact absurd hc (by decide)

theorem append {front line : List Char} (h : IsBracketed line) (hfront : '\n' ∉ front) :
    IsBracketed (front ++ line) where
  lineFeed_not_mem := by simp [hfront, h.lineFeed_not_mem]
  bracket := by
    obtain ⟨c, hc, hlast⟩ := h.bracket
    exact ⟨c, hc, by rw [List.getLast?_append, hlast]; rfl⟩

theorem indentLine_eq {line : List Char} (h : IsBracketed line) (indent : List Char) :
    indentLine indent line = indent ++ line := by
  rw [indentLine, if_neg (by simpa using h.ne_nil)]

end IsBracketed

theorem isBracketed_singleton : IsBracketed ['\x7d'] := ⟨by decide, '\x7d', by decide, rfl⟩

/-- Bracketed lines can be read, indented and joined. -/
theorem indentLines_of_isBracketed {lines : List (List Char)}
    (h : ∀ line ∈ lines, IsBracketed line) (indent : List Char) :
    Text.indentLines indent (unlines lines) = unlines (lines.map (indent ++ ·)) := by
  have hlast : lines.getLast? ≠ some [] := fun heq ↦ (h [] (List.mem_of_getLast? heq)).ne_nil rfl
  rw [Text.indentLines_unlines indent (fun line hline ↦ (h line hline).isLine) hlast]
  exact congrArg unlines (List.map_congr_left fun line hline ↦ (h line hline).indentLine_eq indent)

/-! ## The function -/

/-- The lines of a function. -/
def functionLines (name : String) (shape : Shape) (candidates selected : List Candidate) :
    List (List Char) :=
  [(firstLine candidates selected).toList,
    "    ".toList ++ (literal name shape candidates selected).toList,
    ['\x7d']]

theorem toList_functionText_eq_unlines (name : String) (shape : Shape)
    (candidates selected : List Candidate) :
    (functionText name shape candidates selected).toList =
      unlines (functionLines name shape candidates selected) := by
  have hclosing : "\n\x7d".toList = '\n' :: unlines [['\x7d']] := rfl
  rw [toList_functionText, functionLines, Text.unlines_cons (by simp), Text.unlines_cons (by simp),
    hclosing, List.append_assoc]

section Lines

variable {declaration : Declaration} (h : declaration.Unbroken) (selected : List Candidate)
include h

theorem isBracketed_literal :
    IsBracketed (literal declaration.name declaration.body.shape declaration.body.candidates
      selected).toList where
  lineFeed_not_mem := by
    refine Text.over_ne_lineFeed_iff.mp (over_literal Text.ne_lineFeed_of_isGraphic
      (Text.over_ne_lineFeed_iff.mpr h.name) (fun candidate hcandidate ↦ ?_) _ selected)
    have hbinding : Over (· ≠ '\n') candidate.binding.toList :=
      Body.over_binding Text.ne_lineFeed_of_isGraphic
        (fun field hfield ident hident ↦
          Text.over_ne_lineFeed_iff.mpr (h.idents field hfield ident hident)) hcandidate
    exact ⟨Body.accessor_eq_binding hcandidate ▸ hbinding, hbinding⟩
  bracket := by
    cases declaration.body.shape with
    | unit => exact ⟨'\x7d', by decide, Text.getLast?_toList_append rfl _⟩
    | tuple => exact ⟨')', by decide, Text.getLast?_toList_append rfl _⟩
    | named => exact ⟨'\x7d', by decide, Text.getLast?_toList_append rfl _⟩

theorem isBracketed_functionLines :
    ∀ line ∈ functionLines declaration.name declaration.body.shape declaration.body.candidates
      selected, IsBracketed line := by
  have hfirst : IsBracketed (firstLine declaration.body.candidates selected).toList :=
    ⟨lineFeed_not_mem_firstLine h.idents selected, '\x7b', by decide,
      Text.getLast?_toList_append rfl _⟩
  have hsecond := @IsBracketed.append "    ".toList _ (isBracketed_literal h selected) (by decide)
  simpa [functionLines] using ⟨hfirst, hsecond, isBracketed_singleton⟩

end Lines

/-! ## The block -/

/-- The lines of an `impl` block around the lines of a function. -/
def implBlockLines (name : String) (generics : Option Generics) (function : List (List Char)) :
    List (List Char) :=
  (implHeader name generics ++ " \x7b").toList ::
    (function.map ("    ".toList ++ ·) ++ [['\x7d']])

theorem toList_implBlockText {name : String} {generics : Option Generics} {function : String}
    {lines : List (List Char)} (hfunction : function.toList = unlines lines)
    (hlines : ∀ line ∈ lines, IsBracketed line) (hne : lines ≠ []) :
    (implBlockText name generics function).toList =
      unlines (implBlockLines name generics lines) := by
  have hbody : lines.map ("    ".toList ++ ·) ≠ [] := by simpa using hne
  have hopening : " \x7b\n".toList = " \x7b".toList ++ ['\n'] := rfl
  have hclosing : "\n\x7d".toList = ['\n', '\x7d'] := rfl
  rw [implBlockLines, Text.unlines_cons (by simp), Text.unlines_concat hbody, implBlockText,
    hfunction, indentLines_of_isBracketed hlines]
  simp [hopening, hclosing]

theorem isBracketed_implBlockLines {declaration : Declaration} (h : declaration.Unbroken)
    {lines : List (List Char)} (hlines : ∀ line ∈ lines, IsBracketed line) :
    ∀ line ∈ implBlockLines declaration.name declaration.generics lines, IsBracketed line := by
  have hheader :
      IsBracketed (implHeader declaration.name declaration.generics ++ " \x7b").toList := by
    refine ⟨?_, '\x7b', by decide, Text.getLast?_toList_append rfl _⟩
    refine Text.over_ne_lineFeed_iff.mp ?_
    rw [String.toList_append, Text.over_append]
    exact ⟨over_implHeader Text.ne_lineFeed_of_isGraphic (Text.over_ne_lineFeed_iff.mpr h.name)
      h.generics, .of_all Text.ne_lineFeed_of_isGraphic (by decide)⟩
  intro line hline
  rcases List.mem_cons.mp hline with rfl | hline
  · exact hheader
  rcases List.mem_append.mp hline with hline | hline
  · obtain ⟨bare, hbare, rfl⟩ := List.mem_map.mp hline
    exact (hlines bare hbare).append (by decide)
  · exact List.mem_singleton.mp hline ▸ isBracketed_singleton

end Constructor

namespace Declaration

/-- The lines of the `impl` block of a declaration for which `selected` was selected. -/
def blockLines (declaration : Declaration) (selected : List Candidate) : List (List Char) :=
  Constructor.implBlockLines declaration.name declaration.generics
    (Constructor.functionLines declaration.name declaration.body.shape declaration.body.candidates
      selected)

@[simp] theorem length_blockLines (declaration : Declaration) (selected : List Candidate) :
    (declaration.blockLines selected).length = 5 := rfl

theorem isBracketed_blockLines {declaration : Declaration} (h : declaration.Unbroken)
    (selected : List Candidate) :
    ∀ line ∈ declaration.blockLines selected, Constructor.IsBracketed line :=
  Constructor.isBracketed_implBlockLines h (Constructor.isBracketed_functionLines h selected)

theorem toList_implBlock {declaration : Declaration} (h : declaration.Unbroken)
    (selected : List Candidate) :
    (Generation.constructorFor declaration.analysis selected).implBlock.toList =
      unlines (declaration.blockLines selected) :=
  Constructor.toList_implBlockText
    (Constructor.toList_functionText_eq_unlines _ _ _ selected)
    (Constructor.isBracketed_functionLines h selected) (List.cons_ne_nil _ _)

/-- What is emitted is the constructor for a selection among the candidates. -/
theorem exists_of_generate_eq_emitted {σ : Type} {presenter : Presenter σ}
    {declaration : Declaration} {state next : σ} {built : Constructor}
    (h : declaration.generate presenter state = (.ok (.emitted built), next)) :
    ∃ selected, selected.Sublist declaration.analysis.candidates ∧
      built = Generation.constructorFor declaration.analysis selected := by
  rcases hrequest : Selection.request presenter declaration.analysis.candidates state with
    ⟨cause | ⟨chosen⟩ | ⟨⟩, after⟩
  · simp [generate_of_error hrequest] at h
  · rw [generate_of_selected hrequest] at h
    simp only [Prod.mk.injEq, Except.ok.injEq, Generated.emitted.injEq] at h
    exact ⟨chosen, Selection.sublist_of_request_eq_selected hrequest, h.1.symm⟩
  · simp [generate_of_cancelled hrequest] at h

end Declaration

end Memberwise
