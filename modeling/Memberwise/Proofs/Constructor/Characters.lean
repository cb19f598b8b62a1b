import Memberwise.Generation
import Memberwise.Proofs.Constructor.ByPosition
import Memberwise.Proofs.Text.Characters
import Memberwise.Proofs.Text.Spacing

/-!
# The characters of a constructor

A constructor is written with the names and types of its declaration, and between them with visible
characters of ASCII, spaces and line feeds. So what holds of those and of every character of the
declaration holds of every character of the constructor.
-/

namespace Memberwise

open Text (Over isGraphic)

variable {p : Char → Prop}

/-! ## What a declaration is written with -/

/-- Every character of the field's identifier and type satisfies `p`. -/
structure Field.WrittenIn (p : Char → Prop) (field : Field) : Prop where
  ident : ∀ ident ∈ field.ident, Over p ident.toList
  typeText : ∀ typeText ∈ field.typeText, Over p typeText.toList

structure Generics.WrittenIn (p : Char → Prop) (generics : Generics) : Prop where
  params : Over p generics.params.toList
  args : Over p generics.args.toList
  whereClause : ∀ clause ∈ generics.whereClause, Over p clause.toList

structure Declaration.WrittenIn (p : Char → Prop) (declaration : Declaration) : Prop where
  name : Over p declaration.name.toList
  generics : ∀ generics ∈ declaration.generics, generics.WrittenIn p
  fields : ∀ field ∈ declaration.body.fields, field.WrittenIn p

/-! ## Candidates -/

theorem over_identifierOrUnnamed (hp : ∀ c, isGraphic c = true → p c) {ident : Option String}
    (h : ∀ name ∈ ident, Over p name.toList) : Over p (identifierOrUnnamed ident).toList := by
  rw [identifierOrUnnamed]
  split
  · exact .of_all hp (by decide)
  · rw [String.toList_ofList]
    cases ident with
    | none => exact Text.over_nil
    | some name => exact (h name rfl).of_subset (Text.trim_subset _)

theorem over_oneLineType (hp : ∀ c, isGraphic c = true → p c) {typeText : Option String}
    (h : ∀ text ∈ typeText, Over p text.toList) : Over p (oneLineType typeText).toList := by
  rw [oneLineType]
  split
  · exact .of_all hp (by decide)
  · rw [String.toList_ofList]
    cases typeText with
    | none => exact Text.over_nil
    | some text => exact Text.over_collapse (hp ' ' (by decide)) (h text rfl)

/-- No type needs a second line. -/
theorem lineFeed_not_mem_oneLineType (typeText : Option String) :
    '\n' ∉ (oneLineType typeText).toList := by
  rw [oneLineType]
  split
  · decide
  · rw [String.toList_ofList]
    exact (Text.lineFeed_not_mem_squeeze _).2

namespace Body

theorem exists_typeText {body : Body} {candidate : Candidate} (h : candidate ∈ body.candidates) :
    ∃ field ∈ body.fields, candidate.typeText = oneLineType field.typeText := by
  cases body with
  | unit => simp [candidates] at h
  | tuple fields =>
    obtain ⟨position, hposition, rfl⟩ := List.mem_mapIdx.mp h
    exact ⟨_, List.getElem_mem hposition, rfl⟩
  | named fields =>
    obtain ⟨position, hposition, rfl⟩ := List.mem_mapIdx.mp h
    exact ⟨_, List.getElem_mem hposition, rfl⟩

theorem over_binding (hp : ∀ c, isGraphic c = true → p c) {body : Body}
    (hidents : ∀ field ∈ body.fields, ∀ ident ∈ field.ident, Over p ident.toList)
    {candidate : Candidate} (h : candidate ∈ body.candidates) :
    Over p candidate.binding.toList := by
  cases body with
  | unit => simp [candidates] at h
  | tuple fields =>
    obtain ⟨position, _, rfl⟩ := List.mem_mapIdx.mp h
    simp only [Field.positionalCandidate, String.toList_append, Text.over_append]
    exact ⟨.of_all hp (by decide), Text.over_decimal hp position⟩
  | named fields =>
    obtain ⟨position, hposition, rfl⟩ := List.mem_mapIdx.mp h
    exact over_identifierOrUnnamed hp (hidents _ (List.getElem_mem hposition))

theorem over_typeText (hp : ∀ c, isGraphic c = true → p c) {body : Body}
    (htypes : ∀ field ∈ body.fields, ∀ text ∈ field.typeText, Over p text.toList)
    {candidate : Candidate} (h : candidate ∈ body.candidates) :
    Over p candidate.typeText.toList := by
  obtain ⟨field, hfield, heq⟩ := exists_typeText h
  rw [heq]
  exact over_oneLineType hp (htypes field hfield)

end Body

/-! ## Constructors -/

namespace Constructor

variable {candidates : List Candidate}

theorem over_commaSeparated (hp : ∀ c, isGraphic c = true → p c) {entry : Candidate → String}
    (h : ∀ candidate ∈ candidates, Over p (entry candidate).toList) :
    Over p (commaSeparated (candidates.map entry)).toList := by
  refine Text.over_toList_intercalate (.of_all hp (by decide)) fun text htext ↦ ?_
  obtain ⟨candidate, hcandidate, rfl⟩ := List.mem_map.mp htext
  exact h candidate hcandidate

theorem over_tupleEntry (hp : ∀ c, isGraphic c = true → p c) {candidate : Candidate}
    (h : Over p candidate.binding.toList) (selected : Bool) :
    Over p (candidate.tupleEntry selected).toList := by
  rw [Candidate.tupleEntry]
  split
  · exact h
  · exact .of_all hp (by decide)

theorem over_namedEntry (hp : ∀ c, isGraphic c = true → p c) {candidate : Candidate}
    (haccessor : Over p candidate.accessor.toList) (hbinding : Over p candidate.binding.toList)
    (selected : Bool) : Over p (candidate.namedEntry selected).toList := by
  have hcolon : Over p ": ".toList := .of_all hp (by decide)
  have hplaceholder : Over p placeholder.toList := .of_all hp (by decide)
  rw [Candidate.namedEntry]
  split
  · simp only [String.toList_append, Text.over_append]
    exact ⟨⟨haccessor, hcolon⟩, hplaceholder⟩
  split
  · exact hbinding
  · simp only [String.toList_append, Text.over_append]
    exact ⟨⟨haccessor, hcolon⟩, hbinding⟩

theorem over_literal (hp : ∀ c, isGraphic c = true → p c) {name : String}
    (hname : Over p name.toList)
    (hnames : ∀ candidate ∈ candidates,
      Over p candidate.accessor.toList ∧ Over p candidate.binding.toList)
    (shape : Shape) (selected : List Candidate) :
    Over p (literal name shape candidates selected).toList := by
  cases shape with
  | unit =>
    simp only [literal, String.toList_append, Text.over_append]
    exact ⟨hname, .of_all hp (by decide)⟩
  | tuple =>
    simp only [literal, String.toList_append, Text.over_append]
    refine ⟨⟨⟨hname, .of_all hp (by decide)⟩, ?_⟩, .of_all hp (by decide)⟩
    exact over_commaSeparated hp fun candidate hcandidate ↦
      over_tupleEntry hp (hnames candidate hcandidate).2 _
  | named =>
    simp only [literal, String.toList_append, Text.over_append]
    refine ⟨⟨⟨hname, .of_all hp (by decide)⟩, ?_⟩, .of_all hp (by decide)⟩
    exact over_commaSeparated hp fun candidate hcandidate ↦
      over_namedEntry hp (hnames candidate hcandidate).1 (hnames candidate hcandidate).2 _

theorem over_implHeader (hp : ∀ c, isGraphic c = true → p c) {name : String}
    (hname : Over p name.toList) {generics : Option Generics}
    (h : ∀ parameters ∈ generics, parameters.WrittenIn p) :
    Over p (implHeader name generics).toList := by
  cases generics with
  | none =>
    simp only [implHeader, String.toList_append, Text.over_append]
    exact ⟨.of_all hp (by decide), hname⟩
  | some parameters =>
    have hparameters := h parameters rfl
    simp only [implHeader, String.toList_append, Text.over_append]
    refine ⟨⟨⟨⟨⟨.of_all hp (by decide), hparameters.params⟩, .of_all hp (by decide)⟩, hname⟩,
      hparameters.args⟩, ?_⟩
    cases hclause : parameters.whereClause with
    | none => exact Text.over_nil
    | some clause =>
      simp only [String.toList_append, Text.over_append]
      exact ⟨.of_all hp (by decide), hparameters.whereClause clause hclause⟩

end Constructor

namespace Declaration

theorem over_functionText (hp : ∀ c, isGraphic c = true → p c) (hfeed : p '\n')
    {declaration : Declaration} (h : declaration.WrittenIn p) (selected : List Candidate) :
    Over p (Constructor.functionText declaration.name declaration.body.shape
      declaration.body.candidates selected).toList := by
  have hbinding : ∀ candidate ∈ declaration.body.candidates, Over p candidate.binding.toList :=
    fun candidate hcandidate ↦
      Body.over_binding hp (fun field hfield ↦ (h.fields field hfield).ident) hcandidate
  have hnames : ∀ candidate ∈ declaration.body.candidates,
      Over p candidate.accessor.toList ∧ Over p candidate.binding.toList := by
    intro candidate hcandidate
    rw [Body.accessor_eq_binding hcandidate]
    exact ⟨hbinding candidate hcandidate, hbinding candidate hcandidate⟩
  have hliteral := Constructor.over_literal hp h.name hnames declaration.body.shape selected
  have hparameters : Over p (Constructor.commaSeparated
      ((declaration.body.candidates.filter selected.contains).map Candidate.parameter)).toList := by
    refine Constructor.over_commaSeparated hp fun candidate hkept ↦ ?_
    have hcandidate := List.mem_of_mem_filter hkept
    simp only [Candidate.parameter, String.toList_append, Text.over_append]
    exact ⟨⟨hbinding candidate hcandidate, .of_all hp (by decide)⟩,
      Body.over_typeText hp (fun field hfield ↦ (h.fields field hfield).typeText) hcandidate⟩
  have hopening : Over p ") -> Self \x7b\n    ".toList := by
    have hlines : ") -> Self \x7b\n    ".toList =
        ") -> Self \x7b".toList ++ '\n' :: "    ".toList := rfl
    rw [hlines, Text.over_append, Text.over_cons]
    exact ⟨.of_all hp (by decide), hfeed, .of_all hp (by decide)⟩
  have hclosing : Over p "\n\x7d".toList :=
    Text.over_cons.mpr ⟨hfeed, .of_all hp (by decide)⟩
  simp only [Constructor.functionText, String.toList_append, Text.over_append]
  exact ⟨⟨⟨⟨.of_all hp (by decide), hparameters⟩, hopening⟩, hliteral⟩, hclosing⟩

/-- What holds of visible ASCII, of line feeds and of every character of a declaration holds of
every character of its constructors. -/
theorem over_implBlock (hp : ∀ c, isGraphic c = true → p c) (hfeed : p '\n')
    {declaration : Declaration} (h : declaration.WrittenIn p) (selected : List Candidate) :
    Over p (Generation.constructorFor declaration.analysis selected).implBlock.toList := by
  have hfunction := over_functionText hp hfeed h selected
  have hopening : Over p " \x7b\n".toList := by
    have hlines : " \x7b\n".toList = " \x7b".toList ++ ['\n'] := rfl
    rw [hlines, Text.over_append]
    exact ⟨.of_all hp (by decide), Text.over_cons.mpr ⟨hfeed, Text.over_nil⟩⟩
  have hclosing : Over p "\n\x7d".toList :=
    Text.over_cons.mpr ⟨hfeed, .of_all hp (by decide)⟩
  have hheader := Constructor.over_implHeader hp h.name h.generics
  simp only [Generation.constructorFor, Declaration.analysis, Constructor.implBlockText,
    String.toList_append, String.toList_ofList, Text.over_append]
  exact ⟨⟨⟨hheader, hopening⟩, Text.over_indentLines hfeed (.of_all hp (by decide)) hfunction⟩,
    hclosing⟩

end Declaration

end Memberwise
