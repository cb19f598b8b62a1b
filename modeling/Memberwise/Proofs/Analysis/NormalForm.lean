import Memberwise.Proofs.Selection.Naming
import Memberwise.Proofs.Text.Pieces

/-!
# The normal form of a declaration

Analysis writes every field in one form, whatever the blanks in its declaration: a name without
blanks around it, and a type as its words with single spaces between them. A field without a name or
a type gets a text in that form, too. Only the words of a type and the core of an identifier enter
the analysis.

The main statement: an analysis is in normal form, it is what is found in a declaration that is
written as it says, and declarations that differ in blanks alone have the same one.
-/

namespace Memberwise

open Text (Parted IsTrimmed IsWord isBlank)

/-! ## Types -/

/-- The type as a candidate has it. -/
structure IsTypeLine (typeText : Option String) (line : String) : Prop where
  exists_words : ∃ words, words ≠ [] ∧ (∀ word ∈ words, IsWord word) ∧
    line.toList = [' '].intercalate words
  words_eq : ∀ text ∈ typeText, ∀ words, Parted isBlank words text.toList → words ≠ [] →
    line.toList = [' '].intercalate words
  unknown : (∀ text ∈ typeText, ∀ c ∈ text.toList, isBlank c = true) → line = unknownType

/-- Of a type only its words matter. A missing type has none. -/
theorem oneLineType_of_parted {typeText : Option String} {words : List (List Char)}
    (h : Parted isBlank words (typeText.getD "").toList) :
    oneLineType typeText =
      if words = [] then unknownType else String.ofList ([' '].intercalate words) := by
  have hwords : Text.words (typeText.getD "").toList = words := Text.parted_iff.mp h
  simp only [oneLineType, List.isEmpty_iff, Text.collapse_eq_nil_iff]
  rw [Text.collapse, hwords]

theorem isTypeLine_oneLineType (typeText : Option String) :
    IsTypeLine typeText (oneLineType typeText) := by
  obtain ⟨words, hwords⟩ := Text.exists_parted isBlank (typeText.getD "").toList
  constructor
  · by_cases hnil : words = []
    · rw [oneLineType_of_parted hwords, if_pos hnil]
      have hword : unknownType.toList ∈ Text.words unknownType.toList := by decide
      exact ⟨[unknownType.toList], List.cons_ne_nil _ _,
        List.forall_mem_singleton.mpr (Text.isWord_of_mem_words hword), by simp⟩
    · rw [oneLineType_of_parted hwords, if_neg hnil]
      exact ⟨words, hnil, fun _ ↦ hwords.free_of_mem, String.toList_ofList⟩
  · rintro text rfl words hwords hne
    rw [oneLineType_of_parted hwords, if_neg hne, String.toList_ofList]
  · intro hblank
    have hall : ∀ c ∈ (typeText.getD "").toList, isBlank c = true := by
      cases typeText with
      | none => simp
      | some text => exact hblank text rfl
    rw [oneLineType_of_parted (.nil hall), if_pos rfl]

theorem oneLineType_oneLineType (typeText : Option String) :
    oneLineType (some (oneLineType typeText)) = oneLineType typeText := by
  obtain ⟨words, hne, hwords, hline⟩ := (isTypeLine_oneLineType typeText).exists_words
  have hparted : Parted isBlank words ((some (oneLineType typeText)).getD "").toList := by
    rw [Option.getD_some, hline]
    exact Text.parted_iff.mpr (Text.words_intercalate hwords)
  rw [oneLineType_of_parted hparted, if_neg hne, ← hline, String.ofList_toList]

/-! ## Names -/

/-- A name is not empty, and has no blank at an end. -/
structure IsFieldName (name : String) : Prop where
  ne_empty : name ≠ ""
  head : ∀ c ∈ name.toList.head?, isBlank c = false
  getLast : ∀ c ∈ name.toList.getLast?, isBlank c = false

theorem isFieldName_of_isTrimmed {text : List Char} {name : String} (hne : name ≠ "")
    (h : IsTrimmed text name.toList) : IsFieldName name :=
  ⟨hne, h.head, h.getLast⟩

/-- Of an identifier only the core matters. A missing one has an empty core. -/
theorem identifierOrUnnamed_of_isTrimmed {ident : Option String} {core : List Char}
    (h : IsTrimmed (ident.getD "").toList core) :
    identifierOrUnnamed ident = if core = [] then unnamedField else String.ofList core := by
  simp only [identifierOrUnnamed, List.isEmpty_iff, h.trim_eq]

theorem isFieldName_identifierOrUnnamed (ident : Option String) :
    IsFieldName (identifierOrUnnamed ident) := by
  have htrim := Text.isTrimmed_trim (ident.getD "").toList
  rw [identifierOrUnnamed_of_isTrimmed htrim]
  split
  · have hunnamed : IsTrimmed unnamedField.toList unnamedField.toList :=
      Text.isTrimmed_iff.mpr (by decide)
    exact isFieldName_of_isTrimmed (by decide) hunnamed
  · rename_i hne
    exact isFieldName_of_isTrimmed (by simpa using hne) (by rwa [String.toList_ofList])

theorem IsFieldName.identifierOrUnnamed_eq {name : String} (h : IsFieldName name) :
    identifierOrUnnamed (some name) = name := by
  have htrim : IsTrimmed ((some name).getD "").toList name.toList :=
    ⟨⟨[], [], by simp, by simp, by simp⟩, h.head, h.getLast⟩
  rw [identifierOrUnnamed_of_isTrimmed htrim, if_neg (by simpa using h.ne_empty),
    String.ofList_toList]

/-- The name that a field gets at its position. -/
inductive Body.Names (position : Nat) (field : Field) : Body → String → Prop where
  | positional {fields : List Field} : Names position field (.tuple fields)
      ("field" ++ toString position)
  | identifier {fields : List Field} {text : String} {core : List Char}
      (hident : field.ident = some text) (hcore : IsTrimmed text.toList core) (hne : core ≠ []) :
      Names position field (.named fields) (String.ofList core)
  | unnamed {fields : List Field} (h : ∀ text ∈ field.ident, ∀ c ∈ text.toList, isBlank c = true) :
      Names position field (.named fields) unnamedField

theorem Body.names_identifierOrUnnamed (position : Nat) (field : Field) (fields : List Field) :
    Names position field (.named fields) (identifierOrUnnamed field.ident) := by
  have htrim := Text.isTrimmed_trim (field.ident.getD "").toList
  rw [identifierOrUnnamed_of_isTrimmed htrim]
  split
  · rename_i hnil
    obtain ⟨front, back, htext, hfront, hback⟩ := htrim.exists_append
    rw [hnil, List.append_nil] at htext
    refine .unnamed fun text hident ↦ ?_
    rw [hident, Option.getD_some] at htext
    rw [htext]
    exact List.forall_mem_append.mpr ⟨hfront, hback⟩
  · rename_i hne
    cases hident : field.ident with
    | none => simp [hident, Text.trim, Text.trimStart, Text.trimEnd] at hne
    | some text =>
      rw [hident] at htrim hne
      exact .identifier hident htrim hne

/-! ## Candidates -/

/-- The candidate that a field in a body becomes. -/
structure Candidate.IsNormal (body : Body) (position : Nat) (field : Field)
    (candidate : Candidate) : Prop where
  position_eq : candidate.position = position
  accessor_eq : candidate.accessor = candidate.binding
  isFieldName : IsFieldName candidate.binding
  names : body.Names position field candidate.binding
  isTypeLine : IsTypeLine field.typeText candidate.typeText

theorem Field.isNormal_positionalCandidate (field : Field) (position : Nat) (fields : List Field) :
    (field.positionalCandidate position).IsNormal (.tuple fields) position field where
  position_eq := rfl
  accessor_eq := rfl
  isFieldName := by
    have hword : "field".toList ∈ Text.words "field".toList := by decide
    have hvisible : ∀ c ∈ (field.positionalCandidate position).binding.toList,
        isBlank c = false := by
      simp only [positionalCandidate, String.toList_append, List.forall_mem_append]
      refine ⟨(Text.isWord_of_mem_words hword).2, fun c hc ↦ ?_⟩
      have hseparator := Answer.isSeparator_of_isDigit (Text.isDigit_of_mem_decimal hc)
      exact (Bool.or_eq_false_iff.mp hseparator).2
    have htrim := IsTrimmed.of_visible (List.forall_mem_nil _) hvisible (List.forall_mem_nil _)
    exact isFieldName_of_isTrimmed (by simp [positionalCandidate]) htrim
  names := .positional
  isTypeLine := isTypeLine_oneLineType field.typeText

theorem Field.isNormal_namedCandidate (field : Field) (position : Nat) (fields : List Field) :
    (field.namedCandidate position).IsNormal (.named fields) position field where
  position_eq := rfl
  accessor_eq := rfl
  isFieldName := isFieldName_identifierOrUnnamed field.ident
  names := Body.names_identifierOrUnnamed position field fields
  isTypeLine := isTypeLine_oneLineType field.typeText

theorem Body.isNormal_candidates {body : Body} {position : Nat} {field : Field}
    {candidate : Candidate} (hfield : body.fields[position]? = some field)
    (hcandidate : body.candidates[position]? = some candidate) :
    candidate.IsNormal body position field := by
  cases body with
  | unit => simp [fields] at hfield
  | tuple fields =>
    rw [Body.fields] at hfield
    rw [candidates, List.getElem?_mapIdx, hfield] at hcandidate
    exact Option.some.inj hcandidate ▸ field.isNormal_positionalCandidate position fields
  | named fields =>
    rw [Body.fields] at hfield
    rw [candidates, List.getElem?_mapIdx, hfield] at hcandidate
    exact Option.some.inj hcandidate ▸ field.isNormal_namedCandidate position fields

theorem Body.shape_eq_unit_iff (body : Body) : body.shape = .unit ↔ body.candidates = [] := by
  rcases body with _ | ⟨_ | ⟨_, _⟩⟩ | ⟨_ | ⟨_, _⟩⟩ <;> simp [shape, candidates]

/-! ## Analyses -/

namespace Declaration

/-- The analysis has the declaration in normal form, field by field. -/
structure HasNormalForm (declaration : Declaration) (analysis : Analysis) : Prop where
  name_eq : analysis.name = declaration.name
  generics_eq : analysis.generics = declaration.generics
  shape_eq_unit_iff : analysis.shape = .unit ↔ analysis.candidates = []
  length_eq : analysis.candidates.length = declaration.body.fields.length
  isNormal : ∀ (position : Nat) (field : Field) (candidate : Candidate),
    declaration.body.fields[position]? = some field →
      analysis.candidates[position]? = some candidate →
        candidate.IsNormal declaration.body position field

theorem hasNormalForm_analysis (declaration : Declaration) :
    declaration.HasNormalForm declaration.analysis where
  name_eq := rfl
  generics_eq := rfl
  shape_eq_unit_iff := declaration.body.shape_eq_unit_iff
  length_eq := declaration.body.length_candidates
  isNormal _ _ _ hfield hcandidate := Body.isNormal_candidates hfield hcandidate

end Declaration

/-! ## Declarations in normal form -/

/-- A body of the same kind that is written as the candidates say. -/
def Body.ofCandidates (candidates : List Candidate) : Body → Body
  | unit => unit
  | tuple _ => tuple (candidates.map fun candidate ↦ ⟨none, some candidate.typeText⟩)
  | named _ =>
    named (candidates.map fun candidate ↦ ⟨some candidate.binding, some candidate.typeText⟩)

theorem Body.candidates_ofCandidates (body : Body) :
    (body.ofCandidates body.candidates).candidates = body.candidates := by
  cases body with
  | unit => rfl
  | tuple fields =>
    apply List.ext_getElem
    · simp [ofCandidates, candidates]
    · intro i _ _
      simp [ofCandidates, candidates, Field.positionalCandidate, oneLineType_oneLineType]
  | named fields =>
    apply List.ext_getElem
    · simp [ofCandidates, candidates]
    · intro i _ _
      simp [ofCandidates, candidates, Field.namedCandidate, oneLineType_oneLineType,
        (isFieldName_identifierOrUnnamed _).identifierOrUnnamed_eq]

theorem Body.shape_ofCandidates (body : Body) :
    (body.ofCandidates body.candidates).shape = body.shape := by
  rcases body with _ | ⟨_ | ⟨_, _⟩⟩ | ⟨_ | ⟨_, _⟩⟩ <;> simp [shape, ofCandidates, candidates]

/-- The declaration that is written as its analysis says. -/
def Declaration.normal (declaration : Declaration) : Declaration where
  name := declaration.analysis.name
  generics := declaration.analysis.generics
  body := declaration.body.ofCandidates declaration.analysis.candidates

theorem Declaration.analysis_normal (declaration : Declaration) :
    declaration.normal.analysis = declaration.analysis := by
  rw [analysis, analysis, Analysis.mk.injEq]
  exact ⟨rfl, declaration.body.shape_ofCandidates, declaration.body.candidates_ofCandidates, rfl⟩

/-! ## Other blanks -/

/-- The identifiers differ in blanks around them, and the types in blanks around and between their
words. A text that is missing counts as an empty one. -/
structure Field.SameButBlanks (field other : Field) : Prop where
  ident : ∃ core, IsTrimmed (field.ident.getD "").toList core ∧
    IsTrimmed (other.ident.getD "").toList core
  typeText : ∃ words, Parted isBlank words (field.typeText.getD "").toList ∧
    Parted isBlank words (other.typeText.getD "").toList

namespace Field.SameButBlanks

variable {field other : Field}

theorem oneLineType_eq (h : field.SameButBlanks other) :
    oneLineType field.typeText = oneLineType other.typeText := by
  obtain ⟨words, hfield, hother⟩ := h.typeText
  rw [oneLineType_of_parted hfield, oneLineType_of_parted hother]

theorem identifierOrUnnamed_eq (h : field.SameButBlanks other) :
    identifierOrUnnamed field.ident = identifierOrUnnamed other.ident := by
  obtain ⟨core, hfield, hother⟩ := h.ident
  rw [identifierOrUnnamed_of_isTrimmed hfield, identifierOrUnnamed_of_isTrimmed hother]

theorem positionalCandidate_eq (h : field.SameButBlanks other) (position : Nat) :
    field.positionalCandidate position = other.positionalCandidate position := by
  rw [positionalCandidate, positionalCandidate, h.oneLineType_eq]

theorem namedCandidate_eq (h : field.SameButBlanks other) (position : Nat) :
    field.namedCandidate position = other.namedCandidate position := by
  rw [namedCandidate, namedCandidate, h.oneLineType_eq, h.identifierOrUnnamed_eq]

end Field.SameButBlanks

/-- The bodies are of one kind, and their fields differ in blanks alone. -/
inductive Body.SameButBlanks : Body → Body → Prop where
  | unit : SameButBlanks .unit .unit
  | tuple {fields others : List Field} (h : List.Forall₂ Field.SameButBlanks fields others) :
      SameButBlanks (.tuple fields) (.tuple others)
  | named {fields others : List Field} (h : List.Forall₂ Field.SameButBlanks fields others) :
      SameButBlanks (.named fields) (.named others)

namespace Body.SameButBlanks

theorem mapIdx_eq {fields others : List Field} {candidateAt : Nat → Field → Candidate}
    (h : List.Forall₂ Field.SameButBlanks fields others)
    (hsame : ∀ position field other, Field.SameButBlanks field other →
      candidateAt position field = candidateAt position other) :
    fields.mapIdx candidateAt = others.mapIdx candidateAt := by
  apply List.ext_getElem
  · simpa using h.length_eq
  · intro i hi hother
    rw [List.getElem_mapIdx, List.getElem_mapIdx]
    exact hsame i _ _ (h.get (by simpa using hi) (by simpa using hother))

variable {body other : Body}

theorem candidates_eq (h : body.SameButBlanks other) : body.candidates = other.candidates := by
  cases h with
  | unit => rfl
  | tuple h => exact mapIdx_eq h fun position _ _ hsame ↦ hsame.positionalCandidate_eq position
  | named h => exact mapIdx_eq h fun position _ _ hsame ↦ hsame.namedCandidate_eq position

theorem shape_eq (h : body.SameButBlanks other) : body.shape = other.shape := by
  rcases h with _ | ⟨_ | _⟩ | ⟨_ | _⟩ <;> rfl

end Body.SameButBlanks

/-- The declarations differ in blanks alone. -/
structure Declaration.SameButBlanks (declaration other : Declaration) : Prop where
  name_eq : declaration.name = other.name
  generics_eq : declaration.generics = other.generics
  body : declaration.body.SameButBlanks other.body

theorem Declaration.SameButBlanks.analysis_eq {declaration other : Declaration}
    (h : declaration.SameButBlanks other) : declaration.analysis = other.analysis := by
  rw [analysis, analysis, h.name_eq, h.generics_eq, h.body.shape_eq, h.body.candidates_eq]

/-- Analysis brings a declaration into normal form, where it stays, and other blanks change
nothing. -/
theorem Declaration.analysis_normalizes (declaration : Declaration) :
    declaration.HasNormalForm declaration.analysis ∧
      declaration.normal.analysis = declaration.analysis ∧
      ∀ other : Declaration, declaration.SameButBlanks other →
        other.analysis = declaration.analysis :=
  ⟨declaration.hasNormalForm_analysis, declaration.analysis_normal, fun _ hsame ↦
    hsame.analysis_eq.symm⟩

/-- A field with blanks around its identifier and a type of two lines, and one that says nothing. -/
theorem Declaration.analysis_normalizes_of_two_lines :
    let declaration : Declaration :=
      ⟨"S", none, .named [⟨some "\u2003a\n", some "Vec<\n    u8>"⟩, ⟨none, some "\t"⟩]⟩
    let other : Declaration :=
      ⟨"S", none, .named [⟨some "a", some " Vec<\u3000u8>"⟩, ⟨some "", none⟩]⟩
    other.analysis = declaration.analysis ∧
      declaration.normal.body =
        .named [⟨some "a", some "Vec< u8>"⟩, ⟨some "[unnamed]", some "[unknown]"⟩] ∧
      declaration.normal.analysis = declaration.analysis := by
  intro declaration other
  obtain ⟨-, hnormal, hblanks⟩ := declaration.analysis_normalizes
  have hfirst : Field.SameButBlanks ⟨some "\u2003a\n", some "Vec<\n    u8>"⟩
      ⟨some "a", some " Vec<\u3000u8>"⟩ :=
    ⟨⟨['a'], Text.isTrimmed_iff.mpr (by decide), Text.isTrimmed_iff.mpr (by decide)⟩,
      ["Vec<".toList, "u8>".toList], Text.parted_iff.mpr (by decide),
        Text.parted_iff.mpr (by decide)⟩
  have hsecond : Field.SameButBlanks ⟨none, some "\t"⟩ ⟨some "", none⟩ :=
    ⟨⟨[], Text.isTrimmed_iff.mpr (by decide), Text.isTrimmed_iff.mpr (by decide)⟩,
      [], Text.parted_iff.mpr (by decide), Text.parted_iff.mpr (by decide)⟩
  exact ⟨hblanks other ⟨rfl, rfl, .named (.cons hfirst (.cons hsecond .nil))⟩, by decide +kernel,
    hnormal⟩

end Memberwise
