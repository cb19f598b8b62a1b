import Memberwise.Proofs.Constructor.Characters

/-!
# Different selections, different functions

The text of a function does not say directly which fields were selected: types may hold commas,
brackets and pieces of functions. But no parameter takes more than one line, so the struct literal
begins behind the first line feed. There the entries of all fields stand in order, and the first
entry that differs shows it at once: behind a field that is given by its parameter follows a comma
or the end of the literal, and never a colon.

The main statement: two selections give the same function exactly if they have the same members.
-/

namespace Memberwise

open Text (Over)

namespace Constructor

/-! ## Entries -/

/-- The entries of the candidates, each one behind a comma. -/
def entries (entry : Candidate → Bool → String) (isSelected : Candidate → Bool)
    (candidates : List Candidate) : List Char :=
  candidates.flatMap fun candidate ↦
    ", ".toList ++ (entry candidate (isSelected candidate)).toList

theorem toList_commaSeparated {α : Type} (entry : α → String) {elements : List α}
    (h : elements ≠ []) :
    ", ".toList ++ (commaSeparated (elements.map entry)).toList =
      elements.flatMap fun element ↦ ", ".toList ++ (entry element).toList := by
  induction elements with
  | nil => exact absurd rfl h
  | cons first others ih =>
    cases others with
    | nil => simp [commaSeparated]
    | cons second rest =>
      rw [List.flatMap_cons, ← ih (List.cons_ne_nil second rest), commaSeparated, commaSeparated,
        List.map_cons, List.map_cons, String.intercalate_cons_cons]
      simp only [String.toList_append, List.append_assoc]

/-- Whether a candidate is selected shows in its entry, if no colon follows it. -/
def Shows (entry : Candidate → Bool → String) (candidate : Candidate) : Prop :=
  ∀ back other : List Char, back.head? ≠ some ':' →
    (entry candidate true).toList ++ back ≠ (entry candidate false).toList ++ other

theorem head?_entries_append {entry : Candidate → Bool → String} {isSelected : Candidate → Bool}
    {candidates : List Candidate} {closing : List Char} (h : closing.head? ≠ some ':') :
    (entries entry isSelected candidates ++ closing).head? ≠ some ':' := by
  cases candidates with
  | nil => exact h
  | cons first others => simp [entries]

/-- The first entry that differs is nowhere. -/
theorem isSelected_eq_of_entries_eq {entry : Candidate → Bool → String}
    {first second : Candidate → Bool} {candidates : List Candidate} {closing : List Char}
    (hclosing : closing.head? ≠ some ':') (hshows : ∀ candidate ∈ candidates, Shows entry candidate)
    (h : entries entry first candidates ++ closing = entries entry second candidates ++ closing) :
    ∀ candidate ∈ candidates, first candidate = second candidate := by
  induction candidates with
  | nil => simp
  | cons candidate others ih =>
    have hothers := ih fun other hother ↦ hshows other (List.mem_cons_of_mem candidate hother)
    have hshow := hshows candidate List.mem_cons_self
    simp only [entries, List.flatMap_cons, List.append_assoc, List.append_cancel_left_eq] at h
    have hsame : first candidate = second candidate := by
      cases hfirst : first candidate <;> cases hsecond : second candidate
      · rfl
      · rw [hfirst, hsecond] at h
        exact absurd h.symm (hshow _ _ (head?_entries_append hclosing))
      · rw [hfirst, hsecond] at h
        exact absurd h (hshow _ _ (head?_entries_append hclosing))
      · rfl
    rw [hsame, List.append_cancel_left_eq] at h
    intro other hother
    rcases List.mem_cons.mp hother with rfl | hother
    · exact hsame
    · exact hothers h other hother

theorem shows_tupleEntry {fields : List Field} {candidate : Candidate}
    (h : candidate ∈ (Body.tuple fields).candidates) : Shows Candidate.tupleEntry candidate := by
  intro back other _ heq
  obtain ⟨position, _, rfl⟩ := List.mem_mapIdx.mp h
  simp [Candidate.tupleEntry, Field.positionalCandidate, placeholder] at heq

theorem shows_namedEntry {body : Body} {candidate : Candidate} (h : candidate ∈ body.candidates) :
    Shows Candidate.namedEntry candidate := by
  intro back other hback heq
  have hname := Body.accessor_eq_binding h
  simp only [Candidate.namedEntry, hname, Bool.not_true, Bool.false_eq_true, if_false, if_true,
    Bool.not_false, String.toList_append, List.append_assoc, List.append_cancel_left_eq] at heq
  rw [heq] at hback
  exact hback rfl

/-! ## The literal -/

/-- Two lists of entries between the same brackets. -/
theorem isSelected_eq_of_commaSeparated_eq {entry : Candidate → Bool → String}
    {first second : Candidate → Bool} {candidates : List Candidate} {opening closing : String}
    (hclosing : closing.toList.head? ≠ some ':')
    (hshows : ∀ candidate ∈ candidates, Shows entry candidate)
    (h : opening ++ commaSeparated (candidates.map fun c ↦ entry c (first c)) ++ closing =
      opening ++ commaSeparated (candidates.map fun c ↦ entry c (second c)) ++ closing) :
    ∀ candidate ∈ candidates, first candidate = second candidate := by
  by_cases hnone : candidates = []
  · simp [hnone]
  · refine isSelected_eq_of_entries_eq hclosing hshows ?_
    have hlist := congrArg String.toList h
    simp only [String.toList_append, List.append_cancel_left_eq, List.append_assoc] at hlist
    rw [entries, entries, ← toList_commaSeparated _ hnone, ← toList_commaSeparated _ hnone,
      List.append_assoc, List.append_assoc, hlist]

theorem contains_eq_of_literal_eq {body : Body} {name : String} {first second : List Candidate}
    (h : literal name body.shape body.candidates first =
      literal name body.shape body.candidates second) :
    ∀ candidate ∈ body.candidates, first.contains candidate = second.contains candidate := by
  match body with
  | .unit => simp [Body.candidates]
  | .tuple [] => simp [Body.candidates]
  | .named [] => simp [Body.candidates]
  | .tuple (field :: others) =>
    exact isSelected_eq_of_commaSeparated_eq (by decide) (fun _ ↦ shows_tupleEntry) h
  | .named (field :: others) =>
    exact isSelected_eq_of_commaSeparated_eq (by decide) (fun _ ↦ shows_namedEntry) h

/-! ## The function -/

/-- Texts with a line feed go on alike behind their first lines. -/
theorem eq_of_append_lineFeed_eq {front other back rest : List Char} (hfront : '\n' ∉ front)
    (hother : '\n' ∉ other) (h : front ++ '\n' :: back = other ++ '\n' :: rest) : back = rest := by
  have hbehind := congrArg (List.dropWhile (· ≠ '\n')) h
  rw [Text.dropWhile_append_of_lineFeed_not_mem hfront,
    Text.dropWhile_append_of_lineFeed_not_mem hother, List.dropWhile_cons_of_neg (by simp),
    List.dropWhile_cons_of_neg (by simp)] at hbehind
  exact (List.cons.inj hbehind).2

/-- The first line of a function. -/
def firstLine (candidates selected : List Candidate) : String :=
  "pub fn new(" ++ commaSeparated ((candidates.filter selected.contains).map Candidate.parameter) ++
    ") -> Self \x7b"

theorem lineFeed_not_mem_firstLine {body : Body}
    (h : ∀ field ∈ body.fields, ∀ ident ∈ field.ident, '\n' ∉ ident.toList)
    (selected : List Candidate) : '\n' ∉ (firstLine body.candidates selected).toList := by
  let p (c : Char) : Prop := c ≠ '\n'
  have hp : ∀ c, Text.isGraphic c = true → p c := by
    rintro c hc rfl
    exact absurd hc (by decide)
  have hidents : ∀ field ∈ body.fields, ∀ ident ∈ field.ident, Over p ident.toList :=
    fun field hfield ident hident c hc heq ↦ h field hfield ident hident (heq ▸ hc)
  have hline : Over p (firstLine body.candidates selected).toList := by
    simp only [firstLine, String.toList_append, Text.over_append]
    refine ⟨⟨.of_all hp (by decide), ?_⟩, .of_all hp (by decide)⟩
    refine over_commaSeparated hp fun candidate hkept ↦ ?_
    have hcandidate := List.mem_of_mem_filter hkept
    obtain ⟨field, _, htype⟩ := Body.exists_typeText hcandidate
    simp only [Candidate.parameter, String.toList_append, Text.over_append]
    refine ⟨⟨Body.over_binding hp hidents hcandidate, .of_all hp (by decide)⟩, ?_⟩
    intro c hc heq
    exact lineFeed_not_mem_oneLineType field.typeText (htype ▸ heq ▸ hc)
  exact fun hmem ↦ hline '\n' hmem rfl

theorem toList_functionText (name : String) (shape : Shape) (candidates selected : List Candidate) :
    (functionText name shape candidates selected).toList =
      (firstLine candidates selected).toList ++ '\n' :: ("    ".toList ++
        ((literal name shape candidates selected).toList ++ "\n\x7d".toList)) := by
  have hbrace : ") -> Self \x7b\n    ".toList =
      ") -> Self \x7b".toList ++ '\n' :: "    ".toList := rfl
  simp only [functionText, firstLine, String.toList_append, hbrace, List.append_assoc,
    List.cons_append]

theorem literal_eq_of_functionText_eq {body : Body} {name : String}
    {first second : List Candidate}
    (hidents : ∀ field ∈ body.fields, ∀ ident ∈ field.ident, '\n' ∉ ident.toList)
    (h : functionText name body.shape body.candidates first =
      functionText name body.shape body.candidates second) :
    literal name body.shape body.candidates first =
      literal name body.shape body.candidates second := by
  have hlist := congrArg String.toList h
  rw [toList_functionText, toList_functionText] at hlist
  have hbehind := eq_of_append_lineFeed_eq (lineFeed_not_mem_firstLine hidents first)
    (lineFeed_not_mem_firstLine hidents second) hlist
  rw [List.append_cancel_left_eq, List.append_cancel_right_eq] at hbehind
  exact String.toList_inj.mp hbehind

/-- Candidates are looked for in the selection one by one, so only its members matter. -/
theorem functionText_congr {name : String} {shape : Shape}
    {candidates first second : List Candidate} (h : ∀ c, c ∈ first ↔ c ∈ second) :
    functionText name shape candidates first = functionText name shape candidates second := by
  have hsame : ∀ candidate, first.contains candidate = second.contains candidate := by
    intro candidate
    rw [Bool.eq_iff_iff, List.contains_iff_mem, List.contains_iff_mem]
    exact h candidate
  simp only [functionText, literal, hsame, funext hsame]

end Constructor

/-- Two selections among the candidates give the same function exactly if they have the same
members, whatever the types are and also if fields agree in name and type. -/
theorem Declaration.functionText?_eq_iff (declaration : Declaration)
    (hidents : ∀ field ∈ declaration.body.fields, ∀ ident ∈ field.ident, '\n' ∉ ident.toList)
    {first second : List Candidate} (hfirst : first ⊆ declaration.analysis.candidates)
    (hsecond : second ⊆ declaration.analysis.candidates) :
    let emit (selected : List Candidate) :=
      Constructor.functionText? declaration.analysis.name declaration.analysis.shape
        declaration.analysis.candidates selected
    (emit first).isSome ∧ (emit second).isSome ∧
      (emit first = emit second ↔ ∀ c, c ∈ first ↔ c ∈ second) := by
  intro emit
  have hemitFirst : emit first = some _ := Constructor.functionText?_of_subset hfirst
  have hemitSecond : emit second = some _ := Constructor.functionText?_of_subset hsecond
  refine ⟨by rw [hemitFirst]; rfl, by rw [hemitSecond]; rfl, ?_⟩
  rw [hemitFirst, hemitSecond, Option.some.injEq]
  constructor
  · intro h candidate
    have hcontains := Constructor.contains_eq_of_literal_eq
      (Constructor.literal_eq_of_functionText_eq hidents h)
    constructor
    · intro hmem
      have heq := hcontains candidate (hfirst hmem)
      rw [List.contains_iff_mem.mpr hmem] at heq
      exact List.contains_iff_mem.mp heq.symm
    · intro hmem
      have heq := hcontains candidate (hsecond hmem)
      rw [List.contains_iff_mem.mpr hmem] at heq
      exact List.contains_iff_mem.mp heq
  · exact Constructor.functionText_congr

/-- Two fields of one name, with a type that looks like the entries of a literal. -/
theorem Declaration.functionText?_eq_iff_of_equal_fields :
    let field : Field := ⟨some "a", some "(), a: () \x7d"⟩
    let declaration : Declaration := ⟨"S", none, .named [field, field]⟩
    let candidate (position : Nat) : Candidate := ⟨position, "a", "a", "(), a: () \x7d"⟩
    let emit (selected : List Candidate) :=
      Constructor.functionText? declaration.analysis.name declaration.analysis.shape
        declaration.analysis.candidates selected
    emit [candidate 1, candidate 0, candidate 1] = emit [candidate 0, candidate 1] ∧
      emit [candidate 0] ≠ emit [candidate 1] := by
  intro field declaration candidate emit
  have hidents : ∀ field ∈ declaration.body.fields, ∀ ident ∈ field.ident,
      '\n' ∉ ident.toList := by
    simp [declaration, field, Body.fields]
  have hcandidates : declaration.analysis.candidates = [candidate 0, candidate 1] := by
    decide +kernel
  constructor
  · refine (declaration.functionText?_eq_iff hidents ?_ ?_).2.2.mpr ?_
    · simp [hcandidates]
    · simp [hcandidates]
    · intro c
      simp only [List.mem_cons]
      tauto
  · refine mt (declaration.functionText?_eq_iff hidents ?_ ?_).2.2.mp ?_
    · simp [hcandidates]
    · simp [hcandidates]
    · exact fun h ↦ absurd ((h (candidate 0)).mp List.mem_cons_self) (by simp [candidate])

end Memberwise
