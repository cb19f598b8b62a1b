import Memberwise.Generation
import Memberwise.Proofs.Selection.Positions

/-!
# Constructors by position

The text of a constructor decides for every candidate whether it was selected, by looking for an
equal one in the selection. Here the text is said once more, by positions alone: the parameters are
the fields at the answered positions, and the literal has one entry per field that depends on
nothing but whether its position was answered.

The main statement: both are the same text, whatever the names and types of the fields, also if
several fields agree in both.
-/

namespace Memberwise

open Selection (atPositions Positioned)

theorem Body.accessor_eq_binding {body : Body} {candidate : Candidate}
    (h : candidate ∈ body.candidates) : candidate.accessor = candidate.binding := by
  cases body with
  | unit => simp [candidates] at h
  | tuple fields =>
    obtain ⟨position, _, rfl⟩ := List.mem_mapIdx.mp h
    rfl
  | named fields =>
    obtain ⟨position, _, rfl⟩ := List.mem_mapIdx.mp h
    rfl

theorem Body.candidates_eq_nil_iff {body : Body} : body.candidates = [] ↔ body.fields = [] := by
  rw [← List.length_eq_zero_iff, body.length_candidates, List.length_eq_zero_iff]

theorem Body.shape_of_fields_eq_nil {body : Body} (h : body.fields = []) : body.shape = .unit := by
  cases body with
  | unit => rfl
  | tuple fields =>
    rw [show fields = [] from h]
    rfl
  | named fields =>
    rw [show fields = [] from h]
    rfl

namespace Constructor

/-- One text per candidate, chosen by whether its position is among `indices`. -/
def entriesAt (candidates : List Candidate) (indices : List Nat)
    (given omitted : Candidate → String) : List String :=
  List.ofFn fun i : Fin candidates.length ↦
    if i.val ∈ indices then given (candidates.get i) else omitted (candidates.get i)

/-- The struct literal of a declaration whose fields at `indices` are given. -/
def literalAt (declaration : Declaration) (indices : List Nat) : String :=
  let entries := entriesAt declaration.body.candidates indices Candidate.binding
  match declaration.body with
  | .unit => declaration.name ++ " \x7b\x7d"
  | .tuple _ => declaration.name ++ "(" ++ ", ".intercalate (entries fun _ ↦ "()") ++ ")"
  | .named _ =>
    declaration.name ++ " \x7b " ++
      ", ".intercalate (entries fun candidate ↦ candidate.accessor ++ ": ()") ++ " \x7d"

/-- The function of a declaration whose fields at `indices` are given. -/
def functionAt (declaration : Declaration) (indices : List Nat) : String :=
  let parameters := (atPositions declaration.body.candidates indices).map fun candidate ↦
    candidate.binding ++ ": " ++ candidate.typeText
  "pub fn new(" ++ ", ".intercalate parameters ++ ") -> Self \x7b\n    " ++
    literalAt declaration indices ++ "\n\x7d"

/-- Looking for a candidate in the selection finds the same as looking for its position. -/
theorem map_contains_eq_entriesAt {candidates : List Candidate}
    (hpositioned : Positioned candidates) (indices : List Nat)
    (entry : Candidate → Bool → String) (given omitted : Candidate → String)
    (hgiven : ∀ candidate ∈ candidates, entry candidate true = given candidate)
    (homitted : ∀ candidate ∈ candidates, entry candidate false = omitted candidate) :
    (candidates.map fun candidate ↦
        entry candidate ((atPositions candidates indices).contains candidate)) =
      entriesAt candidates indices given omitted := by
  apply List.ext_getElem
  · simp [entriesAt]
  · intro i hleft hright
    have hi : i < candidates.length := by simpa using hleft
    have hmem : candidates[i] ∈ candidates := List.getElem_mem hi
    have hselected : candidates[i] ∈ atPositions candidates indices ↔ i ∈ indices :=
      hpositioned.get_mem_atPositions indices ⟨i, hi⟩
    simp only [List.getElem_map, entriesAt, List.getElem_ofFn, List.get_eq_getElem]
    by_cases hindex : i ∈ indices
    · rw [List.contains_iff_mem.mpr (hselected.mpr hindex), hgiven _ hmem, if_pos hindex]
    · have hcontains : (atPositions candidates indices).contains candidates[i] = false := by
        simpa using mt hselected.mp hindex
      rw [hcontains, homitted _ hmem, if_neg hindex]

theorem literal_atPositions (declaration : Declaration) (indices : List Nat)
    (h : declaration.body.fields ≠ []) :
    literal declaration.name declaration.body.shape declaration.body.candidates
        (atPositions declaration.body.candidates indices) =
      literalAt declaration indices := by
  obtain ⟨name, generics, body⟩ := declaration
  have hpositioned := Selection.positioned_candidates body
  cases body with
  | unit => exact absurd rfl h
  | tuple fields =>
    cases fields with
    | nil => exact absurd rfl h
    | cons first others =>
      have hentries := map_contains_eq_entriesAt hpositioned indices
        Candidate.tupleEntry Candidate.binding (fun _ ↦ "()") (fun _ _ ↦ rfl) (fun _ _ ↦ rfl)
      simp only [literal, Body.shape, literalAt, commaSeparated, hentries]
  | named fields =>
    cases fields with
    | nil => exact absurd rfl h
    | cons first others =>
      have hgiven : ∀ candidate ∈ (Body.named (first :: others)).candidates,
          candidate.namedEntry true = candidate.binding := by
        intro candidate hcandidate
        simp [Candidate.namedEntry, Body.accessor_eq_binding hcandidate]
      have hentries := map_contains_eq_entriesAt hpositioned indices
        Candidate.namedEntry Candidate.binding (fun candidate ↦ candidate.accessor ++ ": ()")
        hgiven (fun _ _ ↦ by simp [Candidate.namedEntry, placeholder, String.append_assoc])
      simp only [literal, Body.shape, literalAt, commaSeparated, hentries]

theorem functionText_atPositions (declaration : Declaration) (indices : List Nat)
    (h : declaration.body.fields ≠ []) :
    functionText declaration.name declaration.body.shape declaration.body.candidates
        (atPositions declaration.body.candidates indices) =
      functionAt declaration indices := by
  have hparameters := (Selection.positioned_candidates declaration.body).filter_contains indices
  rw [functionText, hparameters, literal_atPositions declaration indices h]
  rfl

end Constructor

namespace Declaration

theorem generate_of_fields_eq_nil {σ : Type} {presenter : Presenter σ} {declaration : Declaration}
    (state : σ) (h : declaration.body.fields = []) :
    declaration.generate presenter state =
      (.ok (.emitted (Generation.constructorFor declaration.analysis [])), state) := by
  have hcandidates : declaration.analysis.candidates = [] := Body.candidates_eq_nil_iff.mpr h
  apply generate_of_selected
  rw [hcandidates, Selection.request_nil]

theorem generate_of_chosen {σ : Type} {presenter : Presenter σ} {declaration : Declaration}
    {indices : List Nat} {state next : σ} (h : declaration.body.fields ≠ [])
    (hanswer : presenter declaration.analysis.candidates state = (.ok (.chosen indices), next))
    (hrange : ∀ index ∈ indices, index < declaration.body.fields.length) :
    declaration.generate presenter state =
      (.ok (.emitted (Generation.constructorFor declaration.analysis
        (atPositions declaration.body.candidates indices))), next) := by
  have hne : declaration.analysis.candidates ≠ [] := mt Body.candidates_eq_nil_iff.mp h
  have hlength : ∀ index ∈ indices, index < declaration.analysis.candidates.length := by
    simpa [analysis] using hrange
  exact generate_of_selected (Selection.request_of_chosen hne hanswer hlength)

/-- A constructor is what the answered positions say, text included. Without fields it takes
nothing, and the presenter is not asked. -/
theorem generate_by_position {σ : Type} (presenter : Presenter σ) (declaration : Declaration)
    (state : σ) :
    (declaration.body.fields = [] →
      ∃ built, declaration.generate presenter state = (.ok (.emitted built), state) ∧
        built.parameters = [] ∧
        built.function =
          "pub fn new() -> Self \x7b\n    " ++ (declaration.name ++ " \x7b\x7d") ++ "\n\x7d") ∧
    (declaration.body.fields ≠ [] → ∀ indices next,
      presenter declaration.analysis.candidates state = (.ok (.chosen indices), next) →
      (∀ index ∈ indices, index < declaration.body.fields.length) →
      ∃ built, declaration.generate presenter state = (.ok (.emitted built), next) ∧
        built.parameters = atPositions declaration.analysis.candidates indices ∧
        built.function = Constructor.functionAt declaration indices) := by
  constructor
  · intro h
    refine ⟨_, generate_of_fields_eq_nil state h, rfl, ?_⟩
    have hcandidates : declaration.analysis.candidates = [] := Body.candidates_eq_nil_iff.mpr h
    have hshape : declaration.analysis.shape = .unit := Body.shape_of_fields_eq_nil h
    simp only [Generation.constructorFor, hcandidates, hshape]
    rfl
  · intro h indices next hanswer hrange
    exact ⟨_, generate_of_chosen h hanswer hrange, rfl,
      Constructor.functionText_atPositions declaration indices h⟩

/-- Of two fields that agree in name and type the second is selected, twice; and a struct without
fields is not asked about. -/
theorem generate_by_position_of_equal_fields :
    let field : Field := ⟨some "a", some "u8"⟩
    let declaration (fields : List Field) : Declaration := ⟨"S", none, .named fields⟩
    let presenter : Presenter Nat := fun _ asked ↦ (.ok (.chosen [1, 1]), asked + 1)
    (∃ built, (declaration [field, field]).generate presenter 0 = (.ok (.emitted built), 1) ∧
      built.parameters = [⟨1, "a", "a", "u8"⟩] ∧
      built.function = "pub fn new(a: u8) -> Self \x7b\n    S \x7b a: (), a \x7d\n\x7d") ∧
    ∃ built, (declaration []).generate presenter 0 = (.ok (.emitted built), 0) ∧
      built.parameters = [] ∧
      built.function = "pub fn new() -> Self \x7b\n    S \x7b\x7d\n\x7d" := by
  intro field declaration presenter
  constructor
  · obtain ⟨built, hgenerate, hparameters, hfunction⟩ :=
      (generate_by_position presenter (declaration [field, field]) 0).2 (by decide) [1, 1] 1 rfl
        (by decide)
    refine ⟨built, hgenerate, hparameters.trans ?_, hfunction.trans ?_⟩
    · decide +kernel
    · decide +kernel
  · obtain ⟨built, hgenerate, hparameters, hfunction⟩ :=
      (generate_by_position presenter (declaration []) 0).1 rfl
    exact ⟨built, hgenerate, hparameters, hfunction⟩

end Declaration

end Memberwise
