import Memberwise.Proofs.Constructor.ByPosition
import Memberwise.Proofs.Selection.Naming
import Mathlib.Algebra.Group.Nat.Defs

/-!
# Generating from a named selection

However a selection is named, the same constructor is generated: from positions that a presenter
answers with, from names in a script, and from names or numbers on a line at the prompt.
-/

namespace Memberwise.Declaration

theorem length_candidates (declaration : Declaration) :
    declaration.analysis.candidates.length = declaration.body.fields.length :=
  declaration.body.length_candidates

theorem generate_fst_of_chosen {σ : Type} {presenter : Presenter σ} {declaration : Declaration}
    {positions : List (Fin declaration.analysis.candidates.length)} (hne : positions ≠ [])
    {state : σ} (hanswer : (presenter declaration.analysis.candidates state).1 =
      .ok (.chosen (positions.map Fin.val))) :
    (declaration.generate presenter state).1 =
      .ok (.emitted (Generation.constructorFor declaration.analysis
        (Selection.atPositions declaration.analysis.candidates (positions.map Fin.val)))) := by
  obtain ⟨first, others, hpositions⟩ := List.exists_cons_of_ne_nil hne
  have hlength := declaration.length_candidates
  have hfields : declaration.body.fields ≠ [] := by
    intro hnil
    rw [hnil] at hlength
    exact absurd first.isLt (by simp [hlength])
  have hrange : ∀ index ∈ positions.map Fin.val, index < declaration.body.fields.length := by
    intro index hindex
    obtain ⟨i, _, rfl⟩ := List.mem_map.mp hindex
    exact hlength ▸ i.isLt
  have hresult : presenter declaration.analysis.candidates state =
      (.ok (.chosen (positions.map Fin.val)),
        (presenter declaration.analysis.candidates state).2) := by
    rw [← hanswer]
  exact congrArg Prod.fst (generate_of_chosen hfields hresult hrange)

/-- Every way to name a selection gives the same constructor: positions, names in a script, and
names or numbers on the next line at the prompt, however they are joined. A number must not be the
name of a field. -/
theorem generate_of_every_naming (declaration : Declaration)
    (hnames : ∀ fields, declaration.body = .named fields →
      Nameable declaration.analysis.candidates)
    (hcount : declaration.body.fields.length < 2 ^ 64)
    (positions : List (Fin declaration.analysis.candidates.length)) (hne : positions ≠ []) :
    ∃ built : Constructor,
      built.parameters =
        Selection.atPositions declaration.analysis.candidates (positions.map Fin.val) ∧
      (∀ {σ : Type} (presenter : Presenter σ) (state : σ),
        (presenter declaration.analysis.candidates state).1 =
          .ok (.chosen (positions.map Fin.val)) →
        (declaration.generate presenter state).1 = .ok (.emitted built)) ∧
      (declaration.generate Scripted.present (Scripted.start (.names
        (positions.map fun i ↦ (declaration.analysis.candidates.get i).binding)))).1 =
          .ok (.emitted built) ∧
      (∀ (prompt : Prompt) (line : List Char), prompt.Takes declaration.analysis.candidates →
        prompt.NextLine line →
        Text.Joined Answer.InGap (positions.map fun i ↦
          (declaration.analysis.candidates.get i).binding.toList) line →
        (declaration.generate Prompt.present prompt).1 = .ok (.emitted built)) ∧
      ∀ (prompt : Prompt) (line : List Char), prompt.Takes declaration.analysis.candidates →
        prompt.NextLine line →
        Text.Joined Answer.InGap (positions.map fun i ↦ Text.decimal (i.val + 1)) line →
        (∀ i ∈ positions, ∀ candidate ∈ declaration.analysis.candidates,
          candidate.binding ≠ toString (i.val + 1)) →
        (declaration.generate Prompt.present prompt).1 = .ok (.emitted built) := by
  have hnameable : Nameable declaration.analysis.candidates := by
    obtain ⟨name, generics, body⟩ := declaration
    cases body with
    | unit => exact ⟨List.nodup_nil, by simp [analysis, Body.candidates],
        by simp [analysis, Body.candidates]⟩
    | tuple fields => exact nameable_tuple fields
    | named fields => exact hnames fields rfl
  have hlimit : declaration.analysis.candidates.length < Text.numeralLimit :=
    declaration.length_candidates ▸ hcount
  refine ⟨Generation.constructorFor declaration.analysis
    (Selection.atPositions declaration.analysis.candidates (positions.map Fin.val)), rfl,
    ?_, ?_, ?_, ?_⟩
  · intro σ presenter state hanswer
    exact generate_fst_of_chosen hne hanswer
  · apply generate_fst_of_chosen hne
    rw [Scripted.present, Scripted.start]
    simp only [Script.response, Script.indicesOfNames_get hnameable positions]
    rfl
  · intro prompt line htakes hline hjoined
    apply generate_fst_of_chosen hne
    exact Prompt.present_of_joined htakes hline hjoined (Answer.names_ne_nil hnameable)
      (Answer.names_not_isSeparator hnameable)
      fun blanks hblanks ↦ Answer.read_of_names hnameable hjoined hblanks
  · intro prompt line htakes hline hjoined hnumber
    apply generate_fst_of_chosen hne
    exact Prompt.present_of_joined htakes hline hjoined Answer.numbers_ne_nil
      Answer.numbers_not_isSeparator
      fun blanks hblanks ↦ Answer.read_of_numbers hnameable hlimit hjoined hblanks hnumber

/-- Two of three fields that are named like keywords, one of them named twice. -/
theorem generate_of_every_naming_of_keywords :
    let field (name : String) : Field := ⟨some name, some "u8"⟩
    let declaration : Declaration := ⟨"S", none, .named [field "all", field "none", field "q"]⟩
    let typed (line : String) : Prompt :=
      Prompt.start "S" false none (Prompt.encode line.toList ++ [10])
    ∃ built : Constructor,
      built.parameters = [⟨0, "all", "all", "u8"⟩, ⟨2, "q", "q", "u8"⟩] ∧
      (declaration.generate (fun _ asked ↦ (.ok (.chosen [2, 0, 2]), asked + 1)) 0).1 =
        .ok (.emitted built) ∧
      (declaration.generate Scripted.present (Scripted.start (.names ["q", "all", "q"]))).1 =
        .ok (.emitted built) ∧
      (declaration.generate Prompt.present (typed "q ,\tall,  q")).1 = .ok (.emitted built) ∧
      (declaration.generate Prompt.present (typed "3 1,3")).1 = .ok (.emitted built) := by
  intro field declaration typed
  have hfree : (declaration.analysis.candidates.all fun candidate ↦
      candidate.binding.toList.all fun c ↦ !Answer.isSeparator c) = true := by decide
  have hnameable : Nameable declaration.analysis.candidates :=
    ⟨by decide, by decide, fun candidate hcandidate c hc ↦ by
      simpa using List.all_eq_true.mp (List.all_eq_true.mp hfree candidate hcandidate) c hc⟩
  have hgap (gap : List Char) (h : (gap.all fun c ↦ decide (Answer.InGap c)) = true) :
      ∀ c ∈ gap, Answer.InGap c := by
    intro c hc
    simpa using List.all_eq_true.mp h c hc
  let positions : List (Fin declaration.analysis.candidates.length) :=
    [⟨2, by decide⟩, ⟨0, by decide⟩, ⟨2, by decide⟩]
  obtain ⟨built, hparameters, hchosen, hscript, htyped, hnumbers⟩ :=
    generate_of_every_naming declaration (fun _ _ ↦ hnameable) (by decide) positions (by simp)
  have htakes (line : String) : (typed line).Takes declaration.analysis.candidates := rfl
  have hnext (line : String) : (typed line).NextLine line.toList := ⟨[10], Or.inr rfl, rfl⟩
  have hnames : (positions.map fun i ↦ (declaration.analysis.candidates.get i).binding) =
      ["q", "all", "q"] := by decide +kernel
  have hpieces : (positions.map fun i ↦ (declaration.analysis.candidates.get i).binding.toList) =
      [['q'], ['a', 'l', 'l'], ['q']] := by decide +kernel
  have hdigits : (positions.map fun i ↦ Text.decimal (i.val + 1)) = [['3'], ['1'], ['3']] := by
    decide +kernel
  have htypedLine : Text.Joined Answer.InGap [['q'], ['a', 'l', 'l'], ['q']]
      (['q'] ++ [' ', ',', '\t'] ++ (['a', 'l', 'l'] ++ [',', ' ', ' '] ++ ['q'])) :=
    .cons _ (by simp) (hgap _ (by decide)) (.cons _ (by simp) (hgap _ (by decide)) (.single _))
  have hnumbersLine : Text.Joined Answer.InGap [['3'], ['1'], ['3']]
      (['3'] ++ [' '] ++ (['1'] ++ [','] ++ ['3'])) :=
    .cons _ (by simp) (hgap _ (by decide)) (.cons _ (by simp) (hgap _ (by decide)) (.single _))
  rw [hnames] at hscript
  rw [hpieces] at htyped
  rw [hdigits] at hnumbers
  refine ⟨built, hparameters.trans ?_, hchosen _ 0 rfl, hscript,
    htyped _ _ (htakes _) (hnext _) htypedLine,
    hnumbers _ _ (htakes _) (hnext _) hnumbersLine ?_⟩
  · decide +kernel
  · decide +kernel

end Memberwise.Declaration
