import Memberwise.Proofs.Generation.Session

/-!
# The life of a generation

What holds of a session after every run, whatever was called and whatever the presenters answered.
Between two calls a generation is in one of six stages, it keeps its analysis, and its selection is
a part of the candidates. `Orderly` adds to this invariant what the next call does.
-/

namespace Memberwise

/-- The steps that succeeded in a generation at this stage, in order. -/
def Stage.past : Stage → List Step
  | idle | analyzed | awaitingSelection | failed => []
  | cancelled | selected => [.select]
  | emitted => [.select, .emit]
  | inserted => [.select, .emit, .markInserted]

theorem Stage.past_prefix (stage : Stage) : stage.past <+: [.select, .emit, .markInserted] := by
  cases stage <;> decide

namespace Session

variable {σ : Type}

/-- The stages between two calls. -/
def restingStages : List Stage :=
  [.analyzed, .cancelled, .failed, .selected, .emitted, .inserted]

/-- The resting stages without a selection. -/
def unselectedStages : List Stage := [.analyzed, .cancelled, .failed]

/-- The invariant of a session for `declaration`. -/
structure Coherent (declaration : Declaration) (generation : Generation) : Prop where
  stage_mem : generation.stage ∈ restingStages
  analysis_eq : generation.analysis = declaration.analysis
  selection_sublist : generation.selection.Sublist declaration.analysis.candidates
  selection_eq_nil : generation.stage ∈ unselectedStages → generation.selection = []

theorem coherent_start (declaration : Declaration) : Coherent declaration (.start declaration) where
  stage_mem := show Stage.analyzed ∈ restingStages by decide
  analysis_eq := rfl
  selection_sublist := List.nil_sublist _
  selection_eq_nil _ := rfl

namespace Coherent

variable {declaration : Declaration} {generation : Generation}

theorem selection_eq_nil_of_analyzed (h : Coherent declaration generation)
    (hstage : generation.stage = .analyzed) : generation.selection = [] :=
  h.selection_eq_nil (by rw [hstage]; decide)

/-- Emission always has a constructor to give: nothing foreign is ever selected. -/
theorem constructor?_eq_some (h : Coherent declaration generation) :
    Generation.constructor? generation.analysis generation.selection =
      some (Generation.constructorFor generation.analysis generation.selection) := by
  apply Generation.constructor?_of_subset
  rw [h.analysis_eq]
  exact h.selection_sublist.subset

/-- A selection that did not come about leaves the generation without one. -/
theorem unselected (h : Coherent declaration generation) {stage : Stage}
    (hbefore : generation.stage = .analyzed) (hafter : stage ∈ restingStages) :
    Coherent declaration { generation with stage } where
  stage_mem := hafter
  analysis_eq := h.analysis_eq
  selection_sublist := h.selection_sublist
  selection_eq_nil _ := h.selection_eq_nil_of_analyzed hbefore

/-- A generation with a selection may move on to every stage that has one. -/
theorem advanced (h : Coherent declaration generation) {stage : Stage}
    (hafter : stage ∈ restingStages) (hselected : stage ∉ unselectedStages) :
    Coherent declaration { generation with stage } where
  stage_mem := hafter
  analysis_eq := h.analysis_eq
  selection_sublist := h.selection_sublist
  selection_eq_nil hmem := absurd hmem hselected

theorem selected (h : Coherent declaration generation) {chosen : List Candidate}
    (hchosen : chosen.Sublist declaration.analysis.candidates) :
    Coherent declaration { generation with stage := .selected, selection := chosen } where
  stage_mem := show Stage.selected ∈ restingStages by decide
  analysis_eq := h.analysis_eq
  selection_sublist := hchosen
  selection_eq_nil hmem := absurd hmem (show Stage.selected ∉ unselectedStages by decide)

end Coherent

/-- What the next call does in a session for `declaration`. -/
structure Orderly (declaration : Declaration) (session : Session σ) : Prop
    extends Coherent declaration session.generation where
  refuses (call : Call σ) :
    session.generation.stage ≠ call.step.requiredStage →
      session.perform call =
        (.error (.outOfOrder session.generation.stage call.step), session)
  selects (presenter : Presenter σ) :
    session.generation.stage = .analyzed →
      session.perform (.select presenter) =
        match Selection.request presenter declaration.analysis.candidates session.presenters with
        | (.error cause, next) =>
          (.error (.selection cause), ⟨⟨.failed, declaration.analysis, []⟩, next⟩)
        | (.ok .cancelled, next) =>
          (.ok (.reached .cancelled), ⟨⟨.cancelled, declaration.analysis, []⟩, next⟩)
        | (.ok (.selected chosen), next) =>
          (.ok (.reached .selected), ⟨⟨.selected, declaration.analysis, chosen⟩, next⟩)
  emits :
    session.generation.stage = .selected →
      ∃ built, session.perform .emit =
        (.ok (.built built),
          { session with generation := { session.generation with stage := .emitted } })
  inserts :
    session.generation.stage = .emitted →
      session.perform .markInserted =
        (.ok .noted,
          { session with generation := { session.generation with stage := .inserted } })

theorem Coherent.orderly {declaration : Declaration} {session : Session σ}
    (h : Coherent declaration session.generation) : Orderly declaration session where
  toCoherent := h
  refuses _ := perform_of_stage_ne
  selects presenter hstage := by
    obtain ⟨⟨stage, analysis, selection⟩, presenters⟩ := session
    obtain rfl : analysis = declaration.analysis := h.analysis_eq
    obtain rfl : selection = [] := h.selection_eq_nil_of_analyzed hstage
    rcases hrequest : Selection.request presenter declaration.analysis.candidates presenters
      with ⟨_ | _ | _, next⟩
    · exact perform_select_of_error hstage hrequest
    · exact perform_select_of_selected hstage hrequest
    · exact perform_select_of_cancelled hstage hrequest
  emits hstage := ⟨_, perform_emit_of_constructor hstage h.constructor?_eq_some⟩
  inserts := perform_markInserted_of_stage_eq

/-! ## One call -/

/-- Every call keeps the invariant, and adds its step to those that succeeded if it succeeds. -/
theorem Coherent.perform {declaration : Declaration} {session : Session σ}
    (h : Coherent declaration session.generation) (call : Call σ) :
    Coherent declaration (session.perform call).2.generation ∧
      (session.perform call).2.generation.stage.past =
        session.generation.stage.past ++
          if (session.perform call).1.isOk then [call.step] else [] := by
  by_cases hstage : session.generation.stage = call.step.requiredStage
  · cases call with
    | select presenter =>
      have hpast : session.generation.stage.past = [] := by rw [hstage]; rfl
      rcases hrequest : Selection.request presenter session.generation.analysis.candidates
          session.presenters with ⟨cause | chosen | _, next⟩
      · rw [perform_select_of_error hstage hrequest, hpast]
        exact ⟨h.unselected hstage (by decide), rfl⟩
      · have hchosen := Selection.sublist_of_request_eq_selected hrequest
        rw [h.analysis_eq] at hchosen
        rw [perform_select_of_selected hstage hrequest, hpast]
        exact ⟨h.selected hchosen, rfl⟩
      · rw [perform_select_of_cancelled hstage hrequest, hpast]
        exact ⟨h.unselected hstage (by decide), rfl⟩
    | emit =>
      rw [perform_emit_of_constructor hstage h.constructor?_eq_some, hstage]
      exact ⟨h.advanced (by decide) (by decide), rfl⟩
    | markInserted =>
      rw [perform_markInserted_of_stage_eq hstage, hstage]
      exact ⟨h.advanced (by decide) (by decide), rfl⟩
  · rw [perform_of_stage_ne hstage]
    exact ⟨h, (List.append_nil _).symm⟩

/-! ## Runs -/

/-- The steps whose calls succeeded, in order. -/
def accepted (calls : List (Call σ)) (replies : List (Except GenerationError Reply)) : List Step :=
  ((calls.zip replies).filter fun entry ↦ entry.2.isOk).map fun entry ↦ entry.1.step

theorem accepted_cons (call : Call σ) (calls : List (Call σ))
    (reply : Except GenerationError Reply) (replies : List (Except GenerationError Reply)) :
    accepted (call :: calls) (reply :: replies) =
      (if reply.isOk then [call.step] else []) ++ accepted calls replies := by
  cases h : reply.isOk <;> simp [accepted, h]

theorem Coherent.run {declaration : Declaration} {session : Session σ}
    (h : Coherent declaration session.generation) (calls : List (Call σ)) :
    Coherent declaration (session.run calls).2.generation ∧
      (session.run calls).2.generation.stage.past =
        session.generation.stage.past ++ accepted calls (session.run calls).1 := by
  induction calls generalizing session with
  | nil => exact ⟨h, (List.append_nil _).symm⟩
  | cons call calls ih =>
    obtain ⟨hnext, hpast⟩ := h.perform call
    obtain ⟨hlast, hrest⟩ := ih hnext
    refine ⟨hlast, ?_⟩
    rw [run_cons, hrest, hpast, accepted_cons, List.append_assoc]

/-- After every run the session is orderly, and the calls that succeeded were those of the three
steps in their order, each made at most once. -/
theorem run_start_orderly (declaration : Declaration) (presenters : σ) (calls : List (Call σ)) :
    Orderly declaration ((start declaration presenters).run calls).2 ∧
      accepted calls ((start declaration presenters).run calls).1 <+:
        [.select, .emit, .markInserted] := by
  have hstart : Coherent declaration (start declaration presenters).generation :=
    coherent_start declaration
  obtain ⟨hlast, hpast⟩ := hstart.run calls
  refine ⟨hlast.orderly, ?_⟩
  have hnone : (start declaration presenters).generation.stage.past = [] := rfl
  rw [hnone, List.nil_append] at hpast
  rw [← hpast]
  exact Stage.past_prefix _

end Session

end Memberwise
