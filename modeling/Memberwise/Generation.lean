import Memberwise.Constructor
import Memberwise.Selection

/-!
# Generating a constructor

A generation takes a declaration through selection and emission to insertion. Its steps have to come
in that order: a step that comes at another time is refused and changes nothing. Asking for the
selection can also end the generation, by cancellation or by an error of the presenter.
-/

namespace Memberwise

/-- How far a generation has come. -/
inductive Stage where
  | idle
  | analyzed
  | awaitingSelection
  | cancelled
  /-- The selection failed. -/
  | failed
  | selected
  | emitted
  | inserted
deriving DecidableEq, Repr

namespace Stage

/-- The stage as part of a sentence. -/
def text : Stage → String
  | idle => "idle"
  | analyzed => "analyzed"
  | awaitingSelection => "awaiting selection"
  | cancelled => "cancelled"
  | failed => "failed"
  | selected => "selected"
  | emitted => "emitted"
  | inserted => "inserted"

/-- The stage as one word. -/
def tag : Stage → String
  | awaitingSelection => "awaiting_selection"
  | stage => stage.text

end Stage

/-- A step of a generation. -/
inductive Step where
  | select
  | emit
  | markInserted
deriving DecidableEq, Repr

namespace Step

def text : Step → String
  | select => "negotiate"
  | emit => "emit"
  | markInserted => "mark as inserted"

/-- The only stage in which a step may be taken. -/
def requiredStage : Step → Stage
  | select => .analyzed
  | emit => .selected
  | markInserted => .emitted

end Step

/-- Why a step of a generation failed. -/
inductive GenerationError where
  | outOfOrder (stage : Stage) (step : Step)
  | selection (cause : SelectionError)
  /-- The selection holds a candidate that was not offered. -/
  | foreignSelection
deriving DecidableEq, Repr

namespace GenerationError

def message : GenerationError → String
  | outOfOrder stage step => "Cannot " ++ step.text ++ " while the pipeline is " ++ stage.text
  | selection cause => cause.message
  | foreignSelection => Constructor.foreignSelectionMessage

end GenerationError

/-- A generation under way. -/
structure Generation where
  stage : Stage
  analysis : Analysis
  /-- The selected candidates; none before the selection. -/
  selection : List Candidate
deriving DecidableEq, Repr

namespace Generation

def start (declaration : Declaration) : Generation := ⟨.analyzed, declaration.analysis, []⟩

/-- The generation while its presenter is asked. A struct without fields needs no question. -/
def asking (generation : Generation) : Generation :=
  if generation.analysis.candidates.isEmpty then generation
  else { generation with stage := .awaitingSelection }

@[simp] theorem asking_analysis (generation : Generation) :
    generation.asking.analysis = generation.analysis := by
  rw [asking]
  split <;> rfl

@[simp] theorem asking_selection (generation : Generation) :
    generation.asking.selection = generation.selection := by
  rw [asking]
  split <;> rfl

/-- Ask for the selection. The result is the stage that was reached. A struct without fields
reaches `selected` without a question. -/
def select {σ : Type} (presenter : Presenter σ) (generation : Generation) (state : σ) :
    Except GenerationError Stage × Generation × σ :=
  if generation.stage = Step.select.requiredStage then
    -- Each outcome sets a stage of its own, so only the presenter meets `awaitingSelection`.
    match Selection.request presenter generation.asking.analysis.candidates state with
    | (.error cause, next) =>
      (.error (.selection cause), { generation.asking with stage := .failed }, next)
    | (.ok .cancelled, next) =>
      (.ok .cancelled, { generation.asking with stage := .cancelled }, next)
    | (.ok (.selected chosen), next) =>
      (.ok .selected, { generation.asking with stage := .selected, selection := chosen }, next)
  else (.error (.outOfOrder generation.stage .select), generation, state)

theorem select_of_stage_ne {σ : Type} (presenter : Presenter σ) {generation : Generation}
    (state : σ) (h : generation.stage ≠ Step.select.requiredStage) :
    generation.select presenter state =
      (.error (.outOfOrder generation.stage .select), generation, state) := by
  rw [select, if_neg h]

section Asked

variable {σ : Type} {presenter : Presenter σ} {generation : Generation} {state next : σ}

theorem select_of_error {cause : SelectionError}
    (hstage : generation.stage = Step.select.requiredStage)
    (hrequest : Selection.request presenter generation.analysis.candidates state =
      (.error cause, next)) :
    generation.select presenter state =
      (.error (.selection cause), { generation with stage := .failed }, next) := by
  simp only [select, if_pos hstage, asking_analysis, asking_selection, hrequest]

theorem select_of_cancelled (hstage : generation.stage = Step.select.requiredStage)
    (hrequest : Selection.request presenter generation.analysis.candidates state =
      (.ok .cancelled, next)) :
    generation.select presenter state =
      (.ok .cancelled, { generation with stage := .cancelled }, next) := by
  simp only [select, if_pos hstage, asking_analysis, asking_selection, hrequest]

theorem select_of_selected {chosen : List Candidate}
    (hstage : generation.stage = Step.select.requiredStage)
    (hrequest : Selection.request presenter generation.analysis.candidates state =
      (.ok (.selected chosen), next)) :
    generation.select presenter state =
      (.ok .selected, { generation with stage := .selected, selection := chosen }, next) := by
  simp only [select, if_pos hstage, asking_analysis, hrequest]

end Asked

/-- The constructor for a selection. -/
def constructor? (analysis : Analysis) (selection : List Candidate) : Option Constructor :=
  (Constructor.functionText? analysis.name analysis.shape analysis.candidates selection).map
    fun function ↦
      ⟨analysis.name, analysis.shape, selection, function,
        Constructor.implBlockText analysis.name analysis.generics function⟩

/-- The constructor for a selection among the candidates. -/
def constructorFor (analysis : Analysis) (selection : List Candidate) : Constructor :=
  let function :=
    Constructor.functionText analysis.name analysis.shape analysis.candidates selection
  ⟨analysis.name, analysis.shape, selection, function,
    Constructor.implBlockText analysis.name analysis.generics function⟩

theorem constructor?_of_subset {analysis : Analysis} {selection : List Candidate}
    (h : selection ⊆ analysis.candidates) :
    constructor? analysis selection = some (constructorFor analysis selection) := by
  rw [constructor?, Constructor.functionText?_of_subset h]
  rfl

def emit (generation : Generation) : Except GenerationError Constructor × Generation :=
  if generation.stage = Step.emit.requiredStage then
    match constructor? generation.analysis generation.selection with
    | none => (.error .foreignSelection, generation)
    | some built => (.ok built, { generation with stage := .emitted })
  else (.error (.outOfOrder generation.stage .emit), generation)

theorem emit_of_stage_ne {generation : Generation}
    (h : generation.stage ≠ Step.emit.requiredStage) :
    generation.emit = (.error (.outOfOrder generation.stage .emit), generation) := by
  rw [emit, if_neg h]

theorem emit_of_constructor {generation : Generation} {built : Constructor}
    (hstage : generation.stage = Step.emit.requiredStage)
    (hbuilt : constructor? generation.analysis generation.selection = some built) :
    generation.emit = (.ok built, { generation with stage := .emitted }) := by
  rw [emit, if_pos hstage, hbuilt]

/-- What a constructor was emitted from, and what emission changed. -/
theorem emit_eq_ok_iff {generation next : Generation} {built : Constructor} :
    generation.emit = (.ok built, next) ↔
      generation.stage = Step.emit.requiredStage ∧
      constructor? generation.analysis generation.selection = some built ∧
      next = { generation with stage := .emitted } := by
  constructor
  · intro h
    rw [emit] at h
    split at h
    · rename_i hstage
      split at h
      · simp at h
      · rename_i result hresult
        simp only [Prod.mk.injEq, Except.ok.injEq] at h
        exact ⟨hstage, h.1 ▸ hresult, h.2.symm⟩
    · simp at h
  · rintro ⟨hstage, hbuilt, rfl⟩
    exact emit_of_constructor hstage hbuilt

/-- Record that the constructor was inserted. -/
def markInserted (generation : Generation) : Except GenerationError Unit × Generation :=
  if generation.stage = Step.markInserted.requiredStage then
    (.ok (), { generation with stage := .inserted })
  else (.error (.outOfOrder generation.stage .markInserted), generation)

theorem markInserted_of_stage_ne {generation : Generation}
    (h : generation.stage ≠ Step.markInserted.requiredStage) :
    generation.markInserted =
      (.error (.outOfOrder generation.stage .markInserted), generation) := by
  rw [markInserted, if_neg h]

theorem markInserted_of_stage_eq {generation : Generation}
    (h : generation.stage = Step.markInserted.requiredStage) :
    generation.markInserted = (.ok (), { generation with stage := .inserted }) := by
  rw [markInserted, if_pos h]

end Generation

/-- The outcome of a generation up to emission. -/
inductive Generated where
  | cancelled
  | emitted (result : Constructor)
deriving DecidableEq, Repr

namespace Declaration

/-- Analysis, selection and emission in one go. -/
def generate {σ : Type} (presenter : Presenter σ) (declaration : Declaration) (state : σ) :
    Except GenerationError Generated × σ :=
  match (Generation.start declaration).select presenter state with
  | (.error cause, _, next) => (.error cause, next)
  | (.ok .cancelled, _, next) => (.ok .cancelled, next)
  | (.ok _, generation, next) => (generation.emit.1.map .emitted, next)

section Asked

variable {σ : Type} {presenter : Presenter σ} {declaration : Declaration} {state next : σ}

theorem generate_of_error {cause : SelectionError}
    (hrequest : Selection.request presenter declaration.analysis.candidates state =
      (.error cause, next)) :
    declaration.generate presenter state = (.error (.selection cause), next) := by
  rw [generate, Generation.select_of_error rfl hrequest]

theorem generate_of_cancelled
    (hrequest : Selection.request presenter declaration.analysis.candidates state =
      (.ok .cancelled, next)) :
    declaration.generate presenter state = (.ok .cancelled, next) := by
  rw [generate, Generation.select_of_cancelled rfl hrequest]

/-- Emission follows every selection: what was selected are candidates. -/
theorem generate_of_selected {chosen : List Candidate}
    (hrequest : Selection.request presenter declaration.analysis.candidates state =
      (.ok (.selected chosen), next)) :
    declaration.generate presenter state =
      (.ok (.emitted (Generation.constructorFor declaration.analysis chosen)), next) := by
  have hchosen := Selection.sublist_of_request_eq_selected hrequest
  have hbuilt := Generation.constructor?_of_subset hchosen.subset
  rw [generate, Generation.select_of_selected rfl hrequest]
  simp only
  rw [Generation.emit_of_constructor rfl hbuilt]
  rfl

end Asked

end Declaration

end Memberwise
