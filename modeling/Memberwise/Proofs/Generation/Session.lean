import Memberwise.Generation
import Mathlib.Data.List.Infix

/-!
# Sessions

A session is a generation in use: its steps are called one after another, in any order and however
often, each selection with a presenter of its own. All presenters share one state, so that a
presenter may be called again later and presenters may depend on one another.

The main statements say what a single call does: at the wrong stage it is refused without any
effect, and at the right one its reply and the next session are those of the step.
-/

namespace Memberwise

/-- A call of one step. -/
inductive Call (σ : Type) where
  | select (presenter : Presenter σ)
  | emit
  | markInserted

namespace Call

variable {σ : Type}

def step : Call σ → Step
  | select _ => .select
  | emit => .emit
  | markInserted => .markInserted

end Call

/-- What a call returns that succeeds. -/
inductive Reply where
  /-- The stage that a selection led to. -/
  | reached (stage : Stage)
  | built (result : Constructor)
  | noted
deriving DecidableEq, Repr

/-- A generation in use, with the state of the presenters. -/
structure Session (σ : Type) where
  generation : Generation
  presenters : σ

namespace Session

variable {σ : Type}

def start (declaration : Declaration) (presenters : σ) : Session σ :=
  ⟨.start declaration, presenters⟩

/-- Make a call. Gives the reply and the session afterwards. -/
def perform (session : Session σ) : Call σ → Except GenerationError Reply × Session σ
  | .select presenter =>
    let (result, generation, presenters) :=
      session.generation.select presenter session.presenters
    (result.map .reached, ⟨generation, presenters⟩)
  | .emit =>
    let (result, generation) := session.generation.emit
    (result.map .built, { session with generation })
  | .markInserted =>
    let (result, generation) := session.generation.markInserted
    (result.map fun _ ↦ .noted, { session with generation })

/-- Make calls one after another. Gives their replies and the session at the end. -/
def run (session : Session σ) : List (Call σ) → List (Except GenerationError Reply) × Session σ
  | [] => ([], session)
  | call :: calls =>
    let (reply, next) := session.perform call
    let (replies, last) := next.run calls
    (reply :: replies, last)

@[simp] theorem run_nil (session : Session σ) : session.run [] = ([], session) := rfl

@[simp] theorem run_cons (session : Session σ) (call : Call σ) (calls : List (Call σ)) :
    session.run (call :: calls) =
      ((session.perform call).1 :: ((session.perform call).2.run calls).1,
        ((session.perform call).2.run calls).2) := rfl

theorem run_append (session : Session σ) (before after : List (Call σ)) :
    session.run (before ++ after) =
      ((session.run before).1 ++ ((session.run before).2.run after).1,
        ((session.run before).2.run after).2) := by
  induction before generalizing session with
  | nil => rfl
  | cons call before ih => simp only [List.cons_append, run_cons, ih]

@[simp] theorem length_run (session : Session σ) (calls : List (Call σ)) :
    (session.run calls).1.length = calls.length := by
  induction calls generalizing session with
  | nil => rfl
  | cons call calls ih => simp only [run_cons, List.length_cons, ih]

/-! ## Single calls -/

/-- A call at the wrong stage is refused and changes nothing. -/
theorem perform_of_stage_ne {session : Session σ} {call : Call σ}
    (h : session.generation.stage ≠ call.step.requiredStage) :
    session.perform call =
      (.error (.outOfOrder session.generation.stage call.step), session) := by
  cases call with
  | select presenter =>
    rw [perform, Generation.select_of_stage_ne presenter session.presenters h]
    rfl
  | emit =>
    rw [perform, Generation.emit_of_stage_ne h]
    rfl
  | markInserted =>
    rw [perform, Generation.markInserted_of_stage_ne h]
    rfl

section Selecting

variable {session : Session σ} {presenter : Presenter σ} {next : σ}
  (hstage : session.generation.stage = .analyzed)
include hstage

theorem perform_select_of_error {cause : SelectionError}
    (hrequest : Selection.request presenter session.generation.analysis.candidates
      session.presenters = (.error cause, next)) :
    session.perform (.select presenter) =
      (.error (.selection cause), ⟨{ session.generation with stage := .failed }, next⟩) := by
  rw [perform, Generation.select_of_error hstage hrequest]
  rfl

theorem perform_select_of_cancelled
    (hrequest : Selection.request presenter session.generation.analysis.candidates
      session.presenters = (.ok .cancelled, next)) :
    session.perform (.select presenter) =
      (.ok (.reached .cancelled),
        ⟨{ session.generation with stage := .cancelled }, next⟩) := by
  rw [perform, Generation.select_of_cancelled hstage hrequest]
  rfl

theorem perform_select_of_selected {chosen : List Candidate}
    (hrequest : Selection.request presenter session.generation.analysis.candidates
      session.presenters = (.ok (.selected chosen), next)) :
    session.perform (.select presenter) =
      (.ok (.reached .selected),
        ⟨{ session.generation with stage := .selected, selection := chosen }, next⟩) := by
  rw [perform, Generation.select_of_selected hstage hrequest]
  rfl

end Selecting

theorem perform_emit_of_constructor {session : Session σ} {built : Constructor}
    (hstage : session.generation.stage = .selected)
    (hbuilt : Generation.constructor? session.generation.analysis session.generation.selection =
      some built) :
    session.perform .emit =
      (.ok (.built built),
        { session with generation := { session.generation with stage := .emitted } }) := by
  rw [perform, Generation.emit_of_constructor hstage hbuilt]
  rfl

theorem perform_markInserted_of_stage_eq {session : Session σ}
    (hstage : session.generation.stage = .emitted) :
    session.perform .markInserted =
      (.ok .noted,
        { session with generation := { session.generation with stage := .inserted } }) := by
  rw [perform, Generation.markInserted_of_stage_eq hstage]
  rfl

end Session

end Memberwise
