import Memberwise.Candidate

/-!
# Selecting parameters

A presenter is shown the candidates and answers with indices into their list, or cancels. It may
keep a state between calls. `select` turns an answer into candidates: whatever the order of the
answer and however often it repeats an index, they come in declaration order and once each.

The main statements: an empty list of candidates is never presented, and whatever is answered, the
selection keeps the order of the candidates.
-/

namespace Memberwise

/-- What a presenter answers. -/
inductive Response where
  /-- Indices into the list that was presented. -/
  | chosen (indices : List Nat)
  | cancelled
deriving DecidableEq, Repr

/-- Why a selection failed. -/
inductive SelectionError where
  /-- An index is out of range. -/
  | unknownCandidate (index count : Nat)
  /-- No candidate has this name. -/
  | unknownName (name : String)
  /-- A script was asked a second time. -/
  | alreadyAnswered
  /-- A script was never asked. -/
  | neverAsked
  /-- The presenter could not ask. -/
  | presenterFailed (reason : String)
deriving DecidableEq, Repr

namespace SelectionError

def message : SelectionError → String
  | unknownCandidate index count =>
    "Presenter chose candidate #" ++ toString index ++ " but only " ++ toString count ++
      " were offered"
  | unknownName name => "No candidate named '" ++ name ++ "'"
  | alreadyAnswered => "Scripted selection was already consumed"
  | neverAsked => "Scripted selection was never consumed"
  | presenterFailed reason => "Presenter failed: " ++ reason

end SelectionError

/-- The outcome of asking for a selection. -/
inductive Selection where
  /-- The selected candidates in declaration order; possibly none. -/
  | selected (candidates : List Candidate)
  | cancelled
deriving DecidableEq, Repr

/-- A party that selects, with states of type `σ`: from the candidates and a state to an answer and
the next state. -/
abbrev Presenter (σ : Type) := List Candidate → σ → Except SelectionError Response × σ

namespace Selection

/-- Mark a candidate. -/
def mark (candidates : List Candidate) (marks : List Bool) (index : Nat) :
    Except SelectionError (List Bool) :=
  if index < marks.length then .ok (marks.set index true)
  else .error (.unknownCandidate index candidates.length)

/-- Mark candidates one after another. The first index out of range ends it. -/
def markAll (candidates : List Candidate) (marks : List Bool) :
    List Nat → Except SelectionError (List Bool)
  | [] => .ok marks
  | index :: others =>
    match mark candidates marks index with
    | .error cause => .error cause
    | .ok next => markAll candidates next others

/-- The candidates that are marked, in their own order. -/
def marked (candidates : List Candidate) (marks : List Bool) : List Candidate :=
  (candidates.zip marks).filterMap fun entry ↦ if entry.2 then some entry.1 else none

/-- The selection that an answer stands for. -/
def ofResponse (candidates : List Candidate) : Response → Except SelectionError Selection
  | .cancelled => .ok .cancelled
  | .chosen indices =>
    match markAll candidates (List.replicate candidates.length false) indices with
    | .error cause => .error cause
    | .ok marks => .ok (.selected (marked candidates marks))

/-- Ask for a selection. An empty list needs no answer. -/
def request {σ : Type} (presenter : Presenter σ) (candidates : List Candidate) (state : σ) :
    Except SelectionError Selection × σ :=
  if candidates.isEmpty then (.ok (.selected []), state)
  else
    match presenter candidates state with
    | (.error cause, next) => (.error cause, next)
    | (.ok response, next) => (ofResponse candidates response, next)

@[simp] theorem request_nil {σ : Type} (presenter : Presenter σ) (state : σ) :
    request presenter [] state = (.ok (.selected []), state) := rfl

theorem request_of_ne_nil {σ : Type} {presenter : Presenter σ} {candidates : List Candidate}
    (h : candidates ≠ []) (state : σ) :
    request presenter candidates state =
      ((presenter candidates state).1.bind (ofResponse candidates),
        (presenter candidates state).2) := by
  cases candidates with
  | nil => exact absurd rfl h
  | cons first others =>
    simp only [request, List.isEmpty_cons, Bool.false_eq_true, if_false]
    rcases presenter (first :: others) state with ⟨_ | _, next⟩ <;> rfl

theorem marked_sublist (candidates : List Candidate) (marks : List Bool) :
    (marked candidates marks).Sublist candidates := by
  induction candidates generalizing marks with
  | nil => simp [marked]
  | cons candidate others ih =>
    cases marks with
    | nil => simp [marked]
    | cons isMarked marks =>
      have hothers := ih marks
      cases isMarked with
      | false => exact hothers.cons candidate
      | true => exact hothers.cons_cons candidate

theorem sublist_of_ofResponse_eq_selected {candidates chosen : List Candidate}
    {response : Response} (h : ofResponse candidates response = .ok (.selected chosen)) :
    chosen.Sublist candidates := by
  cases response with
  | cancelled => simp [ofResponse] at h
  | chosen indices =>
    rw [ofResponse] at h
    split at h
    · simp at h
    · simp only [Except.ok.injEq, selected.injEq] at h
      rw [← h]
      exact marked_sublist candidates _

/-- Whatever the presenter answers, the selection keeps the order of the candidates. -/
theorem sublist_of_request_eq_selected {σ : Type} {presenter : Presenter σ}
    {candidates chosen : List Candidate} {state next : σ}
    (h : request presenter candidates state = (.ok (.selected chosen), next)) :
    chosen.Sublist candidates := by
  rw [request] at h
  split at h
  · simp only [Prod.mk.injEq, Except.ok.injEq, selected.injEq] at h
    rw [← h.1]
    exact List.nil_sublist _
  · split at h
    · simp at h
    · rw [Prod.mk.injEq] at h
      exact sublist_of_ofResponse_eq_selected h.1

end Selection

end Memberwise
