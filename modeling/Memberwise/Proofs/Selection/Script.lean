import Memberwise.Proofs.Selection.Range
import Memberwise.Proofs.Selection.Request

/-!
# One script and many requests

A script answers once. A request without candidates does not reach it. The first request with
candidates gets its answer, and with that the script is used up, whether anything was selected or
not: every later request with candidates is refused. What was shown is noted in the same step, and
a refusal comes before anything is noted.

The main statement is the course of any requests with one script: every result, and every state in
between.
-/

namespace Memberwise

namespace Selection

/-! ## Many requests -/

section RequestAll

variable {σ : Type} (presenter : Presenter σ)

/-- Make one request for each list of candidates, all with the same presenter. Gives each result
with the state that it leaves, and the state at the end. -/
def requestAll (state : σ) :
    List (List Candidate) → List (Except SelectionError Selection × σ) × σ
  | [] => ([], state)
  | candidates :: later =>
    let (result, next) := request presenter candidates state
    let (outcomes, last) := requestAll next later
    ((result, next) :: outcomes, last)

@[simp] theorem requestAll_nil (state : σ) : requestAll presenter state [] = ([], state) := rfl

@[simp] theorem requestAll_cons (state : σ) (candidates : List Candidate)
    (later : List (List Candidate)) :
    requestAll presenter state (candidates :: later) =
      (request presenter candidates state ::
          (requestAll presenter (request presenter candidates state).2 later).1,
        (requestAll presenter (request presenter candidates state).2 later).2) := rfl

theorem requestAll_append (state : σ) (before after : List (List Candidate)) :
    requestAll presenter state (before ++ after) =
      ((requestAll presenter state before).1 ++
          (requestAll presenter (requestAll presenter state before).2 after).1,
        (requestAll presenter (requestAll presenter state before).2 after).2) := by
  induction before generalizing state with
  | nil => rfl
  | cons candidates before ih => simp only [List.cons_append, requestAll_cons, ih]

/-- Requests without candidates reach no presenter. -/
theorem requestAll_of_idle {calls : List (List Candidate)} (h : ∀ call ∈ calls, call = [])
    (state : σ) :
    requestAll presenter state calls =
      (calls.map fun _ ↦ (.ok (.selected []), state), state) := by
  induction calls with
  | nil => rfl
  | cons call calls ih =>
    obtain ⟨rfl, hcalls⟩ := List.forall_mem_cons.mp h
    rw [requestAll_cons, request_nil, ih hcalls, List.map_cons]

end RequestAll

theorem atPositions_range (candidates : List Candidate) :
    atPositions candidates (List.range candidates.length) = candidates := by
  have hall : (List.finRange candidates.length).filter
      (fun i ↦ i.val ∈ List.range candidates.length) = List.finRange candidates.length :=
    List.filter_eq_self.mpr fun i _ ↦ by simp
  rw [atPositions, hall, List.map_get_finRange]

theorem atPositions_nil (candidates : List Candidate) : atPositions candidates [] = [] := by
  simp [atPositions]

end Selection

open Selection (atPositions request requestAll)

/-- What a script selects from candidates that there are. -/
def Script.outcome (candidates : List Candidate) : Script → Except SelectionError Selection
  | all => .ok (.selected candidates)
  | none => .ok (.selected [])
  | cancel => .ok .cancelled
  | names wanted =>
    (indicesOfNames candidates wanted).map fun indices ↦ .selected (atPositions candidates indices)

theorem Script.bind_response (candidates : List Candidate) (script : Script) :
    (script.response candidates).bind (Selection.ofResponse candidates) =
      script.outcome candidates := by
  cases script with
  | all =>
    have hselected := Selection.ofResponse_chosen (Response.inRange_all candidates)
    rwa [Selection.atPositions_range] at hselected
  | none =>
    have hselected := Selection.ofResponse_chosen (Response.inRange_none candidates)
    rwa [Selection.atPositions_nil] at hselected
  | cancel => rfl
  | names wanted =>
    cases hindices : indicesOfNames candidates wanted with
    | error cause => rw [response, outcome, hindices]; rfl
    | ok indices =>
      rw [response, outcome, hindices]
      exact Selection.ofResponse_chosen (lt_of_mem_indicesOfNames hindices)

namespace Scripted

/-! ## One request -/

/-- The state after `candidates` were shown. -/
def given (candidates : List Candidate) : Scripted := ⟨none, some (candidates.map Candidate.label)⟩

theorem request_start (script : Script) {candidates : List Candidate} (hne : candidates ≠ []) :
    request present candidates (start script) = (script.outcome candidates, given candidates) := by
  rw [Selection.request_of_ne_nil hne, present_start]
  exact congrArg (·, given candidates) (script.bind_response candidates)

/-- What comes of a request after the script was given. -/
def refusal (candidates : List Candidate) : Except SelectionError Selection :=
  if candidates = [] then .ok (.selected []) else .error .alreadyAnswered

theorem request_given (shown candidates : List Candidate) :
    request present candidates (given shown) = (refusal candidates, given shown) := by
  by_cases hempty : candidates = []
  · rw [hempty, Selection.request_nil]
    rfl
  · rw [Selection.request_of_ne_nil hempty, refusal, if_neg hempty]
    rfl

/-! ## Many requests -/

/-- The state does not change any more, so no request is answered twice. -/
theorem requestAll_given (shown : List Candidate) (calls : List (List Candidate)) :
    requestAll present (given shown) calls =
      (calls.map fun candidates ↦ (refusal candidates, given shown), given shown) := by
  induction calls with
  | nil => rfl
  | cons candidates calls ih =>
    rw [Selection.requestAll_cons, request_given, ih, List.map_cons]

theorem idle_or_exists_first (calls : List (List Candidate)) :
    (∀ call ∈ calls, call = []) ∨
      ∃ idle first later, calls = idle ++ first :: later ∧ (∀ call ∈ idle, call = []) ∧
        first ≠ [] := by
  cases hfind : calls.find? fun call ↦ call ≠ [] with
  | none => exact Or.inl (by simpa using List.find?_eq_none.mp hfind)
  | some first =>
    obtain ⟨hfirst, idle, later, hcalls, hidle⟩ := List.find?_eq_some_iff_append.mp hfind
    exact Or.inr ⟨idle, first, later, hcalls, by simpa using hidle, by simpa using hfirst⟩

/-- The course of requests with one script: each result with the state after it, and the state at
the end. -/
inductive Course (script : Script) : List (List Candidate) →
    List (Except SelectionError Selection × Scripted) → Scripted → Prop where
  /-- Nothing was ever shown. -/
  | unasked {calls : List (List Candidate)} (hidle : ∀ call ∈ calls, call = []) :
      Course script calls (calls.map fun _ ↦ (.ok (.selected []), start script)) (start script)
  /-- `first` was shown, and nothing else. -/
  | asked {idle later : List (List Candidate)} {first : List Candidate} {after : Scripted}
      (hidle : ∀ call ∈ idle, call = []) (hfirst : first ≠ [])
      (hasked : after.wasAsked = true)
      (hshown : after.shown = some (first.map fun candidate ↦
        candidate.binding ++ " : " ++ candidate.typeText)) :
      Course script (idle ++ first :: later)
        (idle.map (fun _ ↦ (.ok (.selected []), start script)) ++
          (script.outcome first, after) ::
          later.map fun candidates ↦
            (if candidates = [] then .ok (.selected []) else .error .alreadyAnswered, after))
        after

/-- A script is given to the first request with candidates, whatever comes of that, and to no
other; and it was of use exactly if there was such a request. -/
theorem course_requestAll_start (script : Script) (calls : List (List Candidate)) :
    Course script calls (requestAll present (start script) calls).1
      (requestAll present (start script) calls).2 ∧
    ((requestAll present (start script) calls).2.finish = .ok () ↔
      ∃ call ∈ calls, call ≠ []) ∧
    ((requestAll present (start script) calls).2.finish = .error .neverAsked ↔
      ∀ call ∈ calls, call = []) := by
  rcases idle_or_exists_first calls with hidle | ⟨idle, first, later, rfl, hidle, hfirst⟩
  · have hfinish : (start script).finish = .error .neverAsked := rfl
    rw [Selection.requestAll_of_idle present hidle, hfinish]
    exact ⟨.unasked hidle, by simpa using hidle, by simpa using hidle⟩
  · have hfinish : (given first).finish = .ok () := rfl
    have hcourse := Selection.requestAll_append present (start script) idle (first :: later)
    rw [Selection.requestAll_of_idle present hidle, Selection.requestAll_cons,
      request_start script hfirst, requestAll_given] at hcourse
    have hmem : first ∈ idle ++ first :: later := by simp
    rw [hcourse, hfinish]
    exact ⟨.asked hidle hfirst rfl rfl, iff_of_true rfl ⟨first, hmem, hfirst⟩,
      iff_of_false (by simp) fun hnone ↦ hfirst (hnone first hmem)⟩

end Scripted

end Memberwise
