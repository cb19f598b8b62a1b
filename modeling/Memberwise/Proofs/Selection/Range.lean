import Memberwise.Proofs.Selection.Naming
import Memberwise.Proofs.Selection.Positions
import Memberwise.Generation

/-!
# Presenters in range

An answer is refused if an index is out of range. Neither a script nor a prompt gives such an
answer: a script knows the candidates or looks for their names, and a prompt reads an index only if
it is that of a name or one less than a number that was checked. So a selection that either of them
is asked for fails only as the presenter itself fails, and a script that is asked once fails only
for a name that no candidate has.
-/

namespace Memberwise

theorem exists_of_map_eq_ok {ε α β : Type} {f : α → β} {result : Except ε α} {b : β}
    (h : result.map f = .ok b) : ∃ a, result = .ok a ∧ f a = b := by
  cases result with
  | error cause => simp [Except.map] at h
  | ok a => exact ⟨a, rfl, Except.ok.inj h⟩

theorem eq_error_of_map_eq_error {ε α β : Type} {f : α → β} {result : Except ε α} {cause : ε}
    (h : result.map f = .error cause) : result = .error cause := by
  cases result with
  | error other => exact congrArg Except.error (Except.error.inj h)
  | ok a => simp [Except.map] at h

/-! ## Lists worked off in turn -/

/-- What comes of the elements in turn: a result for each of them, or the first failure. -/
inductive Traversed {ε α β : Type} (f : α → Except ε β) : List α → Except ε (List β) → Prop where
  | ok {elements : List α} {results : List β}
      (each : List.Forall₂ (fun element result ↦ f element = .ok result) elements results) :
      Traversed f elements (.ok results)
  | error {before after : List α} {element : α} {cause : ε}
      (before_ok : ∀ earlier ∈ before, ∃ result, f earlier = .ok result)
      (fails : f element = .error cause) : Traversed f (before ++ element :: after) (.error cause)

namespace Traversed

variable {ε α β : Type} {f : α → Except ε β} {first : α} {elements : List α}

theorem head_error {cause : ε} (hfirst : f first = .error cause) (elements : List α) :
    Traversed f (first :: elements) (.error cause) := by
  have herror : Traversed f ([] ++ first :: elements) (.error cause) := .error (by simp) hfirst
  exact herror

theorem cons_ok {result : β} {outcome : Except ε (List β)} (hfirst : f first = .ok result)
    (h : Traversed f elements outcome) :
    Traversed f (first :: elements) (outcome.map (result :: ·)) := by
  cases h with
  | ok each => exact .ok (.cons hfirst each)
  | @error before after element cause hbefore hfails =>
    have herror : Traversed f ((first :: before) ++ element :: after) (.error cause) :=
      .error (List.forall_mem_cons.mpr ⟨⟨result, hfirst⟩, hbefore⟩) hfails
    exact herror

theorem exists_of_mem {results : List β} {result : β} (h : Traversed f elements (.ok results))
    (hmem : result ∈ results) : ∃ element ∈ elements, f element = .ok result := by
  cases h with
  | ok each =>
    obtain ⟨i, hi, rfl⟩ := List.mem_iff_getElem.mp hmem
    have hlength : i < elements.length := each.length_eq ▸ hi
    exact ⟨elements[i], List.getElem_mem hlength, each.get hlength hi⟩

theorem exists_ok_of_mem {results : List β} {element : α} (h : Traversed f elements (.ok results))
    (hmem : element ∈ elements) : ∃ result ∈ results, f element = .ok result := by
  cases h with
  | ok each =>
    obtain ⟨i, hi, rfl⟩ := List.mem_iff_getElem.mp hmem
    have hlength : i < results.length := each.length_eq ▸ hi
    exact ⟨results[i], List.getElem_mem hlength, each.get hi hlength⟩

theorem exists_of_error {cause : ε} (h : Traversed f elements (.error cause)) :
    ∃ element ∈ elements, f element = .error cause := by
  cases h with
  | error _ hfails => exact ⟨_, List.mem_append_right _ List.mem_cons_self, hfails⟩

end Traversed

/-! ## Answers in range -/

/-- All indices of the answer are those of candidates. -/
def Response.InRange (candidates : List Candidate) : Response → Prop
  | .chosen indices => ∀ index ∈ indices, index < candidates.length
  | .cancelled => True

/-- In this state the presenter gives no answer with an index out of range. -/
def Presenter.KeepsRange {σ : Type} (presenter : Presenter σ) (state : σ) : Prop :=
  ∀ candidates response, (presenter candidates state).1 = .ok response →
    response.InRange candidates

theorem Candidate.lt_of_indexOfName? {candidates : List Candidate} {name : String} {index : Nat}
    (h : indexOfName? candidates name = some index) : index < candidates.length := by
  obtain ⟨hindex, _⟩ := List.findIdx?_eq_some_iff_getElem.mp h
  exact hindex

theorem Response.inRange_all (candidates : List Candidate) :
    (Response.chosen (List.range candidates.length)).InRange candidates :=
  fun _ hindex ↦ List.mem_range.mp hindex

theorem Response.inRange_none (candidates : List Candidate) :
    (Response.chosen []).InRange candidates :=
  fun _ hindex ↦ absurd hindex List.not_mem_nil

/-! ## Scripts -/

namespace Script

variable {candidates : List Candidate} {script : Script}

/-- The index of a name, which is an error for a name that no candidate has. -/
def indexOfName (candidates : List Candidate) (name : String) : Except SelectionError Nat :=
  match Candidate.indexOfName? candidates name with
  | Option.none => .error (.unknownName name)
  | some index => .ok index

theorem indexOfName_eq_ok_iff {name : String} {index : Nat} :
    indexOfName candidates name = .ok index ↔
      Candidate.indexOfName? candidates name = some index := by
  rw [indexOfName]
  split <;> rename_i hname <;> simp [hname]

theorem indexOfName_eq_error_iff {name : String} {cause : SelectionError} :
    indexOfName candidates name = .error cause ↔
      (∀ candidate ∈ candidates, candidate.binding ≠ name) ∧ cause = .unknownName name := by
  rw [← Candidate.indexOfName?_eq_none_iff, indexOfName]
  split <;> rename_i hname <;> simp [hname, eq_comm]

/-- Names are looked for in turn. -/
theorem traversed_indicesOfNames (candidates : List Candidate) (names : List String) :
    Traversed (indexOfName candidates) names (indicesOfNames candidates names) := by
  induction names with
  | nil => exact .ok .nil
  | cons name others ih =>
    rw [indicesOfNames]
    split
    · rename_i hnone
      exact .head_error (indexOfName_eq_error_iff.mpr
        ⟨Candidate.indexOfName?_eq_none_iff.mp hnone, rfl⟩) others
    · rename_i index hindex
      exact ih.cons_ok (indexOfName_eq_ok_iff.mpr hindex)

theorem lt_of_mem_indicesOfNames {names : List String} {indices : List Nat}
    (h : indicesOfNames candidates names = .ok indices) :
    ∀ index ∈ indices, index < candidates.length := by
  intro index hindex
  have htraversed := traversed_indicesOfNames candidates names
  rw [h] at htraversed
  obtain ⟨_, _, hname⟩ := htraversed.exists_of_mem hindex
  exact Candidate.lt_of_indexOfName? (indexOfName_eq_ok_iff.mp hname)

/-- Names fail only for one of them that no candidate has. -/
theorem unknownName_of_indicesOfNames {names : List String} {cause : SelectionError}
    (h : indicesOfNames candidates names = .error cause) :
    ∃ name ∈ names, (∀ candidate ∈ candidates, candidate.binding ≠ name) ∧
      cause = .unknownName name := by
  have htraversed := traversed_indicesOfNames candidates names
  rw [h] at htraversed
  obtain ⟨name, hmem, hname⟩ := htraversed.exists_of_error
  exact ⟨name, hmem, indexOfName_eq_error_iff.mp hname⟩

theorem inRange_of_response {response : Response}
    (h : script.response candidates = .ok response) : response.InRange candidates := by
  cases script with
  | all => exact Except.ok.inj h ▸ Response.inRange_all candidates
  | none => exact Except.ok.inj h ▸ Response.inRange_none candidates
  | cancel => exact Except.ok.inj h ▸ trivial
  | names wanted =>
    obtain ⟨indices, hwanted, rfl⟩ := exists_of_map_eq_ok h
    exact lt_of_mem_indicesOfNames hwanted

/-- Only a script of names can fail. -/
theorem unknownName_of_response {cause : SelectionError}
    (h : script.response candidates = .error cause) :
    ∃ names, script = .names names ∧ ∃ name ∈ names,
      (∀ candidate ∈ candidates, candidate.binding ≠ name) ∧ cause = .unknownName name := by
  cases script with
  | all => simp [Script.response] at h
  | none => simp [Script.response] at h
  | cancel => simp [Script.response] at h
  | names wanted =>
    exact ⟨wanted, rfl, unknownName_of_indicesOfNames (eq_error_of_map_eq_error h)⟩

end Script

theorem Scripted.present_start (script : Script) (candidates : List Candidate) :
    present candidates (start script) =
      (script.response candidates, ⟨none, some (candidates.map Candidate.label)⟩) := rfl

/-- A script that was given already gives no answer at all. -/
theorem Scripted.keepsRange (state : Scripted) : present.KeepsRange state := by
  intro candidates response h
  rw [present] at h
  split at h
  · simp at h
  · exact Script.inRange_of_response h

/-! ## Prompts -/

namespace Answer

variable {candidates : List Candidate}

theorem lt_of_index {piece : List Char} {found : Nat} (h : index candidates piece = .ok found) :
    found < candidates.length := by
  rw [index] at h
  split at h
  · rename_i named hnamed
    exact Except.ok.inj h ▸ Candidate.lt_of_indexOfName? hnamed
  · split at h
    · simp at h
    · split at h
      · rename_i hrange
        obtain rfl := Except.ok.inj h
        omega
      · simp at h

/-- Pieces are read in turn. -/
theorem traversed_indices (candidates : List Candidate) (pieces : List (List Char)) :
    Traversed (index candidates) pieces (indices candidates pieces) := by
  induction pieces with
  | nil => exact .ok .nil
  | cons piece pieces ih =>
    rw [indices]
    split
    · rename_i cause hcause
      exact .head_error hcause pieces
    · rename_i first hfirst
      exact ih.cons_ok hfirst

theorem lt_of_mem_indices {pieces : List (List Char)} {found : List Nat}
    (h : indices candidates pieces = .ok found) : ∀ index ∈ found, index < candidates.length := by
  intro index hindex
  have htraversed := traversed_indices candidates pieces
  rw [h] at htraversed
  obtain ⟨_, _, hpiece⟩ := htraversed.exists_of_mem hindex
  exact lt_of_index hpiece

/-- Whatever the line, what is read from it is in range. -/
theorem inRange_of_read {line : String} {response : Response}
    (h : read line candidates = .ok response) : response.InRange candidates := by
  rw [read] at h
  split at h
  · rename_i named hnamed
    obtain rfl := Except.ok.inj h
    intro index hindex
    obtain rfl := List.mem_singleton.mp hindex
    exact Candidate.lt_of_indexOfName? hnamed
  · split at h
    · exact Except.ok.inj h ▸ Response.inRange_all candidates
    · exact Except.ok.inj h ▸ Response.inRange_none candidates
    · exact Except.ok.inj h ▸ trivial
    · obtain ⟨found, hfound, rfl⟩ := exists_of_map_eq_ok h
      exact lt_of_mem_indices hfound

end Answer

namespace Prompt

/-- How a use of a prompt on these lines of input can end. -/
inductive Answered (candidates : List Candidate) (pending : List (List UInt8)) :
    Except SelectionError Response → Prop where
  /-- The screen is full, or a line is no text. -/
  | failed (reason : String) : Answered candidates pending (.error (.presenterFailed reason))
  | outOfInput : Answered candidates pending (.ok .cancelled)
  | read {line : List UInt8} {text : String} {response : Response} (mem : line ∈ pending)
      (decode : decode? line = some text) (read : Answer.read text candidates = .ok response) :
      Answered candidates pending (.ok response)

theorem Answered.cons {candidates : List Candidate} {pending : List (List UInt8)}
    {result : Except SelectionError Response} (h : Answered candidates pending result)
    (line : List UInt8) : Answered candidates (line :: pending) result := by
  cases h with
  | failed reason => exact .failed reason
  | outOfInput => exact .outOfInput
  | read hmem hdecode hread => exact .read (List.mem_cons_of_mem line hmem) hdecode hread

theorem answered_ask (colour : Bool) (candidates : List Candidate)
    (pending : List (List UInt8)) (screen : Screen) :
    Answered candidates pending (ask colour candidates pending screen).1 := by
  induction pending generalizing screen with
  | nil =>
    rw [ask]
    split
    · exact .failed _
    · split
      · exact .outOfInput
      · exact .failed _
  | cons line others ih =>
    rw [ask]
    split
    · exact .failed _
    split
    · exact .failed _
    rename_i text hdecode
    split
    · rename_i response hread
      exact .read List.mem_cons_self hdecode hread
    · split
      · exact (ih _).cons line
      · exact .failed _

theorem answered_present (candidates : List Candidate) (prompt : Prompt) :
    Answered candidates prompt.pending (present candidates prompt).1 := by
  rw [present]
  split
  · exact answered_ask _ _ _ _
  · exact .failed _

theorem keepsRange (prompt : Prompt) : present.KeepsRange prompt := by
  intro candidates response h
  have hanswered := answered_present candidates prompt
  rw [h] at hanswered
  cases hanswered with
  | outOfInput => trivial
  | read _ _ hread => exact Answer.inRange_of_read hread

/-- An unlimited prompt fails only for a line that is no text. -/
theorem eq_inputNotText_of_present {structName : String} {candidates : List Candidate}
    {pending : List (List UInt8)} {shown : List UInt8} {cause : SelectionError}
    (h : (present candidates ⟨structName, false, pending, ⟨none, shown⟩⟩).1 = .error cause) :
    cause = inputNotText ∧ ∃ line ∈ pending, decode? line = none := by
  obtain ⟨⟨_, refused, ending⟩, unread, -, hconducts, hpresent⟩ :=
    present_conducts structName candidates pending shown
  rw [hpresent] at h
  cases ending with
  | answered line response => simp [Exchange.result, Ending.result] at h
  | outOfInput => simp [Exchange.result, Ending.result] at h
  | unreadable line =>
    have hmem : line ∈ pending := by
      rw [hconducts.pending_eq]
      simp [Exchange.lines, Ending.lines]
    exact ⟨(Except.error.inj h).symm, line, hmem, hconducts.ending⟩

end Prompt

/-! ## Selections -/

theorem Selection.exists_of_inRange {candidates : List Candidate} {response : Response}
    (h : response.InRange candidates) :
    ∃ selection, ofResponse candidates response = .ok selection := by
  cases response with
  | cancelled => exact ⟨.cancelled, rfl⟩
  | chosen indices => exact ⟨_, ofResponse_chosen h⟩

section Asked

variable {σ : Type} {presenter : Presenter σ} {state : σ}

/-- A presenter that keeps the range is the only one to fail, and it is asked only if there are
candidates. -/
theorem Selection.request_eq_error {candidates : List Candidate} {cause : SelectionError}
    {next : σ} (hrange : presenter.KeepsRange state)
    (h : request presenter candidates state = (.error cause, next)) :
    candidates ≠ [] ∧ (presenter candidates state).1 = .error cause := by
  cases candidates with
  | nil => simp at h
  | cons first others =>
    have hne : first :: others ≠ [] := List.cons_ne_nil first others
    refine ⟨hne, ?_⟩
    have hfailed := congrArg Prod.fst h
    rw [request_of_ne_nil hne] at hfailed
    cases hanswer : (presenter (first :: others) state).1 with
    | error other =>
      rw [hanswer] at hfailed
      exact congrArg Except.error (Except.error.inj hfailed)
    | ok response =>
      obtain ⟨selection, hselection⟩ := exists_of_inRange (hrange _ _ hanswer)
      rw [hanswer] at hfailed
      exact absurd (hselection.symm.trans hfailed) (by simp)

/-- Selecting leaves the presenter as the request did. -/
theorem Generation.select_start_snd_snd (presenter : Presenter σ) (declaration : Declaration)
    (state : σ) :
    ((start declaration).select presenter state).2.2 =
      (Selection.request presenter declaration.analysis.candidates state).2 := by
  rcases hrequest : Selection.request presenter declaration.analysis.candidates state with
    ⟨cause | ⟨chosen⟩ | ⟨⟩, after⟩
  · rw [select_of_error rfl hrequest]
  · rw [select_of_selected rfl hrequest]
  · rw [select_of_cancelled rfl hrequest]

/-- The selection of a new generation fails only as its presenter does. -/
theorem Generation.select_start_eq_error {declaration : Declaration} {generation : Generation}
    {failure : GenerationError} {next : σ} (hrange : presenter.KeepsRange state)
    (h : (start declaration).select presenter state = (.error failure, generation, next)) :
    declaration.analysis.candidates ≠ [] ∧ ∃ cause, failure = .selection cause ∧
      (presenter declaration.analysis.candidates state).1 = .error cause := by
  rcases hrequest : Selection.request presenter declaration.analysis.candidates state with
    ⟨cause | ⟨chosen⟩ | ⟨⟩, after⟩
  · obtain ⟨hne, hfailed⟩ := Selection.request_eq_error hrange hrequest
    rw [select_of_error rfl hrequest] at h
    exact ⟨hne, cause, (Except.error.inj (congrArg Prod.fst h)).symm, hfailed⟩
  · rw [select_of_selected rfl hrequest] at h
    simp at h
  · rw [select_of_cancelled rfl hrequest] at h
    simp at h

end Asked

end Memberwise
