import Memberwise.Proofs.Selection.Positions
import Mathlib.Data.List.Dedup
import Mathlib.Data.List.Nodup

/-!
# What a request comes to

A presenter is asked once, with all candidates, and everything else follows from its answer. An
answer may name an index twice, out of order or out of range. `Settles` says what it leads to: the
first index out of range, in the order of the answer, is an error; if there is none, the candidates
at the answered positions are selected, in the order of the list. Positions count, not values, so
equal candidates are told apart.

The main statement: a request is settled by one answer to the whole list. So only the set of the
answered positions matters, and the selection has one candidate for each of them.
-/

namespace Memberwise

/-- The presenter, with a note of every list that it is shown. -/
def Presenter.noting {σ : Type} (presenter : Presenter σ) : Presenter (σ × List (List Candidate)) :=
  fun candidates state ↦
    let (answer, next) := presenter candidates state.1
    (answer, next, state.2 ++ [candidates])

namespace Selection

/-- What the answer of a presenter leads to. -/
inductive Settles (candidates : List Candidate) :
    Except SelectionError Response → Except SelectionError Selection → Prop where
  | failed (cause : SelectionError) : Settles candidates (.error cause) (.error cause)
  | cancelled : Settles candidates (.ok .cancelled) (.ok .cancelled)
  /-- What comes behind the first index out of range does not matter. -/
  | unknown {before after : List Nat} {index : Nat}
      (hbefore : ∀ earlier ∈ before, earlier < candidates.length)
      (hindex : candidates.length ≤ index) :
      Settles candidates (.ok (.chosen (before ++ index :: after)))
        (.error (.unknownCandidate index candidates.length))
  /-- The answered positions, increasing and so each of them once. -/
  | selected {indices : List Nat} {positions : List (Fin candidates.length)}
      (hrange : ∀ index ∈ indices, index < candidates.length)
      (hincreasing : positions.Pairwise (· < ·))
      (hmem : ∀ i : Fin candidates.length, i ∈ positions ↔ i.val ∈ indices) :
      Settles candidates (.ok (.chosen indices)) (.ok (.selected (positions.map candidates.get)))

/-! ## Increasing positions -/

section Increasing

variable {n : Nat} {positions : List (Fin n)}

theorem eq_of_increasing {others : List (Fin n)} (h : positions.Pairwise (· < ·))
    (hothers : others.Pairwise (· < ·)) (hmem : ∀ i, i ∈ positions ↔ i ∈ others) :
    positions = others := by
  have hperm : positions.Perm others :=
    (List.perm_ext_iff_of_nodup h.nodup hothers.nodup).mpr hmem
  exact hperm.eq_of_pairwise (fun i j _ _ hij hji ↦ absurd hij (lt_asymm hji)) h hothers

/-- There are as many increasing positions as different indices. -/
theorem length_of_increasing {indices : List Nat} (h : positions.Pairwise (· < ·))
    (hrange : ∀ index ∈ indices, index < n) (hmem : ∀ i : Fin n, i ∈ positions ↔ i.val ∈ indices) :
    positions.length = indices.dedup.length := by
  have hvalues : (positions.map Fin.val).Perm indices.dedup := by
    refine (List.perm_ext_iff_of_nodup (h.nodup.map Fin.val_injective)
      (List.nodup_dedup indices)).mpr fun index ↦ ?_
    rw [List.mem_map, List.mem_dedup]
    constructor
    · rintro ⟨i, hi, rfl⟩
      exact (hmem i).mp hi
    · intro hindex
      exact ⟨⟨index, hrange index hindex⟩, (hmem _).mpr hindex, rfl⟩
  simpa using hvalues.length_eq

end Increasing

/-! ## What an answer leads to -/

namespace Settles

variable {candidates : List Candidate} {answer : Except SelectionError Response}
  {result : Except SelectionError Selection}

theorem sublist {chosen : List Candidate} (h : Settles candidates answer (.ok (.selected chosen))) :
    chosen.Sublist candidates := by
  cases h with
  | selected hrange hincreasing hmem => exact List.map_getElem_sublist hincreasing

theorem length_eq {indices : List Nat} {chosen : List Candidate}
    (h : Settles candidates (.ok (.chosen indices)) (.ok (.selected chosen))) :
    chosen.length = indices.dedup.length := by
  cases h with
  | selected hrange hincreasing hmem =>
    rw [List.length_map, length_of_increasing hincreasing hrange hmem]

/-- Answers in range that name the same positions lead to the same. -/
theorem congr {first second : List Nat} {other : Except SelectionError Selection}
    (h : Settles candidates (.ok (.chosen first)) result)
    (hother : Settles candidates (.ok (.chosen second)) other)
    (hrange : ∀ index ∈ first, index < candidates.length)
    (hsame : ∀ index, index ∈ first ↔ index ∈ second) : other = result := by
  cases h with
  | unknown hbefore hindex =>
    exact absurd (hrange _ (List.mem_append_right _ List.mem_cons_self)) (Nat.not_lt.mpr hindex)
  | selected _ hincreasing hmem =>
    cases hother with
    | unknown hbefore hindex =>
      have hfirst := (hsame _).mpr (List.mem_append_right _ List.mem_cons_self)
      exact absurd (hrange _ hfirst) (Nat.not_lt.mpr hindex)
    | selected _ hothers hmemOther =>
      rw [eq_of_increasing hothers hincreasing
        fun i ↦ (hmemOther i).trans ((hsame i.val).symm.trans (hmem i).symm)]

end Settles

theorem settles_ofResponse (candidates : List Candidate) (response : Response) :
    Settles candidates (.ok response) (ofResponse candidates response) := by
  cases response with
  | cancelled => exact .cancelled
  | chosen indices =>
    cases hfind : indices.find? fun index ↦ candidates.length ≤ index with
    | some index =>
      obtain ⟨hindex, before, after, rfl, hbefore⟩ := List.find?_eq_some_iff_append.mp hfind
      have hrange : ∀ earlier ∈ before, earlier < candidates.length := by simpa using hbefore
      have hout : candidates.length ≤ index := by simpa using hindex
      rw [ofResponse_unknown hrange hout]
      exact .unknown hrange hout
    | none =>
      have hrange : ∀ index ∈ indices, index < candidates.length := by
        simpa using List.find?_eq_none.mp hfind
      rw [ofResponse_chosen hrange, atPositions]
      exact .selected hrange ((List.pairwise_lt_finRange _).filter _) (by simp)

/-! ## Requests -/

theorem settles_request {σ : Type} (presenter : Presenter σ) {candidates : List Candidate}
    (hne : candidates ≠ []) (state : σ) :
    Settles candidates (presenter candidates state).1 (request presenter candidates state).1 := by
  rw [request_of_ne_nil hne]
  cases (presenter candidates state).1 with
  | error cause => exact .failed cause
  | ok response => exact settles_ofResponse candidates response

/-- Notes change no answer. -/
theorem request_noting {σ : Type} (presenter : Presenter σ) {candidates : List Candidate}
    (hne : candidates ≠ []) (state : σ) (notes : List (List Candidate)) :
    request presenter.noting candidates (state, notes) =
      ((request presenter candidates state).1, (presenter candidates state).2,
        notes ++ [candidates]) := by
  rw [request_of_ne_nil hne, request_of_ne_nil hne]
  rfl

/-- A presenter is asked once, about the whole list, and its answer settles the request: whatever
the order of the answer and however often it repeats an index, only the set of its indices counts.
Without candidates nobody is asked. -/
theorem request_settles {σ : Type} (presenter : Presenter σ) (candidates : List Candidate)
    (state : σ) (notes : List (List Candidate)) :
    (candidates = [] →
      request presenter candidates state = (.ok (.selected []), state) ∧
      request presenter.noting candidates (state, notes) = (.ok (.selected []), state, notes)) ∧
    (candidates ≠ [] → ∃ result,
      request presenter candidates state = (result, (presenter candidates state).2) ∧
      request presenter.noting candidates (state, notes) =
        (result, (presenter candidates state).2, notes ++ [candidates]) ∧
      Settles candidates (presenter candidates state).1 result ∧
      (∀ chosen, result = .ok (.selected chosen) → chosen.Sublist candidates ∧
        ∀ indices, (presenter candidates state).1 = .ok (.chosen indices) →
          chosen.length = indices.dedup.length) ∧
      ∀ (τ : Type) (other : Presenter τ) (otherState : τ) (first second : List Nat),
        (presenter candidates state).1 = .ok (.chosen first) →
        (other candidates otherState).1 = .ok (.chosen second) →
        (∀ index ∈ first, index < candidates.length) →
        (∀ index, index ∈ first ↔ index ∈ second) →
        (request other candidates otherState).1 = result) := by
  constructor
  · rintro rfl
    exact ⟨request_nil presenter state, request_nil presenter.noting (state, notes)⟩
  · intro hne
    have hsettles := settles_request presenter hne state
    refine ⟨(request presenter candidates state).1, ?_, request_noting presenter hne state notes,
      hsettles, fun chosen hchosen ↦ ?_, ?_⟩
    · rw [request_of_ne_nil hne]
    · rw [hchosen] at hsettles
      refine ⟨hsettles.sublist, fun indices hanswer ↦ ?_⟩
      rw [hanswer] at hsettles
      exact hsettles.length_eq
    · intro τ other otherState first second hfirst hsecond hrange hsame
      have hother := settles_request other hne otherState
      rw [hfirst] at hsettles
      rw [hsecond] at hother
      exact hsettles.congr hother hrange hsame

/-- Of three candidates the first two are equal. Answers that differ in order and repetition take
the second and the third one, and an answer with two indices out of range fails for the first of
them. -/
theorem request_settles_of_equal_candidates :
    let twin : Candidate := ⟨0, "a", "a", "u8"⟩
    let candidates : List Candidate := [twin, twin, ⟨2, "b", "b", "u8"⟩]
    let answering (indices : List Nat) : Presenter Nat := fun _ asked ↦
      (.ok (.chosen indices), asked + 1)
    (request (answering [2, 1, 2]) candidates 0).1 = .ok (.selected [twin, ⟨2, "b", "b", "u8"⟩]) ∧
    (request (answering [1, 2]) candidates 0).1 = (request (answering [2, 1, 2]) candidates 0).1 ∧
    request (answering [0, 7, 3]) candidates 0 = (.error (.unknownCandidate 7 3), 1) ∧
    (request (answering [0, 7, 3]).noting candidates (0, [])).2 = (1, [candidates]) ∧
    request (answering [2]) [] 0 = (.ok (.selected []), 0) := by
  intro twin candidates answering
  refine ⟨by decide +kernel, ?_, by decide +kernel, ?_, ?_⟩
  · obtain ⟨result, hresult, -, -, -, hsame⟩ :=
      (request_settles (answering [2, 1, 2]) candidates 0 []).2 (by decide)
    rw [hresult]
    exact hsame Nat (answering [1, 2]) 0 [2, 1, 2] [1, 2] rfl rfl (by decide) (by simp)
  · obtain ⟨result, -, hnoted, -⟩ :=
      (request_settles (answering [0, 7, 3]) candidates 0 []).2 (by decide)
    rw [hnoted]
    rfl
  · exact ((request_settles (answering [2]) [] 0 []).1 rfl).1

end Selection

end Memberwise
