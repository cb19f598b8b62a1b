import Memberwise.Selection
import Mathlib.Data.List.FinRange

/-!
# Selections by position

A selection is given by positions: an answer names them in any order and repeats them at will, and
`atPositions` takes the candidates there in increasing position. Where the position of each
candidate is its index, candidates that agree in everything else are still told apart, and whether
a candidate was selected can be read off the selection alone.

Indices are marked one after another. The invariant is that exactly the indices so far are marked;
it makes the marked candidates those at the answered positions.
-/

namespace Memberwise.Selection

/-- The candidates at the positions in `indices`, in increasing position. -/
def atPositions (candidates : List Candidate) (indices : List Nat) : List Candidate :=
  ((List.finRange candidates.length).filter fun i ↦ i.val ∈ indices).map candidates.get

theorem mem_atPositions {candidates : List Candidate} {indices : List Nat}
    {candidate : Candidate} :
    candidate ∈ atPositions candidates indices ↔
      ∃ i : Fin candidates.length, i.val ∈ indices ∧ candidates.get i = candidate := by
  simp [atPositions]

/-- The position of each candidate is its index. -/
def Positioned (candidates : List Candidate) : Prop :=
  ∀ i : Fin candidates.length, (candidates.get i).position = i.val

theorem positioned_candidates (body : Body) : Positioned body.candidates :=
  fun i ↦ body.position_getElem_candidates i.val i.isLt

/-- Equal names and types do not matter: a candidate is selected if its position is. -/
theorem Positioned.get_mem_atPositions {candidates : List Candidate}
    (h : Positioned candidates) (indices : List Nat) (i : Fin candidates.length) :
    candidates.get i ∈ atPositions candidates indices ↔ i.val ∈ indices := by
  rw [mem_atPositions]
  constructor
  · rintro ⟨j, hj, heq⟩
    have hposition : j.val = i.val := by rw [← h j, ← h i, heq]
    exact hposition ▸ hj
  · intro hi
    exact ⟨i, hi, rfl⟩

theorem Positioned.filter_contains {candidates : List Candidate}
    (h : Positioned candidates) (indices : List Nat) :
    candidates.filter (atPositions candidates indices).contains =
      atPositions candidates indices := by
  have hfilter : (List.finRange candidates.length).filter
      ((atPositions candidates indices).contains ∘ candidates.get) =
        (List.finRange candidates.length).filter fun i ↦ i.val ∈ indices := by
    apply List.filter_congr
    intro i _
    rw [Function.comp_apply, Bool.eq_iff_iff, List.contains_iff_mem,
      h.get_mem_atPositions, decide_eq_true_iff]
  calc
    candidates.filter (atPositions candidates indices).contains =
        ((List.finRange candidates.length).map candidates.get).filter
          (atPositions candidates indices).contains := by rw [List.map_get_finRange]
    _ = atPositions candidates indices := by rw [List.filter_map, hfilter, atPositions]

/-! ## Marking -/

/-- Exactly the candidates at these indices are marked. -/
structure Marks (candidates : List Candidate) (indices : List Nat) (marks : List Bool) : Prop where
  length_eq : marks.length = candidates.length
  getElem?_iff : ∀ i : Nat, marks[i]? = some true ↔ i ∈ indices

theorem marks_nothing (candidates : List Candidate) :
    Marks candidates [] (List.replicate candidates.length false) where
  length_eq := List.length_replicate
  getElem?_iff i := by simp [List.getElem?_replicate]

namespace Marks

variable {candidates : List Candidate} {indices : List Nat} {marks : List Bool}

theorem mark (h : Marks candidates indices marks) {index : Nat}
    (hindex : index < candidates.length) :
    ∃ next, Selection.mark candidates marks index = .ok next ∧
      Marks candidates (indices ++ [index]) next := by
  rw [← h.length_eq] at hindex
  refine ⟨marks.set index true, if_pos hindex, ⟨by rw [List.length_set, h.length_eq], ?_⟩⟩
  intro i
  rw [List.getElem?_set, List.mem_append, List.mem_singleton, ← h.getElem?_iff]
  by_cases hi : index = i
  · simp [← hi, hindex]
  · simp [hi, Ne.symm hi]

theorem mark_eq_error (h : Marks candidates indices marks) {index : Nat}
    (hindex : candidates.length ≤ index) :
    Selection.mark candidates marks index =
      .error (.unknownCandidate index candidates.length) := by
  rw [← h.length_eq] at hindex
  exact if_neg (Nat.not_lt.mpr hindex)

/-- Marking adds what is answered to what was marked before. -/
theorem markAll (h : Marks candidates indices marks) {more : List Nat}
    (hrange : ∀ index ∈ more, index < candidates.length) :
    ∃ last, Selection.markAll candidates marks more = .ok last ∧
      Marks candidates (indices ++ more) last := by
  induction more generalizing indices marks with
  | nil => exact ⟨marks, rfl, by rwa [List.append_nil]⟩
  | cons index more ih =>
    obtain ⟨hindex, hmore⟩ := List.forall_mem_cons.mp hrange
    obtain ⟨next, hnext, hmarks⟩ := h.mark hindex
    obtain ⟨last, hlast, hall⟩ := ih hmarks hmore
    refine ⟨last, ?_, by rwa [List.append_cons]⟩
    rw [Selection.markAll, hnext]
    exact hlast

/-- The first index out of range is reported, whatever is behind it. -/
theorem markAll_eq_error (h : Marks candidates indices marks) {before : List Nat}
    (hbefore : ∀ index ∈ before, index < candidates.length) {index : Nat}
    (hindex : candidates.length ≤ index) (after : List Nat) :
    Selection.markAll candidates marks (before ++ index :: after) =
      .error (.unknownCandidate index candidates.length) := by
  induction before generalizing indices marks with
  | nil => rw [List.nil_append, Selection.markAll, h.mark_eq_error hindex]
  | cons earlier before ih =>
    obtain ⟨hearlier, hbefore⟩ := List.forall_mem_cons.mp hbefore
    obtain ⟨next, hnext, hmarks⟩ := h.mark hearlier
    rw [List.cons_append, Selection.markAll, hnext]
    exact ih hmarks hbefore

theorem marked_eq (h : Marks candidates indices marks) :
    marked candidates marks = atPositions candidates indices := by
  have hzip : candidates.zip marks = (List.finRange candidates.length).map fun i ↦
      (candidates.get i, decide (i.val ∈ indices)) := by
    apply List.ext_getElem
    · simp [h.length_eq]
    · intro i hleft hright
      have hi : i < marks.length := by simp at hleft; omega
      have hmark : marks[i] = decide (i ∈ indices) := by
        rw [Bool.eq_iff_iff, decide_eq_true_iff, ← h.getElem?_iff, List.getElem?_eq_getElem hi,
          Option.some.injEq]
      simp [hmark]
  rw [marked, hzip, List.filterMap_map, atPositions, ← List.filterMap_eq_map,
    List.filterMap_filter]
  simp

end Marks

/-! ## Asking -/

theorem ofResponse_chosen {candidates : List Candidate} {indices : List Nat}
    (h : ∀ index ∈ indices, index < candidates.length) :
    ofResponse candidates (.chosen indices) =
      .ok (.selected (atPositions candidates indices)) := by
  obtain ⟨marks, hall, hmarks⟩ := (marks_nothing candidates).markAll h
  rw [List.nil_append] at hmarks
  simp only [ofResponse, hall, hmarks.marked_eq]

theorem ofResponse_unknown {candidates : List Candidate} {before : List Nat}
    (hbefore : ∀ index ∈ before, index < candidates.length) {index : Nat}
    (hindex : candidates.length ≤ index) (after : List Nat) :
    ofResponse candidates (.chosen (before ++ index :: after)) =
      .error (.unknownCandidate index candidates.length) := by
  simp only [ofResponse, (marks_nothing candidates).markAll_eq_error hbefore hindex after]

theorem request_of_chosen {σ : Type} {presenter : Presenter σ} {candidates : List Candidate}
    {indices : List Nat} {state next : σ} (hne : candidates ≠ [])
    (hanswer : presenter candidates state = (.ok (.chosen indices), next))
    (hrange : ∀ index ∈ indices, index < candidates.length) :
    request presenter candidates state =
      (.ok (.selected (atPositions candidates indices)), next) := by
  rw [request_of_ne_nil hne, hanswer]
  simp only [Except.bind, ofResponse_chosen hrange]

end Memberwise.Selection
