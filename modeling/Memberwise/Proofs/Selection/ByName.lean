import Memberwise.Proofs.Selection.Script

/-!
# Selecting by name

A name stands for the first candidate that has it, and candidates may share a name. `NamesSelect`
says what a list of names comes to: the first of them that nobody has is an error; if there is none,
the candidates that are the first of their name are selected if the name is listed, in the order of
the candidates. A later candidate of the same name is never selected.

The main statement: a request with a script of names comes to this, so only the set of the names
matters.
-/

namespace Memberwise

open Candidate (IsFirstNamed)

namespace Script

/-- What a list of names comes to. -/
inductive NamesSelect (candidates : List Candidate) :
    List String → Except SelectionError Selection → Prop where
  /-- What comes behind the first name that nobody has does not matter. -/
  | unknown {before after : List String} {name : String}
      (hbefore : ∀ earlier ∈ before, ∃ candidate ∈ candidates, candidate.binding = earlier)
      (hname : ∀ candidate ∈ candidates, candidate.binding ≠ name) :
      NamesSelect candidates (before ++ name :: after) (.error (.unknownName name))
  /-- Of each name the first position, increasing and so each of them once. -/
  | selected {names : List String} {positions : List (Fin candidates.length)}
      (hnames : ∀ name ∈ names, ∃ candidate ∈ candidates, candidate.binding = name)
      (hincreasing : positions.Pairwise (· < ·))
      (hmem : ∀ i : Fin candidates.length, i ∈ positions ↔
        (candidates.get i).binding ∈ names ∧ ∀ j < i,
          (candidates.get j).binding ≠ (candidates.get i).binding) :
      NamesSelect candidates names (.ok (.selected (positions.map candidates.get)))

variable {candidates : List Candidate} {names : List String}

theorem exists_of_indexOfName_eq_ok {name : String} {index : Nat}
    (h : indexOfName candidates name = .ok index) :
    ∃ candidate ∈ candidates, candidate.binding = name :=
  Candidate.exists_of_indexOfName? (indexOfName_eq_ok_iff.mp h)

/-- The indices of names are the positions that are the first of a listed name. -/
theorem mem_indicesOfNames_iff {indices : List Nat}
    (h : indicesOfNames candidates names = .ok indices) (i : Fin candidates.length) :
    i.val ∈ indices ↔ (candidates.get i).binding ∈ names ∧ ∀ j < i,
      (candidates.get j).binding ≠ (candidates.get i).binding := by
  have htraversed := traversed_indicesOfNames candidates names
  rw [h] at htraversed
  constructor
  · intro hi
    obtain ⟨name, hmem, hname⟩ := htraversed.exists_of_mem hi
    obtain ⟨rfl, hfirst⟩ := Candidate.indexOfName?_eq_some_iff.mp (indexOfName_eq_ok_iff.mp hname)
    exact ⟨hmem, hfirst⟩
  · rintro ⟨hmem, hfirst⟩
    obtain ⟨index, hindex, hname⟩ := htraversed.exists_ok_of_mem hmem
    have hi := Candidate.indexOfName?_eq_some_iff.mpr ⟨rfl, hfirst⟩
    rw [indexOfName_eq_ok_iff, hi] at hname
    exact Option.some.inj hname ▸ hindex

theorem namesSelect_outcome (candidates : List Candidate) (names : List String) :
    NamesSelect candidates names ((Script.names names).outcome candidates) := by
  have htraversed := traversed_indicesOfNames candidates names
  rw [outcome]
  cases hindices : indicesOfNames candidates names with
  | error cause =>
    rw [hindices] at htraversed
    cases htraversed with
    | error hbefore hfails =>
      obtain ⟨hname, rfl⟩ := indexOfName_eq_error_iff.mp hfails
      refine .unknown (fun earlier hearlier ↦ ?_) hname
      obtain ⟨index, hindex⟩ := hbefore earlier hearlier
      exact exists_of_indexOfName_eq_ok hindex
  | ok indices =>
    rw [hindices] at htraversed
    refine .selected (fun name hname ↦ ?_) ((List.pairwise_lt_finRange _).filter _) fun i ↦ ?_
    · obtain ⟨index, -, hindex⟩ := htraversed.exists_ok_of_mem hname
      exact exists_of_indexOfName_eq_ok hindex
    · rw [← mem_indicesOfNames_iff hindices i]
      simp

/-- Names in another order, and with other repetitions, select the same. -/
theorem NamesSelect.congr {others : List String} {result other : Except SelectionError Selection}
    (h : NamesSelect candidates names result) (hother : NamesSelect candidates others other)
    (hsame : ∀ name, name ∈ names ↔ name ∈ others) (selection : Selection) :
    other = .ok selection ↔ result = .ok selection := by
  cases h with
  | @unknown before after name _ hname =>
    cases hother with
    | unknown => simp
    | selected hnames =>
      -- the unknown name is among the others, too
      have hmem := (hsame name).mp (List.mem_append_right before List.mem_cons_self)
      obtain ⟨candidate, hcandidate, hbinding⟩ := hnames name hmem
      exact absurd hbinding (hname candidate hcandidate)
  | selected hnames hincreasing hmem =>
    cases hother with
    | @unknown before after name _ hname =>
      have hknown := (hsame name).mpr (List.mem_append_right before List.mem_cons_self)
      obtain ⟨candidate, hcandidate, hbinding⟩ := hnames name hknown
      exact absurd hbinding (hname candidate hcandidate)
    | selected _ hothers hmemOther =>
      rw [Selection.eq_of_increasing hothers hincreasing fun i ↦ by
        rw [hmem i, hmemOther i, hsame]]

end Script

open Selection (request)

namespace Scripted

/-- A request with a new script of names fails for the first name that nobody has, and otherwise
selects the first candidate of every name that is listed. Only the set of the names matters. -/
theorem request_start_names {candidates : List Candidate} (hne : candidates ≠ [])
    (names : List String) :
    Script.NamesSelect candidates names
        (request present candidates (start (.names names))).1 ∧
      ∀ others : List String, (∀ name, name ∈ names ↔ name ∈ others) → ∀ selection,
        (request present candidates (start (.names others))).1 = .ok selection ↔
          (request present candidates (start (.names names))).1 = .ok selection := by
  have hselect : ∀ listed : List String, Script.NamesSelect candidates listed
      (request present candidates (start (.names listed))).1 := by
    intro listed
    rw [request_start _ hne]
    exact Script.namesSelect_outcome candidates listed
  exact ⟨hselect names, fun others hsame ↦ (hselect names).congr (hselect others) hsame⟩

/-- Two candidates have no name of their own. Their common name selects the first of them, however
often it is listed, and a name that nobody has is an error wherever it stands. -/
theorem request_start_names_of_unnamed :
    let candidates : List Candidate :=
      [⟨0, "a", "a", "u8"⟩, ⟨1, unnamedField, unnamedField, "u8"⟩,
        ⟨2, unnamedField, unnamedField, "u16"⟩]
    let select (names : List String) := (request present candidates (start (.names names))).1
    select ["[unnamed]", "a"] =
        .ok (.selected [⟨0, "a", "a", "u8"⟩, ⟨1, unnamedField, unnamedField, "u8"⟩]) ∧
      select ["a", "[unnamed]", "a"] = select ["[unnamed]", "a"] ∧
      select ["a", "c", "b"] = .error (.unknownName "c") ∧
      ∀ selection, select ["c", "b", "a"] ≠ .ok selection := by
  intro candidates select
  have hselected : select ["[unnamed]", "a"] =
      .ok (.selected [⟨0, "a", "a", "u8"⟩, ⟨1, unnamedField, unnamedField, "u8"⟩]) := by
    decide +kernel
  have hunknown : select ["a", "c", "b"] = .error (.unknownName "c") := by
    decide +kernel
  refine ⟨hselected, ?_, hunknown, fun selection hselection ↦ ?_⟩
  · rw [hselected]
    exact ((request_start_names (by decide) ["[unnamed]", "a"]).2 ["a", "[unnamed]", "a"]
      (by simp [or_comm]) _).mpr hselected
  · have hsame := ((request_start_names (by decide) ["a", "c", "b"]).2 ["c", "b", "a"]
      (by simp [or_comm, or_left_comm]) selection).mp hselection
    exact absurd (hunknown.symm.trans hsame) (by simp)

end Scripted

end Memberwise
