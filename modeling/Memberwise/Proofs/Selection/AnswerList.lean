import Memberwise.Proofs.Selection.Range
import Memberwise.Proofs.Text.Pieces
import Mathlib.Algebra.Group.Nat.Defs

/-!
# Answers that are lists

An answer that is no name and no keyword is a list, cut into pieces at commas and blanks. A piece
stands for the first candidate with this name or, if there is none, for the one that it counts to as
a numeral. `StandsFor` says so by values of any size, though numerals are read only up to a limit:
no list of candidates is longer than that, so the limit shows in the wording of a refusal alone.

The main statements: a list is read exactly if every piece stands for a candidate, and otherwise the
first piece that does not is complained about. No answer leads out of the range of the candidates.
No candidate is chosen only by the word for it, or by a list without any piece.
-/

namespace Memberwise

open Candidate (IsFirstNamed indexOfName?)
open Text (IsNumeral IsTrimmed Parted)

namespace Answer

variable {candidates : List Candidate} {piece answer : List Char} {line : String}

/-! ## Pieces -/

/-- The piece stands for the candidate at this index. -/
inductive StandsFor (candidates : List Candidate) (piece : List Char) : Nat → Prop where
  | name {i : Fin candidates.length} (first : IsFirstNamed candidates (String.ofList piece) i) :
      StandsFor candidates piece i.val
  | number {value : Nat}
      (no_name : ∀ candidate ∈ candidates, candidate.binding ≠ String.ofList piece)
      (isNumeral : IsNumeral piece value) (one_le : 1 ≤ value) (le : value ≤ candidates.length) :
      StandsFor candidates piece (value - 1)

/-- What is said of a piece that stands for no candidate. -/
inductive Complaint (candidates : List Candidate) (piece : List Char) : String → Prop where
  | range {value : Nat} (isNumeral : IsNumeral piece value) (lt : value < 2 ^ 64)
      (out : value = 0 ∨ candidates.length < value) :
      Complaint candidates piece
        (toString value ++ " is not between 1 and " ++ toString candidates.length)
  | unreadable (large : ∀ value, IsNumeral piece value → 2 ^ 64 ≤ value) :
      Complaint candidates piece
        ("'" ++ String.ofList piece ++ "' is neither a number nor a field name")

theorem standsFor_of_index {found : Nat} (h : index candidates piece = .ok found) :
    StandsFor candidates piece found := by
  rw [index] at h
  split at h
  · rename_i named hnamed
    obtain rfl := Except.ok.inj h
    have hlt := Candidate.lt_of_indexOfName? hnamed
    exact .name (i := ⟨named, hlt⟩) (Candidate.indexOfName?_eq_some_iff.mp hnamed)
  · rename_i hnone
    split at h
    · simp at h
    · rename_i value hvalue
      split at h
      · rename_i hrange
        obtain rfl := Except.ok.inj h
        exact .number (Candidate.indexOfName?_eq_none_iff.mp hnone)
          (Text.numeral?_eq_some_iff.mp hvalue).1 hrange.1 hrange.2
      · simp at h

/-- A number of a candidate is below the limit. -/
theorem StandsFor.index_eq {found : Nat} (hcount : candidates.length < 2 ^ 64)
    (h : StandsFor candidates piece found) : index candidates piece = .ok found := by
  cases h with
  | name hfirst => rw [index, Candidate.indexOfName?_eq_some_iff.mpr hfirst]
  | @number value hname hnumeral hone hle =>
    have hlimit : value < Text.numeralLimit := Nat.lt_of_le_of_lt hle hcount
    rw [index, Candidate.indexOfName?_eq_none_iff.mpr hname,
      Text.numeral?_eq_some_iff.mpr ⟨hnumeral, hlimit⟩]
    exact if_pos ⟨hone, hle⟩

theorem complaint_of_index {cause : AnswerError} (h : index candidates piece = .error cause) :
    Complaint candidates piece cause.message := by
  rw [index] at h
  split at h
  · simp at h
  · split at h
    · rename_i hnone
      exact Except.error.inj h ▸ .unreadable (Text.numeral?_eq_none_iff.mp hnone)
    · rename_i value hvalue
      split at h
      · simp at h
      · obtain ⟨hnumeral, hlt⟩ := Text.numeral?_eq_some_iff.mp hvalue
        exact Except.error.inj h ▸ .range hnumeral hlt (by omega)

/-! ## Keywords -/

/-- The answer with its capitals as small letters. -/
def small (answer : List Char) : String := String.ofList (answer.map Char.toLower)

theorem small_eq_empty_iff : small answer = "" ↔ answer = [] := by
  simp [small]

theorem keyword?_eq_none_iff :
    keyword? answer = none ↔
      answer ≠ [] ∧ ∀ word ∈ ["all", "none", "q", "quit", "cancel"], small answer ≠ word := by
  rw [ne_eq, ← small_eq_empty_iff, keyword?, ← small]
  generalize small answer = word
  simp only [List.forall_mem_cons, List.not_mem_nil, false_implies, implies_true, and_true]
  grind

theorem keyword?_eq_some_none_iff : keyword? answer = some .none ↔ small answer = "none" := by
  rw [keyword?, ← small]
  generalize small answer = word
  grind

/-- No keyword is written with separators. -/
theorem keyword?_eq_none_of_isSeparator (hne : answer ≠ [])
    (h : ∀ c ∈ answer, isSeparator c = true) : keyword? answer = none := by
  obtain ⟨c, rest, rfl⟩ := List.exists_cons_of_ne_nil hne
  have halphanum := isAlphanum_of_isSeparator (h c List.mem_cons_self)
  exact keyword?_eq_none List.mem_cons_self (Bool.or_eq_false_iff.mp halphanum).1

/-! ## Lists -/

/-- The answer is neither a name nor empty nor a keyword. -/
structure IsList (candidates : List Candidate) (answer : List Char) : Prop where
  no_name : ∀ candidate ∈ candidates, candidate.binding ≠ String.ofList answer
  ne_nil : answer ≠ []
  no_keyword : ∀ word ∈ ["all", "none", "q", "quit", "cancel"], small answer ≠ word

/-- What the pieces of a list come to. -/
inductive ListRead (candidates : List Candidate) :
    List (List Char) → Except AnswerError Response → Prop where
  /-- An index for each piece, in turn. -/
  | chosen {pieces : List (List Char)} {indices : List Nat}
      (each : List.Forall₂ (StandsFor candidates) pieces indices) :
      ListRead candidates pieces (.ok (.chosen indices))
  /-- What comes behind the first piece that stands for nothing does not matter. -/
  | refused {before after : List (List Char)} {piece : List Char} {cause : AnswerError}
      (before_ok : ∀ earlier ∈ before, ∃ index, StandsFor candidates earlier index)
      (not_standsFor : ∀ index, ¬ StandsFor candidates piece index)
      (complaint : Complaint candidates piece cause.message) :
      ListRead candidates (before ++ piece :: after) (.error cause)

theorem listRead_indices (hcount : candidates.length < 2 ^ 64) (pieces : List (List Char)) :
    ListRead candidates pieces ((indices candidates pieces).map .chosen) := by
  have htraversed := traversed_indices candidates pieces
  cases hindices : indices candidates pieces with
  | ok found =>
    rw [hindices] at htraversed
    cases htraversed with
    | ok each => exact .chosen (each.imp fun _ _ ↦ standsFor_of_index)
  | error cause =>
    rw [hindices] at htraversed
    cases htraversed with
    | error hbefore hfails =>
      refine .refused (fun earlier hearlier ↦ ?_) (fun index hindex ↦ ?_)
        (complaint_of_index hfails)
      · obtain ⟨index, hindex⟩ := hbefore earlier hearlier
        exact ⟨index, standsFor_of_index hindex⟩
      · simp [hindex.index_eq hcount] at hfails

theorem ListRead.exists_response_iff {pieces : List (List Char)}
    {result : Except AnswerError Response} (h : ListRead candidates pieces result) :
    (∃ response, result = .ok response) ↔
      ∀ piece ∈ pieces, ∃ index, StandsFor candidates piece index := by
  cases h with
  | chosen each =>
    refine iff_of_true ⟨_, rfl⟩ fun piece hpiece ↦ ?_
    obtain ⟨i, hi, rfl⟩ := List.mem_iff_getElem.mp hpiece
    exact ⟨_, each.get hi (each.length_eq ▸ hi)⟩
  | refused _ hnone _ =>
    refine iff_of_false (by simp) fun hall ↦ ?_
    obtain ⟨index, hindex⟩ := hall _ (List.mem_append_right _ List.mem_cons_self)
    exact hnone index hindex

theorem read_eq_indices (htrim : IsTrimmed line.toList answer)
    (hname : ∀ candidate ∈ candidates, candidate.binding ≠ String.ofList answer)
    (hkeyword : keyword? answer = none) :
    read line candidates =
      (indices candidates (Text.runsBetween isSeparator answer)).map .chosen := by
  rw [read, htrim.trim_eq, Candidate.indexOfName?_eq_none_iff.mpr hname]
  simp only [hkeyword]

/-- A list is read piece by piece, and numerals of any size count. Whatever the answer, it does not
lead out of the range of the candidates, so a selection at a prompt does not fail for that. -/
theorem read_list (candidates : List Candidate) :
    (candidates.length < 2 ^ 64 →
      ∀ (line : String) (answer : List Char) (pieces : List (List Char)),
        IsTrimmed line.toList answer → IsList candidates answer →
        Parted isSeparator pieces answer →
        ListRead candidates pieces (read line candidates) ∧
          ((∃ response, read line candidates = .ok response) ↔
            ∀ piece ∈ pieces, ∃ index, StandsFor candidates piece index)) ∧
    (∀ (line : String) (indices : List Nat), read line candidates = .ok (.chosen indices) →
      ∀ index ∈ indices, index < candidates.length) ∧
    ∀ (prompt : Prompt) (index count : Nat),
      (Selection.request Prompt.present candidates prompt).1 ≠
        .error (.unknownCandidate index count) := by
  refine ⟨fun hcount line answer pieces htrim hlist hpieces ↦ ?_, fun line indices hread ↦ ?_,
    fun prompt index count hfailed ↦ ?_⟩
  · have hkeyword := keyword?_eq_none_iff.mpr ⟨hlist.ne_nil, hlist.no_keyword⟩
    have hread := listRead_indices hcount pieces
    rw [← hpieces.runsBetween_eq, ← read_eq_indices htrim hlist.no_name hkeyword,
      hpieces.runsBetween_eq] at hread
    exact ⟨hread, hread.exists_response_iff⟩
  · exact inRange_of_read hread
  · obtain ⟨_, hanswer⟩ :=
      Selection.request_eq_error (Prompt.keepsRange prompt) (Prod.ext hfailed rfl)
    have hanswered := Prompt.answered_present candidates prompt
    rw [hanswer] at hanswered
    cases hanswered

/-- A numeral with a sign and zeros before it, a name that looks like a number, and a name that two
candidates have. The number of no candidate is refused, however large it is. -/
theorem read_list_of_numerals :
    let candidates : List Candidate :=
      [⟨0, "x", "x", "u8"⟩, ⟨1, "1", "1", "u8"⟩, ⟨2, "x", "x", "u16"⟩]
    read " +003,1 x\n" candidates = .ok (.chosen [2, 1, 0]) ∧
      (∃ response, read " +003,1 x\n" candidates = .ok response) ∧
      (¬ ∃ response, read "x,4,18446744073709551617" candidates = .ok response) ∧
      read "18446744073709551617 0" candidates = .error (.unreadable "18446744073709551617") := by
  intro candidates
  have hcount : candidates.length < 2 ^ 64 := by decide
  have hpieces : Parted isSeparator ["+003".toList, ['1'], ['x']] "+003,1 x".toList :=
    Text.parted_iff.mpr (by decide)
  have hread := (read_list candidates).1 hcount " +003,1 x\n" _ _
    (Text.isTrimmed_iff.mpr (by decide)) ⟨by decide, by decide, by decide +kernel⟩ hpieces
  have hlarge : Parted isSeparator [['x'], ['4'], "18446744073709551617".toList]
      "x,4,18446744073709551617".toList :=
    Text.parted_iff.mpr (by decide)
  have hrefused := (read_list candidates).1 hcount "x,4,18446744073709551617" _ _
    (Text.isTrimmed_iff.mpr (by decide)) ⟨by decide, by decide, by decide +kernel⟩ hlarge
  refine ⟨by decide +kernel, hread.2.mpr ?_, fun h ↦ ?_, by decide +kernel⟩
  · simp only [List.forall_mem_cons, List.not_mem_nil, false_implies, implies_true, and_true]
    exact ⟨⟨2, standsFor_of_index (by decide +kernel)⟩, ⟨1, standsFor_of_index (by decide +kernel)⟩,
      0, standsFor_of_index (by decide +kernel)⟩
  · obtain ⟨found, hfound⟩ := hrefused.2.mp h ['4'] (by simp)
    have hrange : index candidates ['4'] = .error (.outOfRange 4 3) := by decide +kernel
    exact absurd (hrange.symm.trans (hfound.index_eq hcount)) (by simp)

/-! ## Lists without pieces -/

theorem indices_eq_ok_nil_iff (candidates : List Candidate) {pieces : List (List Char)} :
    indices candidates pieces = .ok [] ↔ pieces = [] := by
  constructor
  · intro h
    have htraversed := traversed_indices candidates pieces
    rw [h] at htraversed
    cases htraversed with
    | ok each => exact List.forall₂_nil_right_iff.mp each
  · rintro rfl
    rfl

theorem read_eq_chosen_nil_iff (hne : candidates ≠ []) (htrim : IsTrimmed line.toList answer) :
    read line candidates = .ok (.chosen []) ↔
      (∀ candidate ∈ candidates, candidate.binding ≠ String.ofList answer) ∧
        (small answer = "none" ∨ answer ≠ [] ∧ ∀ c ∈ answer, isSeparator c = true) := by
  rw [← keyword?_eq_some_none_iff]
  cases hname : indexOfName? candidates (String.ofList answer) with
  | some named =>
    obtain ⟨candidate, hcandidate, hbinding⟩ := Candidate.exists_of_indexOfName? hname
    rw [read, htrim.trim_eq, hname]
    exact iff_of_false (by simp) fun h ↦ h.1 candidate hcandidate hbinding
  | none =>
    have hfree := Candidate.indexOfName?_eq_none_iff.mp hname
    cases hkeyword : keyword? answer with
    | none =>
      have hanswer := (keyword?_eq_none_iff.mp hkeyword).1
      rw [read_eq_indices htrim hfree hkeyword, ← Text.runsBetween_eq_nil_iff,
        ← indices_eq_ok_nil_iff candidates]
      cases indices candidates (Text.runsBetween isSeparator answer) with
      | error cause => simp [Except.map]
      | ok found => simpa [Except.map, hanswer] using fun _ ↦ hfree
    | some keyword =>
      have hvisible : ¬ (answer ≠ [] ∧ ∀ c ∈ answer, isSeparator c = true) := fun h ↦ by
        simp [keyword?_eq_none_of_isSeparator h.1 h.2] at hkeyword
      rw [read, htrim.trim_eq, hname]
      simp only [hkeyword]
      cases keyword with
      | all => simpa [hvisible] using hne
      | none => simpa using hfree
      | cancel => simp [hvisible]

/-- No candidate is chosen only by the word for it, unless the answer is all separators. -/
theorem chooses_nothing_iff {candidates : List Candidate} (hne : candidates ≠ []) :
    (∀ (line : String) (answer : List Char), IsTrimmed line.toList answer →
      (read line candidates = .ok (.chosen []) ↔
        (∀ candidate ∈ candidates, candidate.binding ≠ String.ofList answer) ∧
          (small answer = "none" ∨ answer ≠ [] ∧ ∀ c ∈ answer, isSeparator c = true))) ∧
    ∀ prompt : Prompt, (Prompt.present candidates prompt).1 = .ok (.chosen []) →
      ∃ bytes ∈ prompt.pending, ∃ line, Prompt.decode? bytes = some line ∧
        read line candidates = .ok (.chosen []) := by
  refine ⟨fun line answer htrim ↦ read_eq_chosen_nil_iff hne htrim, fun prompt hpresent ↦ ?_⟩
  have hanswered := Prompt.answered_present candidates prompt
  rw [hpresent] at hanswered
  cases hanswered with
  | read hmem hdecode hread => exact ⟨_, hmem, _, hdecode, hread⟩

/-- In capitals the word is still said, and a candidate with this name takes it back. -/
theorem chooses_nothing_iff_of_capitals :
    let field : Candidate := ⟨0, "x", "x", "i32"⟩
    read " NONE\n" [field] = .ok (.chosen []) ∧
      read "none" [field, ⟨1, "none", "none", "u8"⟩] ≠ .ok (.chosen []) := by
  intro field
  have hcapitals := (chooses_nothing_iff (List.cons_ne_nil field [])).1 " NONE\n" "NONE".toList
    (Text.isTrimmed_iff.mpr (by decide))
  have hname := (chooses_nothing_iff (List.cons_ne_nil field [⟨1, "none", "none", "u8"⟩])).1 "none"
    "none".toList (Text.isTrimmed_iff.mpr (by decide))
  exact ⟨hcapitals.mpr ⟨by decide, Or.inl (by decide)⟩, fun h ↦ absurd (hname.mp h).1 (by decide)⟩

/-- A comma alone is not the word, and chooses nothing all the same. -/
theorem comma_chooses_nothing :
    let candidates : List Candidate := [⟨0, "x", "x", "i32"⟩]
    read "," candidates = .ok (.chosen []) ∧
      ¬ (small (Text.trim ",".toList) = "none" ∧
        ∀ candidate ∈ candidates, candidate.binding ≠ String.ofList (Text.trim ",".toList)) := by
  decide +kernel

end Answer

end Memberwise
