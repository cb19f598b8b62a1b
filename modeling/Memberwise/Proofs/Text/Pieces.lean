import Memberwise.Proofs.Text.Runs

/-!
# The pieces of a text

A text is cut into pieces by its separators, and into a core and the blanks around it. Both cuts are
said here by the concatenation that they undo, without saying how they are found: every text has
exactly one of each.

The main statements: the runs of a text are its pieces, and the trimmed text is its core. So words
with single spaces between them are found again as they are, and a collapsed text has the words of
the text.
-/

namespace Memberwise.Text

/-! ## Pieces -/

/-- The text consists of the pieces in turn, with separators around them. A piece has no separator
in it and goes on as far as the next one. -/
inductive Parted (isSeparator : Char → Bool) : List (List Char) → List Char → Prop where
  | nil {gap : List Char} (gap_subset : ∀ c ∈ gap, isSeparator c = true) : Parted isSeparator [] gap
  | cons {gap piece rest : List Char} {pieces : List (List Char)}
      (gap_subset : ∀ c ∈ gap, isSeparator c = true) (ne_nil : piece ≠ [])
      (free : ∀ c ∈ piece, isSeparator c = false)
      (ends : ∀ c ∈ rest.head?, isSeparator c = true) (next : Parted isSeparator pieces rest) :
      Parted isSeparator (piece :: pieces) (gap ++ piece ++ rest)

section Parted

variable {isSeparator : Char → Bool} {pieces : List (List Char)} {text : List Char}

theorem Parted.free_of_mem (h : Parted isSeparator pieces text) {piece : List Char}
    (hpiece : piece ∈ pieces) : piece ≠ [] ∧ ∀ c ∈ piece, isSeparator c = false := by
  induction h with
  | nil => simp at hpiece
  | cons _ hne hfree _ _ ih =>
    rcases List.mem_cons.mp hpiece with rfl | hpiece
    · exact ⟨hne, hfree⟩
    · exact ih hpiece

/-- A piece ends behind a separator or at the end of the text. -/
theorem runsBetween_append_of_ends {front rest : List Char}
    (h : ∀ c ∈ rest.head?, isSeparator c = true) :
    runsBetween isSeparator (front ++ rest) =
      runsBetween isSeparator front ++ runsBetween isSeparator rest := by
  cases rest with
  | nil => simp
  | cons c rest =>
    have hc : isSeparator c = true := h c rfl
    rw [runsBetween_append_separator hc, runsBetween_cons_separator hc]

theorem Parted.runsBetween_eq (h : Parted isSeparator pieces text) :
    runsBetween isSeparator text = pieces := by
  induction h with
  | @nil gap hgap =>
    have hruns := runsBetween_gap_append hgap []
    rwa [List.append_nil, runsBetween_nil] at hruns
  | @cons gap piece rest pieces hgap hne hfree hends _ ih =>
    rw [List.append_assoc, runsBetween_gap_append hgap, runsBetween_append_of_ends hends,
      runsBetween_eq_singleton hne hfree, ih, List.singleton_append]

theorem Parted.cons_separator {c : Char} (hc : isSeparator c = true)
    (h : Parted isSeparator pieces text) : Parted isSeparator pieces (c :: text) := by
  cases h with
  | nil hgap => exact .nil (List.forall_mem_cons.mpr ⟨hc, hgap⟩)
  | @cons gap piece rest pieces hgap hne hfree hends hnext =>
    have hcons : Parted isSeparator (piece :: pieces) ((c :: gap) ++ piece ++ rest) :=
      .cons (List.forall_mem_cons.mpr ⟨hc, hgap⟩) hne hfree hends hnext
    exact hcons

/-- A piece at the beginning. -/
theorem Parted.cons_piece {piece : List Char} (hne : piece ≠ [])
    (hfree : ∀ c ∈ piece, isSeparator c = false) (hends : ∀ c ∈ text.head?, isSeparator c = true)
    (h : Parted isSeparator pieces text) :
    Parted isSeparator (piece :: pieces) (piece ++ text) := by
  have hcons : Parted isSeparator (piece :: pieces) ([] ++ piece ++ text) :=
    .cons (by simp) hne hfree hends h
  exact hcons

/-- A character before a text begins a piece, or continues the one that the text begins with. -/
theorem exists_parted (isSeparator : Char → Bool) (text : List Char) :
    ∃ pieces, Parted isSeparator pieces text := by
  induction text with
  | nil => exact ⟨[], .nil (by simp)⟩
  | cons c rest ih =>
    obtain ⟨pieces, h⟩ := ih
    cases hc : isSeparator c with
    | true => exact ⟨pieces, h.cons_separator hc⟩
    | false =>
      have hsingle : ∀ d ∈ [c], isSeparator d = false := by simpa using hc
      cases h with
      | nil hgap =>
        have hends : ∀ d ∈ rest.head?, isSeparator d = true :=
          fun d hd ↦ hgap d (List.mem_of_head? hd)
        exact ⟨[[c]], .cons_piece (List.cons_ne_nil c []) hsingle hends (.nil hgap)⟩
      | @cons gap piece rest pieces hgap hne hfree hends hnext =>
        cases gap with
        | nil =>
          exact ⟨(c :: piece) :: pieces, .cons_piece (List.cons_ne_nil c piece)
            (List.forall_mem_cons.mpr ⟨hc, hfree⟩) hends hnext⟩
        | cons d gap =>
          have hd : ∀ e ∈ ((d :: gap) ++ piece ++ rest).head?, isSeparator e = true := by
            simpa using hgap d List.mem_cons_self
          exact ⟨[c] :: piece :: pieces, .cons_piece (List.cons_ne_nil c []) hsingle hd
            (.cons hgap hne hfree hends hnext)⟩

/-- The runs between separators are the pieces, and there is no other way to cut a text. -/
theorem parted_iff : Parted isSeparator pieces text ↔ runsBetween isSeparator text = pieces := by
  constructor
  · exact Parted.runsBetween_eq
  · rintro rfl
    obtain ⟨pieces, h⟩ := exists_parted isSeparator text
    rwa [h.runsBetween_eq]

/-- A text without pieces is all separators. -/
theorem runsBetween_eq_nil_iff :
    runsBetween isSeparator text = [] ↔ ∀ c ∈ text, isSeparator c = true := by
  rw [← parted_iff]
  constructor
  · intro h
    cases h with
    | nil hgap => exact hgap
  · exact .nil

theorem Parted.gap_append {gap : List Char} (hgap : ∀ c ∈ gap, isSeparator c = true)
    (h : Parted isSeparator pieces text) : Parted isSeparator pieces (gap ++ text) := by
  induction gap with
  | nil => exact h
  | cons c gap ih =>
    exact (ih fun d hd ↦ hgap d (List.mem_cons_of_mem c hd)).cons_separator
      (hgap c List.mem_cons_self)

/-- Joined pieces are found again, whatever the gaps are. -/
theorem Joined.parted {inGap : Char → Prop} (h : Joined inGap pieces text)
    (hgap : ∀ c, inGap c → isSeparator c = true) (hne : ∀ piece ∈ pieces, piece ≠ [])
    (hfree : ∀ piece ∈ pieces, ∀ c ∈ piece, isSeparator c = false) :
    Parted isSeparator pieces text := by
  induction h with
  | single piece =>
    have hpiece : Parted isSeparator [piece] (piece ++ []) :=
      .cons_piece (hne piece List.mem_cons_self) (hfree piece List.mem_cons_self) (by simp)
        (.nil (by simp))
    rwa [List.append_nil] at hpiece
  | @cons piece gap pieces text hgapne hsubset _ ih =>
    have hseparators : ∀ c ∈ gap, isSeparator c = true := fun c hc ↦ hgap c (hsubset c hc)
    have hends : ∀ c ∈ (gap ++ text).head?, isSeparator c = true := by
      obtain ⟨d, others, rfl⟩ := List.exists_cons_of_ne_nil hgapne
      simpa using hseparators d List.mem_cons_self
    have htext := ih (fun other hother ↦ hne other (List.mem_cons_of_mem piece hother))
      fun other hother ↦ hfree other (List.mem_cons_of_mem piece hother)
    rw [List.append_assoc]
    exact .cons_piece (hne piece List.mem_cons_self) (hfree piece List.mem_cons_self) hends
      (htext.gap_append hseparators)

end Parted

/-! ## Words with single spaces -/

/-- A word is not empty and has no blank in it. -/
def IsWord (word : List Char) : Prop := word ≠ [] ∧ ∀ c ∈ word, isBlank c = false

theorem isWord_of_mem_words {text word : List Char} (h : word ∈ words text) : IsWord word :=
  ⟨ne_nil_of_mem_runsBetween h, fun _ hc ↦ not_isSeparator_of_mem_runsBetween h hc⟩

theorem words_intercalate {pieces : List (List Char)} (h : ∀ piece ∈ pieces, IsWord piece) :
    words ([' '].intercalate pieces) = pieces := by
  induction pieces with
  | nil => rfl
  | cons piece pieces ih =>
    have hpiece : words piece = [piece] :=
      runsBetween_eq_singleton (h piece List.mem_cons_self).1 (h piece List.mem_cons_self).2
    cases pieces with
    | nil => rw [List.intercalate_singleton, hpiece]
    | cons second others =>
      have hspace : isBlank ' ' = true := by decide
      have hothers := ih fun other hother ↦ h other (List.mem_cons_of_mem piece hother)
      rw [List.intercalate_cons_cons, List.append_assoc, List.singleton_append, words,
        runsBetween_append_separator hspace]
      exact congrArg₂ (· ++ ·) hpiece hothers

/-- Words with single spaces between them are collapsed, but for blanks at the end. -/
theorem collapse_intercalate_append {pieces : List (List Char)} {blanks : List Char}
    (h : ∀ piece ∈ pieces, IsWord piece) (hblanks : ∀ c ∈ blanks, isBlank c = true) :
    collapse ([' '].intercalate pieces ++ blanks) = [' '].intercalate pieces := by
  have hends : ∀ c ∈ blanks.head?, isBlank c = true := fun c hc ↦ hblanks c (List.mem_of_head? hc)
  have hwords : words ([' '].intercalate pieces ++ blanks) = pieces := by
    rw [words, runsBetween_append_of_ends hends, runsBetween_eq_nil_iff.mpr hblanks,
      List.append_nil]
    exact words_intercalate h
  rw [collapse, hwords]

theorem words_collapse (text : List Char) : words (collapse text) = words text :=
  words_intercalate fun _ hword ↦ isWord_of_mem_words hword

theorem collapse_eq_nil_iff {text : List Char} : collapse text = [] ↔ words text = [] := by
  constructor
  · intro h
    rw [← words_collapse, h]
    rfl
  · intro h
    rw [collapse, h]
    rfl

/-! ## Trimmed texts -/

/-- The text is `core` with blanks around it, and no blank is at an end of `core`. -/
structure IsTrimmed (text core : List Char) : Prop where
  exists_append : ∃ front back, text = front ++ core ++ back ∧ (∀ c ∈ front, isBlank c = true) ∧
    ∀ c ∈ back, isBlank c = true
  head : ∀ c ∈ core.head?, isBlank c = false
  getLast : ∀ c ∈ core.getLast?, isBlank c = false

theorem exists_trimStart (text : List Char) :
    ∃ blanks, text = blanks ++ trimStart text ∧ ∀ c ∈ blanks, isBlank c = true :=
  ⟨text.takeWhile isBlank, List.takeWhile_append_dropWhile.symm, fun _ hc ↦
    List.mem_takeWhile_imp hc⟩

theorem isTrimmed_trim (text : List Char) : IsTrimmed text (trim text) where
  exists_append := by
    obtain ⟨front, hfront, hfrontBlank⟩ := exists_trimStart text
    obtain ⟨back, hback, hbackBlank⟩ := exists_trimEnd (trimStart text)
    refine ⟨front, back, ?_, hfrontBlank, hbackBlank⟩
    rw [trim, List.append_assoc, hback, ← hfront]
  head := by
    intro c hc
    have hne : trim text ≠ [] := by
      rintro hnil
      simp [hnil] at hc
    rw [List.head?_eq_some_head hne, Option.mem_some_iff] at hc
    exact hc ▸ isBlank_head_trim text hne
  getLast := by
    intro c hc
    have hne : trim text ≠ [] := by
      rintro hnil
      simp [hnil] at hc
    rw [List.getLast?_eq_some_getLast hne, Option.mem_some_iff] at hc
    exact hc ▸ isBlank_getLast_trimEnd (trimStart text) hne

theorem IsTrimmed.trim_eq {text core : List Char} (h : IsTrimmed text core) :
    trim text = core := by
  obtain ⟨front, back, rfl, hfront, hback⟩ := h.exists_append
  have hstart : trimStart (front ++ core ++ back) = trimStart (core ++ back) := by
    rw [trimStart, List.append_assoc, List.dropWhile_append_of_pos hfront]
    rfl
  rw [trim, hstart]
  cases hcore : core.head? with
  | none =>
    obtain rfl := List.head?_eq_none_iff.mp hcore
    rw [List.nil_append, trimStart_eq_nil_iff.mpr hback]
    rfl
  | some c =>
    have hne : core ≠ [] := by
      rintro rfl
      simp at hcore
    have hhead : (core ++ back).head? = some c := by rw [List.head?_append, hcore]; rfl
    have hlast := List.getLast?_eq_some_getLast hne
    rw [trimStart_eq_self hhead (h.head c hcore)]
    exact trimEnd_append_blanks hlast (h.getLast _ hlast) hback

/-- A text has one core. -/
theorem isTrimmed_iff {text core : List Char} : IsTrimmed text core ↔ trim text = core := by
  constructor
  · exact IsTrimmed.trim_eq
  · rintro rfl
    exact isTrimmed_trim text

/-- A core without any blank. -/
theorem IsTrimmed.of_visible {front core back : List Char} (hfront : ∀ c ∈ front, isBlank c = true)
    (hcore : ∀ c ∈ core, isBlank c = false) (hback : ∀ c ∈ back, isBlank c = true) :
    IsTrimmed (front ++ core ++ back) core where
  exists_append := ⟨front, back, rfl, hfront, hback⟩
  head c hc := hcore c (List.mem_of_head? hc)
  getLast c hc := hcore c (List.mem_of_getLast? hc)

/-- Joined pieces begin and end with characters of pieces. -/
theorem Joined.isTrimmed_append {inGap : Char → Prop} {pieces : List (List Char)}
    {text blanks : List Char} (h : Joined inGap pieces text) (hne : ∀ piece ∈ pieces, piece ≠ [])
    (hfree : ∀ piece ∈ pieces, ∀ c ∈ piece, isBlank c = false)
    (hblanks : ∀ c ∈ blanks, isBlank c = true) : IsTrimmed (text ++ blanks) text where
  exists_append := ⟨[], blanks, rfl, by simp, hblanks⟩
  head := by
    obtain ⟨first, hhead, piece, hpiece, hfirst⟩ := h.exists_head? hne
    simpa [hhead] using hfree piece hpiece first hfirst
  getLast := by
    obtain ⟨last, hlast, piece, hpiece, hend⟩ := h.exists_getLast? hne
    simpa [hlast] using hfree piece hpiece last hend

end Memberwise.Text
