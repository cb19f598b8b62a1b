import Memberwise.Proofs.Text.Pieces

/-!
# Collapsed text

Collapsing changes nothing but blanks. A blank becomes a space, one that another blank follows goes
away, and so does one at the end; the blanks at the beginning go away as well. What reads a text
character by character can therefore be followed along the text and the collapsed text at once.

The main statements: a text and its collapsed form differ in blanks alone, and there is no line feed
in a collapsed text.
-/

namespace Memberwise.Text

/-! ## Words -/

theorem words_append_blank {b : Char} (hb : isBlank b = true) (front back : List Char) :
    words (front ++ b :: back) = words front ++ words back :=
  runsBetween_append_separator hb front back

theorem words_cons_blank {b : Char} (hb : isBlank b = true) (text : List Char) :
    words (b :: text) = words text :=
  runsBetween_cons_separator hb text

/-- A character before another one is of the same word. -/
theorem words_cons_cons {c d : Char} (hc : isBlank c = false) (hd : isBlank d = false)
    (text : List Char) :
    ∃ first others, words (d :: text) = first :: others ∧
      words (c :: d :: text) = (c :: first) :: others := by
  cases hsplit : splitAtEach isBlank text with
  | nil => exact absurd hsplit (splitAtEach_ne_nil isBlank text)
  | cons piece pieces =>
    refine ⟨d :: piece, pieces.filter fun piece ↦ !piece.isEmpty, ?_, ?_⟩
    · simp [words, runsBetween, splitAtEach, hd, hsplit]
    · simp [words, runsBetween, splitAtEach, hc, hd, hsplit]

/-- The same words, whatever stands before. -/
def SameWords (text other : List Char) : Prop :=
  ∀ front, words (front ++ text) = words (front ++ other)

namespace SameWords

variable {text other : List Char}

theorem refl (text : List Char) : SameWords text text := fun _ ↦ rfl

theorem trans {third : List Char} (h : SameWords text other) (hthird : SameWords other third) :
    SameWords text third :=
  fun front ↦ (h front).trans (hthird front)

theorem words_eq (h : SameWords text other) : words text = words other := h []

theorem append_left (h : SameWords text other) (front : List Char) :
    SameWords (front ++ text) (front ++ other) := by
  intro earlier
  rw [← List.append_assoc, ← List.append_assoc]
  exact h (earlier ++ front)

theorem cons_blank (h : SameWords text other) {b d : Char} (hb : isBlank b = true)
    (hd : isBlank d = true) : SameWords (b :: text) (d :: other) := by
  intro front
  rw [words_append_blank hb, words_append_blank hd, h.words_eq]

theorem merge_blanks {b d : Char} (hb : isBlank b = true) (hd : isBlank d = true)
    (text : List Char) : SameWords (b :: d :: text) (d :: text) := by
  intro front
  rw [words_append_blank hb, words_append_blank hd, words_cons_blank hd]

theorem last_blank {b : Char} (hb : isBlank b = true) : SameWords [b] [] := by
  intro front
  rw [words_append_blank hb, List.append_nil]
  exact List.append_nil (words front)

end SameWords

/-! ## Collapsing -/

/-- The collapsed text as it continues another one: a space separates it if it was separated. -/
def squeeze : List Char → List Char
  | [] => []
  | c :: rest =>
    if isBlank c && !(words rest).isEmpty then ' ' :: collapse rest else collapse (c :: rest)

@[simp] theorem collapse_nil : collapse [] = [] := rfl

theorem collapse_cons_blank {b : Char} (hb : isBlank b = true) (text : List Char) :
    collapse (b :: text) = collapse text := by
  rw [collapse, words_cons_blank hb, collapse]

theorem squeeze_eq_collapse {c : Char} (hc : isBlank c = false) (text : List Char) :
    squeeze (c :: text) = collapse (c :: text) := by
  simp [squeeze, hc]

theorem collapse_cons {c : Char} (hc : isBlank c = false) (text : List Char) :
    collapse (c :: text) = c :: squeeze text := by
  cases text with
  | nil => simp [collapse, squeeze, words, runsBetween, splitAtEach, hc]
  | cons d rest =>
    cases hd : isBlank d with
    | false =>
      obtain ⟨first, others, hrest, hwhole⟩ := words_cons_cons hc hd rest
      rw [squeeze_eq_collapse hd, collapse, collapse, hwhole, hrest]
      cases others <;> simp
    | true =>
      have hwhole : words (c :: d :: rest) = [c] :: words rest := by
        have hfirst : words [c] = [[c]] :=
          runsBetween_eq_singleton (List.cons_ne_nil c []) (by simpa using hc)
        exact (words_append_blank hd [c] rest).trans (by rw [hfirst, List.singleton_append])
      rw [squeeze, collapse_cons_blank hd, hd, collapse, hwhole, collapse]
      cases words rest <;> simp

theorem squeeze_cons_blank {b : Char} (hb : isBlank b = true) (text : List Char) :
    squeeze (b :: text) = if words text = [] then [] else ' ' :: collapse text := by
  rw [squeeze, hb, collapse_cons_blank hb]
  cases hwords : words text with
  | nil => simp [collapse_eq_nil_iff.mpr hwords]
  | cons first others => simp

theorem squeeze_cons {c : Char} (hc : isBlank c = false) (text : List Char) :
    squeeze (c :: text) = c :: squeeze text := by
  rw [squeeze_eq_collapse hc, collapse_cons hc]

theorem lineFeed_not_mem_squeeze (text : List Char) :
    '\n' ∉ squeeze text ∧ '\n' ∉ collapse text := by
  induction text with
  | nil => exact ⟨List.not_mem_nil, List.not_mem_nil⟩
  | cons c rest ih =>
    cases hc : isBlank c with
    | true =>
      rw [squeeze_cons_blank hc, collapse_cons_blank hc]
      refine ⟨?_, ih.2⟩
      split
      · exact List.not_mem_nil
      · simp [ih.2]
    | false =>
      have hne : c ≠ '\n' := by
        rintro rfl
        exact absurd hc (by decide)
      rw [squeeze_cons hc, collapse_cons hc]
      simp [ih.1, hne.symm]

/-! ## Other blanks -/

/-- The second text is the first one with other blanks, of which a run may become shorter. -/
inductive Respaced : List Char → List Char → Prop where
  | nil : Respaced [] []
  | cons (c : Char) {text other : List Char} (h : Respaced text other) :
      Respaced (c :: text) (c :: other)
  | blank {b : Char} (hb : isBlank b = true) {text other : List Char} (h : Respaced text other) :
      Respaced (b :: text) (' ' :: other)
  | merge {b d : Char} (hb : isBlank b = true) (hd : isBlank d = true) {text other : List Char}
      (h : Respaced (d :: text) other) : Respaced (b :: d :: text) other
  | last {b : Char} (hb : isBlank b = true) : Respaced [b] []

theorem respaced_squeeze (text : List Char) : Respaced text (squeeze text) := by
  induction text with
  | nil => exact .nil
  | cons c rest ih =>
    cases hc : isBlank c with
    | false =>
      rw [squeeze_cons hc]
      exact .cons c ih
    | true =>
      cases rest with
      | nil =>
        rw [squeeze_cons_blank hc, if_pos (by rfl)]
        exact .last hc
      | cons d more =>
        cases hd : isBlank d with
        | true =>
          have hsame : squeeze (c :: d :: more) = squeeze (d :: more) := by
            rw [squeeze_cons_blank hc, squeeze_cons_blank hd, words_cons_blank hd,
              collapse_cons_blank hd]
          rw [hsame]
          exact .merge hc hd ih
        | false =>
          have hsame : squeeze (c :: d :: more) = ' ' :: squeeze (d :: more) := by
            obtain ⟨first, others, hwords, -⟩ := words_cons_cons hd hd more
            rw [squeeze_cons_blank hc, if_neg (by simp [hwords]), squeeze_eq_collapse hd]
          rw [hsame]
          exact .blank hc ih

end Memberwise.Text
