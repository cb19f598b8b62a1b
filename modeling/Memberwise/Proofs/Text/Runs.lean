import Memberwise.Text.Blank
import Mathlib.Data.List.Basic
import Mathlib.Data.List.TakeWhile

/-!
# Runs between separators

Everything about the runs of a text follows from one equation: a text is split at any of its
separators. So a gap before a text does not matter, and a text without separators is one run. The
same care is taken at the ends of a text, where blanks are trimmed.
-/

namespace Memberwise.Text

theorem splitAtEach_eq_splitOnP (isSeparator : Char → Bool) (text : List Char) :
    splitAtEach isSeparator text = text.splitOnP isSeparator := by
  induction text with
  | nil => rfl
  | cons c rest ih =>
    rw [splitAtEach, List.splitOnP_cons_eq_if_modifyHead, ih]
    cases h : rest.splitOnP isSeparator with
    | nil => exact absurd h (List.splitOnP_ne_nil isSeparator rest)
    | cons piece pieces => rfl

/-! ## Runs -/

section Runs

variable {isSeparator : Char → Bool}

@[simp] theorem runsBetween_nil : runsBetween isSeparator [] = [] := rfl

theorem runsBetween_append_separator {c : Char} (hc : isSeparator c = true)
    (front back : List Char) :
    runsBetween isSeparator (front ++ c :: back) =
      runsBetween isSeparator front ++ runsBetween isSeparator back := by
  simp only [runsBetween, splitAtEach_eq_splitOnP]
  rw [List.splitOnP_append_cons front back hc, List.filter_append]

theorem runsBetween_cons_separator {c : Char} (hc : isSeparator c = true) (text : List Char) :
    runsBetween isSeparator (c :: text) = runsBetween isSeparator text :=
  runsBetween_append_separator hc [] text

theorem runsBetween_gap_append {gap : List Char} (h : ∀ c ∈ gap, isSeparator c = true)
    (text : List Char) :
    runsBetween isSeparator (gap ++ text) = runsBetween isSeparator text := by
  induction gap with
  | nil => rfl
  | cons c gap ih =>
    rw [List.cons_append, runsBetween_cons_separator (h c List.mem_cons_self)]
    exact ih fun d hd ↦ h d (List.mem_cons_of_mem c hd)

theorem runsBetween_eq_singleton {run : List Char} (hne : run ≠ [])
    (h : ∀ c ∈ run, isSeparator c = false) : runsBetween isSeparator run = [run] := by
  rw [runsBetween, splitAtEach_eq_splitOnP, List.splitOnP_eq_singleton h]
  simp [hne]

end Runs

/-! ## Joined pieces -/

/-- The text consists of the pieces in turn, with a gap between any two. A gap is a run of
characters that satisfy `inGap`, and not empty. -/
inductive Joined (inGap : Char → Prop) : List (List Char) → List Char → Prop where
  | single (piece : List Char) : Joined inGap [piece] piece
  | cons (piece : List Char) {gap : List Char} {pieces : List (List Char)} {text : List Char}
      (gap_ne_nil : gap ≠ []) (gap_subset : ∀ c ∈ gap, inGap c) (rest : Joined inGap pieces text) :
      Joined inGap (piece :: pieces) (piece ++ gap ++ text)

namespace Joined

variable {inGap : Char → Prop} {pieces : List (List Char)} {text : List Char}

/-- Every character is of a piece or of a gap. -/
theorem mem (h : Joined inGap pieces text) {c : Char} (hc : c ∈ text) :
    (∃ piece ∈ pieces, c ∈ piece) ∨ inGap c := by
  induction h with
  | single piece => exact Or.inl ⟨piece, List.mem_cons_self, hc⟩
  | cons piece _ hsubset _ ih =>
    rcases List.mem_append.mp hc with hc | hc
    · rcases List.mem_append.mp hc with hc | hc
      · exact Or.inl ⟨piece, List.mem_cons_self, hc⟩
      · exact Or.inr (hsubset c hc)
    · rcases ih hc with ⟨other, hother, hc⟩ | hc
      · exact Or.inl ⟨other, List.mem_cons_of_mem piece hother, hc⟩
      · exact Or.inr hc

theorem exists_head? (h : Joined inGap pieces text) (hne : ∀ piece ∈ pieces, piece ≠ []) :
    ∃ c, text.head? = some c ∧ ∃ piece ∈ pieces, c ∈ piece := by
  cases h with
  | single =>
    obtain ⟨c, rest, rfl⟩ := List.exists_cons_of_ne_nil (hne text List.mem_cons_self)
    exact ⟨c, rfl, _, List.mem_cons_self, List.mem_cons_self⟩
  | cons piece _ _ _ =>
    obtain ⟨c, rest, rfl⟩ := List.exists_cons_of_ne_nil (hne piece List.mem_cons_self)
    exact ⟨c, rfl, _, List.mem_cons_self, List.mem_cons_self⟩

theorem exists_getLast? (h : Joined inGap pieces text) (hne : ∀ piece ∈ pieces, piece ≠ []) :
    ∃ c, text.getLast? = some c ∧ ∃ piece ∈ pieces, c ∈ piece := by
  induction h with
  | single piece =>
    have hpiece : piece ≠ [] := hne piece List.mem_cons_self
    exact ⟨piece.getLast hpiece, List.getLast?_eq_some_getLast hpiece, piece, List.mem_cons_self,
      List.getLast_mem hpiece⟩
  | cons piece _ _ _ ih =>
    obtain ⟨c, hlast, other, hother, hc⟩ :=
      ih fun other hother ↦ hne other (List.mem_cons_of_mem piece hother)
    refine ⟨c, ?_, other, List.mem_cons_of_mem piece hother, hc⟩
    rw [List.getLast?_append, hlast]
    rfl

/-- One piece alone, or a text with a gap in it. -/
theorem eq_single_or_mem (h : Joined inGap pieces text) :
    pieces = [text] ∨ ∃ c ∈ text, inGap c := by
  cases h with
  | single piece => exact Or.inl rfl
  | cons piece hgapne hsubset _ =>
    obtain ⟨c, others, rfl⟩ := List.exists_cons_of_ne_nil hgapne
    exact Or.inr ⟨c, by simp, hsubset c List.mem_cons_self⟩

end Joined

/-! ## First lines -/

section FirstLine

variable {line : List Char}

theorem takeWhile_append_of_lineFeed_not_mem (h : '\n' ∉ line) (back : List Char) :
    (line ++ back).takeWhile (· ≠ '\n') = line ++ back.takeWhile (· ≠ '\n') :=
  List.takeWhile_append_of_pos fun _ hc ↦ decide_eq_true fun heq ↦ h (heq ▸ hc)

theorem dropWhile_append_of_lineFeed_not_mem (h : '\n' ∉ line) (back : List Char) :
    (line ++ back).dropWhile (· ≠ '\n') = back.dropWhile (· ≠ '\n') :=
  List.dropWhile_append_of_pos fun _ hc ↦ decide_eq_true fun heq ↦ h (heq ▸ hc)

end FirstLine

/-! ## Trimming -/

theorem trimStart_eq_self {text : List Char} {c : Char} (hhead : text.head? = some c)
    (hc : isBlank c = false) : trimStart text = text := by
  obtain ⟨rest, rfl⟩ := List.head?_eq_some_iff.mp hhead
  exact List.dropWhile_cons_of_neg (by simp [hc])

theorem trimEnd_append_blanks {text blanks : List Char} {c : Char}
    (hlast : text.getLast? = some c) (hc : isBlank c = false)
    (hblanks : ∀ d ∈ blanks, isBlank d = true) : trimEnd (text ++ blanks) = text := by
  obtain ⟨front, rfl⟩ := List.getLast?_eq_some_iff.mp hlast
  have hreverse : ∀ d ∈ blanks.reverse, isBlank d = true := by simpa using hblanks
  rw [trimEnd, List.reverse_append, List.dropWhile_append_of_pos hreverse, List.reverse_append,
    List.reverse_singleton, List.singleton_append, List.dropWhile_cons_of_neg (by simp [hc]),
    List.reverse_cons, List.reverse_reverse]

/-- The last character is not blank. -/
def endsVisibly (text : List Char) : Bool := text.getLast?.any fun c ↦ !isBlank c

theorem endsVisibly_append {text : List Char} (h : endsVisibly text = true) (front : List Char) :
    endsVisibly (front ++ text) = true := by
  rw [endsVisibly, Option.any_eq_true] at h ⊢
  obtain ⟨c, hlast, hc⟩ := h
  exact ⟨c, by rw [List.getLast?_append, hlast]; rfl, hc⟩

theorem endsVisibly_of_append {front text : List Char} (h : endsVisibly (front ++ text) = true)
    (hne : text ≠ []) : endsVisibly text = true := by
  rwa [endsVisibly, List.getLast?_append, List.getLast?_eq_some_getLast hne, Option.some_or,
    ← List.getLast?_eq_some_getLast hne] at h

theorem trimEnd_eq_nil_iff {text : List Char} :
    trimEnd text = [] ↔ ∀ c ∈ text, isBlank c = true := by
  rw [trimEnd, List.reverse_eq_nil_iff, List.dropWhile_eq_nil_iff]
  simp only [List.mem_reverse]

theorem trimEnd_append {front : List Char} (h : endsVisibly front = true) (back : List Char) :
    trimEnd (front ++ back) = front ++ trimEnd back := by
  rw [endsVisibly, Option.any_eq_true] at h
  obtain ⟨c, hlast, hc⟩ := h
  obtain ⟨earlier, rfl⟩ := List.getLast?_eq_some_iff.mp hlast
  have hblank : ¬ isBlank c = true := by simpa using hc
  rw [trimEnd, trimEnd, List.reverse_append, List.dropWhile_append, List.reverse_append,
    List.reverse_singleton, List.singleton_append, List.dropWhile_cons_of_neg hblank]
  split
  · rename_i hall
    rw [List.isEmpty_iff.mp hall]
    simp
  · simp

theorem trimStart_eq_nil_iff {text : List Char} :
    trimStart text = [] ↔ ∀ c ∈ text, isBlank c = true := List.dropWhile_eq_nil_iff

/-- Only blanks are trimmed. -/
theorem exists_trimEnd (text : List Char) :
    ∃ blanks, trimEnd text ++ blanks = text ∧ ∀ c ∈ blanks, isBlank c = true := by
  refine ⟨(text.reverse.takeWhile isBlank).reverse, ?_, fun c hc ↦ ?_⟩
  · rw [trimEnd, ← List.reverse_append, List.takeWhile_append_dropWhile, List.reverse_reverse]
  · exact List.mem_takeWhile_imp (List.mem_reverse.mp hc)

theorem endsVisibly_trimEnd {text : List Char} (h : trimEnd text ≠ []) :
    endsVisibly (trimEnd text) = true := by
  rw [endsVisibly, List.getLast?_eq_some_getLast h, Option.any_some, isBlank_getLast_trimEnd text h]
  rfl

theorem trimEnd_trimEnd_append {blanks : List Char} (h : ∀ c ∈ blanks, isBlank c = true)
    (text : List Char) : trimEnd (trimEnd text ++ blanks) = trimEnd text := by
  have hnone : trimEnd blanks = [] := trimEnd_eq_nil_iff.mpr h
  by_cases htext : trimEnd text = []
  · rw [htext, List.nil_append, hnone]
  · rw [trimEnd_append (endsVisibly_trimEnd htext), hnone, List.append_nil]

theorem trimStart_ne_nil {text : List Char} (h : endsVisibly text = true) :
    trimStart text ≠ [] := by
  rw [endsVisibly, Option.any_eq_true] at h
  obtain ⟨c, hlast, hc⟩ := h
  rw [ne_eq, trimStart_eq_nil_iff]
  exact fun hall ↦ by simp [hall c (List.mem_of_getLast? hlast)] at hc

theorem trimStart_append {front : List Char} (h : endsVisibly front = true) (back : List Char) :
    trimStart (front ++ back) = trimStart front ++ back := by
  have hne : (front.dropWhile isBlank).isEmpty = false :=
    List.isEmpty_eq_false_iff.mpr (trimStart_ne_nil h)
  rw [trimStart, trimStart, List.dropWhile_append, hne]
  rfl

end Memberwise.Text
