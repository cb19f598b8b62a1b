import Memberwise.Insertion
import Memberwise.Proofs.Text.Offset
import Memberwise.Proofs.Text.Runs

/-!
# Where a block is inserted

A block goes behind a declaration and behind what else belongs to its line: blanks and a line
comment, up to the last character that is not blank. What that is depends only on the text behind
the declaration, provided that the declaration itself ends with a character that is not blank.
-/

namespace Memberwise.Insertion

open Text

/-! ## The rest of a line -/

theorem lineRest_isPrefix (text : List Char) : lineRest text <+: text := List.takeWhile_prefix _

theorem lineFeed_not_mem_lineRest (text : List Char) : '\n' ∉ lineRest text := by
  intro h
  simpa using List.mem_takeWhile_imp h

theorem lineRest_append_of_mem {text : List Char} (h : '\n' ∈ text) (back : List Char) :
    lineRest (text ++ back) = lineRest text := by
  obtain ⟨front, rest, rfl, hfront⟩ := List.eq_append_cons_of_mem h
  simp only [lineRest, List.append_assoc, List.cons_append,
    takeWhile_append_of_lineFeed_not_mem hfront]
  rw [List.takeWhile_cons_of_neg (by simp), List.takeWhile_cons_of_neg (by simp)]

theorem lineRest_append_of_not_mem {text : List Char} (h : '\n' ∉ text) (back : List Char) :
    lineRest (text ++ back) = text ++ lineRest back :=
  takeWhile_append_of_lineFeed_not_mem h back

/-- The rest of a line belongs to what precedes it if it is blank or its first visible characters
are two slashes. -/
theorem isTrailer_iff {rest : List Char} :
    isTrailer rest = true ↔ trimStart rest = [] ∨ ['/', '/'] <+: trimStart rest := by
  have hslashes : "//".toList = ['/', '/'] := rfl
  have htrimmed := trimEnd_prefix (trimStart rest)
  rw [isTrailer, Bool.or_eq_true, List.isEmpty_iff, List.isPrefixOf_iff_prefix, trim, hslashes]
  constructor
  · rintro (hempty | hcomment)
    · refine Or.inl ?_
      by_contra hne
      have hhead := List.head_dropWhile_not isBlank hne
      have hall : ∀ c ∈ trimStart rest, isBlank c = true := trimEnd_eq_nil_iff.mp hempty
      exact Bool.false_ne_true (hhead.symm.trans (hall _ (List.head_mem hne)))
    · exact Or.inr (hcomment.trans htrimmed)
  · rintro (hempty | ⟨comment, hcomment⟩)
    · exact Or.inl (by rw [hempty]; rfl)
    · refine Or.inr ?_
      rw [← hcomment, trimEnd_append rfl]
      exact List.prefix_append _ _

/-- Behind a visible character more text can only make a comment of what is no comment. -/
theorem isTrailer_append_of_isPrefix {text back other : List Char}
    (htext : endsVisibly text = true) (hother : back <+: other)
    (h : isTrailer (text ++ back) = true) : isTrailer (text ++ other) = true := by
  rw [isTrailer_iff, trimStart_append htext] at h ⊢
  rcases h with hempty | hcomment
  · exact absurd (List.append_eq_nil_iff.mp hempty).1 (trimStart_ne_nil htext)
  · exact Or.inr (hcomment.trans ((List.prefix_append_right_inj (trimStart text)).mpr hother))

/-! ## Points are boundaries -/

theorem exists_pointAfter_eq (front back : List Char) :
    ∃ kept, kept <+: front ++ back ∧ pointAfter front back = byteSize kept := by
  rw [pointAfter]
  split
  · have hkept := trimEnd_prefix (front ++ lineRest back)
    have hline := (List.prefix_append_right_inj front).mpr (lineRest_isPrefix back)
    exact ⟨_, hkept.trans hline, rfl⟩
  · exact ⟨front, List.prefix_append front back, rfl⟩

/-- A block can be inserted wherever a declaration can end. -/
theorem exists_splice? {source : String} {offset : Nat} {front back : List Char}
    (hcut : splitAt? offset source.toList = some (front, back)) :
    ∃ point before after, point? source offset = some point ∧
      splitAt? point source.toList = some (before, after) ∧
      ∀ block, splice? source point block = some (between before block.toList after) := by
  obtain ⟨before, ⟨after, happend⟩, hpoint⟩ := exists_pointAfter_eq front back
  have hsource := (append_eq_of_splitAt?_eq_some hcut).1
  have hsplit : splitAt? (byteSize before) source.toList = some (before, after) := by
    rw [← hsource, ← happend, splitAt?_byteSize]
  refine ⟨byteSize before, before, after, ?_, hsplit, fun block ↦ ?_⟩
  · rw [point?, hcut, Option.map_some, hpoint]
  · rw [splice?, hsplit, Option.map_some]

/-! ## What belongs to a declaration -/

/-- What belongs to a declaration that `back` follows: the rest of its line up to the last visible
character, if that is a comment. -/
def trailer (back : List Char) : List Char :=
  if isTrailer (lineRest back) then trimEnd (lineRest back) else []

theorem trailer_isPrefix_lineRest (back : List Char) : trailer back <+: lineRest back := by
  rw [trailer]
  split
  · exact trimEnd_prefix _
  · exact List.nil_prefix

theorem trailer_isPrefix (back : List Char) : trailer back <+: back :=
  (trailer_isPrefix_lineRest back).trans (lineRest_isPrefix back)

/-- Behind a visible character a block goes to the end of what belongs to it. -/
theorem pointAfter_eq {front : List Char} (h : endsVisibly front = true) (back : List Char) :
    pointAfter front back = byteSize (front ++ trailer back) := by
  rw [pointAfter, trailer, trimEnd_append h]
  split <;> simp

end Memberwise.Insertion
