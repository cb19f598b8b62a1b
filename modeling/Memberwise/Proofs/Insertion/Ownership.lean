import Memberwise.Proofs.Insertion.Point

/-!
# What belongs to a declaration on its line

Behind a declaration its line goes on to the next line feed. A line comment there belongs to the
declaration, with the blanks before it. Blanks at the end of the line do not, nor does other code. A
block goes behind what belongs to the declaration.

The main statement also says that a block goes to the same place again from there. That is so for
every boundary of the text, also behind blanks, where the place can be on an earlier line.
-/

namespace Memberwise.Insertion

open Text

/-! ## Comments -/

/-- The text begins with a line comment, behind any blanks. -/
def OpensComment (text : List Char) : Prop :=
  ∃ blanks comment, (∀ c ∈ blanks, isBlank c = true) ∧ text = blanks ++ '/' :: '/' :: comment

theorem opensComment_iff {text : List Char} :
    OpensComment text ↔ ['/', '/'] <+: trimStart text := by
  constructor
  · rintro ⟨blanks, comment, hblanks, rfl⟩
    rw [trimStart, List.dropWhile_append_of_pos hblanks, List.dropWhile_cons_of_neg (by decide)]
    exact List.prefix_append ['/', '/'] comment
  · rintro ⟨comment, hcomment⟩
    refine ⟨text.takeWhile isBlank, comment, fun c hc ↦ List.mem_takeWhile_imp hc, ?_⟩
    calc
      text = text.takeWhile isBlank ++ trimStart text := List.takeWhile_append_dropWhile.symm
      _ = text.takeWhile isBlank ++ '/' :: '/' :: comment := by rw [← hcomment]; rfl

/-- Trimming takes nothing of a comment away but blanks at its end. -/
theorem OpensComment.trimEnd {text : List Char} (h : OpensComment text) :
    OpensComment (trimEnd text) := by
  obtain ⟨blanks, comment, hblanks, rfl⟩ := h
  have hslashes : endsVisibly (blanks ++ ['/', '/']) = true := endsVisibly_append (by decide) blanks
  refine ⟨blanks, Text.trimEnd comment, hblanks, ?_⟩
  calc
    Text.trimEnd (blanks ++ '/' :: '/' :: comment) =
        Text.trimEnd (blanks ++ ['/', '/'] ++ comment) := by rw [List.append_assoc]; rfl
    _ = blanks ++ ['/', '/'] ++ Text.trimEnd comment := trimEnd_append hslashes comment
    _ = blanks ++ '/' :: '/' :: Text.trimEnd comment := by rw [List.append_assoc]; rfl

theorem OpensComment.ne_nil {text : List Char} (h : OpensComment text) : text ≠ [] := by
  obtain ⟨blanks, comment, -, rfl⟩ := h
  exact List.append_ne_nil_of_right_ne_nil blanks (List.cons_ne_nil _ _)

/-! ## The end of a line -/

/-- The text behind a declaration, cut behind what belongs to the declaration and at the end of its
line. -/
structure Divides (back own rest after : List Char) : Prop where
  append_eq : own ++ rest ++ after = back
  lineFeed_not_mem : '\n' ∉ own ++ rest
  lineEnd : after = [] ∨ after.head? = some '\n'
  /-- What belongs to the declaration is nothing, or a comment without blanks at its end. -/
  own_comment : own = [] ∨ OpensComment own ∧ endsVisibly own = true
  rest_blank : own ≠ [] → ∀ c ∈ rest, isBlank c = true
  /-- No comment is left out. -/
  rest_not_comment : own = [] → (∀ c ∈ rest, isBlank c = true) ∨ ¬ OpensComment rest

theorem exists_lineEnd (text : List Char) :
    ∃ after, lineRest text ++ after = text ∧ (after = [] ∨ after.head? = some '\n') := by
  refine ⟨text.dropWhile (· ≠ '\n'), List.takeWhile_append_dropWhile, ?_⟩
  by_cases hafter : text.dropWhile (· ≠ '\n') = []
  · exact Or.inl hafter
  · have hhead := List.head_dropWhile_not (· ≠ '\n') hafter
    refine Or.inr ((List.head?_eq_some_head hafter).trans (congrArg some ?_))
    simpa using hhead

theorem divides_trailer (back : List Char) :
    ∃ rest after, Divides back (trailer back) rest after := by
  obtain ⟨after, happend, hend⟩ := exists_lineEnd back
  have hfree := lineFeed_not_mem_lineRest back
  by_cases htrailer : isTrailer (lineRest back) = true
  · obtain ⟨rest, hrest, hblank⟩ := exists_trimEnd (lineRest back)
    have hown : trailer back = trimEnd (lineRest back) := if_pos htrailer
    refine ⟨rest, after, ?_, ?_, hend, ?_, fun _ ↦ hblank, fun _ ↦ Or.inl hblank⟩
    · rw [hown, hrest, happend]
    · rwa [hown, hrest]
    · rw [hown]
      rcases isTrailer_iff.mp htrailer with hempty | hcomment
      · exact Or.inl (trimEnd_eq_nil_iff.mpr (trimStart_eq_nil_iff.mp hempty))
      · have hopens := (opensComment_iff.mpr hcomment).trimEnd
        exact Or.inr ⟨hopens, endsVisibly_trimEnd hopens.ne_nil⟩
  · have hown : trailer back = [] := if_neg htrailer
    rw [isTrailer_iff, not_or, ← opensComment_iff] at htrailer
    refine ⟨lineRest back, after, ?_, ?_, hend, Or.inl hown, fun hne ↦ absurd hown hne,
      fun _ ↦ Or.inr htrailer.2⟩
    · rw [hown, List.nil_append, happend]
    · rwa [hown, List.nil_append]

/-! ## Places that are found again -/

theorem pointAfter_of_blank {back : List Char} (h : ∀ c ∈ lineRest back, isBlank c = true)
    (front : List Char) : pointAfter front back = byteSize (trimEnd (front ++ lineRest back)) :=
  if_pos (isTrailer_iff.mpr (Or.inl (trimStart_eq_nil_iff.mpr h)))

/-- Where blanks go on to the end of a line, nothing else is on the rest of the first one. -/
theorem isBlank_of_mem_lineRest {blanks after : List Char}
    (hblanks : ∀ c ∈ blanks, isBlank c = true) (hafter : after = [] ∨ after.head? = some '\n') :
    ∀ c ∈ lineRest (blanks ++ after), isBlank c = true := by
  have hend : lineRest after = [] := by
    rcases hafter with rfl | hfeed
    · rfl
    · obtain ⟨others, rfl⟩ := List.head?_eq_some_iff.mp hfeed
      rfl
  intro c hc
  by_cases hline : '\n' ∈ blanks
  · rw [lineRest_append_of_mem hline] at hc
    exact hblanks c ((lineRest_isPrefix blanks).subset hc)
  · rw [lineRest_append_of_not_mem hline, hend, List.append_nil] at hc
    exact hblanks c hc

/-- From the place that was found, the same place is found again: what is left on its line is
blank. -/
theorem point?_point? {source : String} {offset point : Nat}
    (h : point? source offset = some point) : point? source point = some point := by
  obtain ⟨⟨front, back⟩, hcut, hpoint⟩ := Option.map_eq_some_iff.mp h
  by_cases htrailer : isTrailer (lineRest back) = true
  · obtain ⟨after, hafter, hend⟩ := exists_lineEnd back
    obtain ⟨blanks, hblanks, hblank⟩ := exists_trimEnd (front ++ lineRest back)
    have hsource : source.toList = trimEnd (front ++ lineRest back) ++ (blanks ++ after) := by
      rw [← List.append_assoc, hblanks, List.append_assoc, hafter,
        (append_eq_of_splitAt?_eq_some hcut).1]
    have hline := isBlank_of_mem_lineRest hblank hend
    rw [pointAfter, if_pos htrailer] at hpoint
    rw [← hpoint, point?, hsource, splitAt?_byteSize, Option.map_some, pointAfter_of_blank hline,
      trimEnd_trimEnd_append hline]
  · rw [pointAfter, if_neg htrailer, (append_eq_of_splitAt?_eq_some hcut).2] at hpoint
    rwa [hpoint] at h

/-- A block has one place for every boundary. Behind a visible character that is the end of what
belongs to it on its line. -/
theorem exists_point?_divides {source : String} {offset : Nat} {front back : List Char}
    (hcut : splitAt? offset source.toList = some (front, back)) :
    ∃ point, point? source offset = some point ∧ point? source point = some point ∧
      (endsVisibly front = true → ∃ own rest after, Divides back own rest after ∧
        point = offset + byteSize own ∧
        splitAt? point source.toList = some (front ++ own, rest ++ after)) := by
  have hpoint : point? source offset = some (pointAfter front back) := by
    rw [point?, hcut, Option.map_some]
  refine ⟨pointAfter front back, hpoint, point?_point? hpoint, fun hvisible ↦ ?_⟩
  obtain ⟨rest, after, hdivides⟩ := divides_trailer back
  obtain ⟨hsource, hoffset⟩ := append_eq_of_splitAt?_eq_some hcut
  have htext : source.toList = front ++ trailer back ++ (rest ++ after) := by
    calc
      source.toList = front ++ back := hsource.symm
      _ = front ++ (trailer back ++ rest ++ after) := by rw [hdivides.append_eq]
      _ = front ++ trailer back ++ (rest ++ after) := by simp only [List.append_assoc]
  refine ⟨trailer back, rest, after, hdivides, ?_, ?_⟩
  · rw [pointAfter_eq hvisible, byteSize_append, hoffset]
  · rw [pointAfter_eq hvisible, htext, splitAt?_byteSize]

/-- A comment between blanks of several bytes, on a line that ends with a carriage return. -/
theorem exists_point?_divides_of_comment :
    let source := "struct Né;\u3000// größer\u00a0\r\nstruct B;"
    let back := "\u3000// größer\u00a0\r\nstruct B;".toList
    point? source 11 = some 25 ∧ point? source 25 = some 25 ∧
      ∃ own rest after, Divides back own rest after ∧ byteSize own = 14 ∧
        splitAt? 25 source.toList = some ("struct Né;".toList ++ own, rest ++ after) := by
  intro source back
  have hcut : splitAt? 11 source.toList = some ("struct Né;".toList, back) := by decide +kernel
  have hplace : point? source 11 = some 25 := by decide +kernel
  obtain ⟨point, hpoint, hagain, hvisible⟩ := exists_point?_divides hcut
  obtain rfl : point = 25 := Option.some.inj (hpoint.symm.trans hplace)
  obtain ⟨own, rest, after, hdivides, hsize, hsplit⟩ := hvisible (by decide +kernel)
  exact ⟨hpoint, hagain, own, rest, after, hdivides, by omega, hsplit⟩

end Memberwise.Insertion
