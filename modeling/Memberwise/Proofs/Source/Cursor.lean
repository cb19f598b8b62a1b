import Memberwise.Proofs.Source.CursorChoice

/-!
# The struct at a cursor

A cursor picks a shortest declaration among those that reach over it, ends included. It is told by
its line and by a column in bytes. A caret names the same boundary by a column in characters, so it
can stand for the cursor where every character before it on its line is a single byte, and the last
statement shows that elsewhere it can not.
-/

namespace Memberwise.Source

open Text (byteSize lastLine lineFeeds Point Caret)

/-! ## Columns -/

/-- Bytes and characters are counted alike where every character is a single byte. -/
theorem length_eq_byteSize_iff {text : List Char} :
    text.length = byteSize text ↔ ∀ c ∈ text, c.utf8Size = 1 := by
  have hle : ∀ text : List Char, text.length ≤ byteSize text := by
    intro text
    induction text with
    | nil => simp
    | cons c rest ih =>
      have hpos := c.utf8Size_pos
      simp only [List.length_cons, Text.byteSize_cons]
      omega
  induction text with
  | nil => simp
  | cons c rest ih =>
    have hpos := c.utf8Size_pos
    have hrest := hle rest
    rw [List.forall_mem_cons, List.length_cons, Text.byteSize_cons]
    constructor
    · intro h
      exact ⟨by omega, ih.mp (by omega)⟩
    · rintro ⟨hc, hothers⟩
      have heq := ih.mpr hothers
      omega

/-! ## Innermost declarations -/

namespace Located

/-- The declaration reaches over the offset, ends included, and no shorter one does. -/
structure IsInnermost (structs : List Located) (offset : Nat) (located : Located) : Prop where
  mem : located ∈ structs
  start_le : located.start.offset ≤ offset
  le_stop : offset ≤ located.stop.offset
  size_le : ∀ other ∈ structs, other.start.offset ≤ offset → offset ≤ other.stop.offset →
    located.size ≤ other.size

variable {text : List Char} {offset : Nat} {front back : List Char} {located : Located}
  {structs : List Located} {p : Char → Prop}

/-- Whether a declaration reaches over a boundary can be told by points or by offsets. -/
theorem spans_iff (hcut : Text.splitAt? offset text = some (front, back))
    (h : located.ReadFrom p text) :
    located.spans (Point.after front) = true ↔
      located.start.offset ≤ offset ∧ offset ≤ located.stop.offset := by
  have hmark : (⟨offset, Point.after front⟩ : Mark).IsBoundary text := by
    obtain ⟨hsource, rfl⟩ := Text.append_eq_of_splitAt?_eq_some hcut
    exact ⟨front, ⟨back, hsource⟩, (Mark.start_advance front).symm⟩
  rw [spans_eq_true_iff, h.start.point_le_iff hmark, hmark.point_le_iff h.stop]

theorem exists_atPoint?_eq (hcut : Text.splitAt? offset text = some (front, back))
    (hread : ∀ other ∈ structs, other.ReadFrom p text) (h : located ∈ structs)
    (hstart : located.start.offset ≤ offset) (hstop : offset ≤ located.stop.offset) :
    ∃ innermost, Locator.atPoint? structs (Point.after front) = some innermost ∧
      innermost.IsInnermost structs offset := by
  have hspans := (spans_iff hcut (hread located h)).mpr ⟨hstart, hstop⟩
  obtain ⟨innermost, hpicked, hshortest⟩ := Locator.exists_isShortest_of_spans h hspans
  obtain ⟨hfirst, hlast⟩ := (spans_iff hcut (hread innermost hshortest.mem)).mp hshortest.holds
  refine ⟨innermost, hpicked, hshortest.mem, hfirst, hlast, fun other hother hle hge ↦ ?_⟩
  exact hshortest.size_le other hother ((spans_iff hcut (hread other hother)).mpr ⟨hle, hge⟩)

end Located

/-! ## Cursors -/

namespace SourceFile

variable {source : SourceFile}

/-- At a boundary that a declaration reaches over, the cursor picks an innermost one. The caret
picks the same one if every character before it on its line is a single byte. If no declaration ends
at the boundary, the one picked holds what follows it. -/
theorem locate?_at_caret {parser : Parser} (hparser : parser.Fits) {text : String}
    (hparse : parse parser text = .ok source) :
    ∃ structs, source.structs? = some structs ∧
      ∀ (offset : Nat) (front back : List Char),
        Text.splitAt? offset text.toList = some (front, back) →
        ∀ located ∈ structs, located.start.offset ≤ offset → offset ≤ located.stop.offset →
        ∃ innermost : Located, innermost.IsInnermost structs offset ∧
          source.locate? (.cursor (Caret.after front).line (byteSize (lastLine front) + 1)) =
            some (.ok innermost) ∧
          ((∀ c ∈ lastLine front, c.utf8Size = 1) →
            source.locate? (.cursor (Caret.after front).line (Caret.after front).column) =
              some (.ok innermost)) ∧
          ((∀ other ∈ structs, other.stop.offset ≠ offset) →
            offset < innermost.stop.offset) := by
  obtain ⟨structs, hstructs, hread⟩ := exists_structs? hparser hparse
  obtain ⟨-, rfl, -⟩ := parse_eq_ok hparse
  refine ⟨structs, hstructs, fun offset front back hcut located h hstart hstop ↦ ?_⟩
  obtain ⟨innermost, hfound, hinnermost⟩ := Located.exists_atPoint?_eq hcut hread h hstart hstop
  -- A boundary of the text is a place for a cursor.
  have hlocate : source.locate?
      (.cursor (lineFeeds front + 1) (byteSize (lastLine front) + 1)) = some (.ok innermost) := by
    rw [locate?_eq hstructs]
    exact congrArg some (Locator.pick_cursor_of_atPoint? (Point.row_after_le hcut) hfound)
  refine ⟨innermost, hinnermost, hlocate, fun hbytes ↦ ?_, fun hends ↦ ?_⟩
  · rw [Caret.after, length_eq_byteSize_iff.mpr hbytes]
    exact hlocate
  · exact Nat.lt_of_le_of_ne hinnermost.le_stop (hends innermost hinnermost.mem).symm

/-- A caret inside a struct that stands in an array length of another one. -/
theorem locate?_at_caret_of_nested_structs :
    let source :=
      SourceFile.lenient "struct Outer([u8; \x7b\nstruct Inner \x7b a: u8 \x7d\n1 \x7d]);"
    ∃ structs innermost, source.structs? = some structs ∧
      innermost.IsInnermost structs 35 ∧ source.locate? (.cursor 2 16) = some (.ok innermost) ∧
      35 < innermost.stop.offset := by
  intro source
  let before := "struct Outer([u8; \x7b\nstruct Inner \x7b ".toList
  have hcut : Text.splitAt? 35 source.text.toList =
      some (before, "a: u8 \x7d\n1 \x7d]);".toList) := by
    decide +kernel
  have hbytes : ∀ c ∈ lastLine before, c.utf8Size = 1 :=
    length_eq_byteSize_iff.mp (by decide +kernel)
  let outer : Located :=
    ⟨⟨"Outer", none, .tuple [⟨none, some "[u8; \x7b\nstruct Inner \x7b a: u8 \x7d\n1 \x7d]"⟩]⟩,
      ⟨0, ⟨0, 0⟩⟩, ⟨49, ⟨2, 6⟩⟩, ""⟩
  let inner : Located :=
    ⟨⟨"Inner", none, .named [⟨some "a", some "u8"⟩]⟩, ⟨20, ⟨1, 0⟩⟩, ⟨42, ⟨1, 22⟩⟩, ""⟩
  have hall : source.structs? = some [outer, inner] := by decide +kernel
  obtain ⟨structs, hstructs, hcaret⟩ :=
    locate?_at_caret Parser.fits_lenient (parse_lenient source.text)
  obtain rfl : [outer, inner] = structs := Option.some.inj (hall.symm.trans hstructs)
  obtain ⟨innermost, hinnermost, -, hpicked, hends⟩ :=
    hcaret 35 _ _ hcut inner (by simp) (by decide) (by decide)
  exact ⟨_, innermost, hall, hinnermost, hpicked hbytes, hends (by decide)⟩

/-- Behind characters of two bytes the caret at the start of a struct picks the one before. -/
theorem locate?_at_caret_misses :
    let source := SourceFile.lenient "struct Année \x7b âge: u8 \x7d struct B;"
    Caret.at? source.text.toList 27 = some ⟨1, 26⟩ ∧
      source.structs?.map (List.map fun located ↦
          (located.declaration.name, located.start.offset, located.stop.offset)) =
        some [("Année", 0, 26), ("B", 27, 36)] ∧
      (source.locate? (.cursor 1 26)).map (fun result ↦
          result.toOption.map fun located ↦ located.declaration.name) =
        some (some "Année") := by
  decide +kernel

end SourceFile

end Memberwise.Source
