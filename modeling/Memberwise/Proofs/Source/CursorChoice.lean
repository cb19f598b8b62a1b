import Memberwise.Proofs.Source.Lenient.Trees
import Memberwise.Proofs.Source.Snapshot
import Memberwise.Proofs.Text.Lines

/-!
# What a cursor picks

A cursor is on a point of the text. It picks a shortest declaration around the point and, where
there is none, the one that starts last among those that start on the line of the cursor or above.
So it finds a declaration exactly if one starts there, on every line that the text has.

A declaration is around the point behind its last character, too. There it competes with those that
hold the next character, and the last statements say when it wins.
-/

namespace Memberwise

namespace Text.Point

protected def lt (p q : Point) : Prop := p.row < q.row ∨ p.row = q.row ∧ p.column < q.column

instance : LT Point := ⟨Point.lt⟩

instance (p q : Point) : Decidable (p < q) :=
  inferInstanceAs (Decidable (p.row < q.row ∨ p.row = q.row ∧ p.column < q.column))

theorem lt_iff_le_and_ne {p q : Point} : p < q ↔ p ≤ q ∧ q ≠ p := by
  obtain ⟨row, column⟩ := p
  obtain ⟨otherRow, otherColumn⟩ := q
  change (row < otherRow ∨ row = otherRow ∧ column < otherColumn) ↔
    (row < otherRow ∨ row = otherRow ∧ column ≤ otherColumn) ∧ _
  rw [ne_eq, Point.mk.injEq]
  omega

/-- A boundary of a text is on one of its lines. -/
theorem row_after_le {offset : Nat} {text front back : List Char}
    (h : splitAt? offset text = some (front, back)) : (after front).row ≤ lineFeeds text := by
  rw [← (append_eq_of_splitAt?_eq_some h).1, lineFeeds_append]
  exact Nat.le_add_right _ _

end Text.Point

namespace Source

open Text (lineFeeds Point)

/-! ## The declaration that starts last -/

namespace Located

theorem mem_of_latest? {structs : List Located} {located : Located}
    (h : latest? structs = some located) : located ∈ structs := by
  induction structs generalizing located with
  | nil => simp [latest?] at h
  | cons first others ih =>
    rw [latest?] at h
    split at h
    · obtain rfl := Option.some.inj h
      exact List.mem_cons_self
    · rename_i best hbest
      obtain rfl := Option.some.inj h
      split
      · exact List.mem_cons_self
      · exact List.mem_cons_of_mem first (ih hbest)

theorem latest?_eq_none_iff {structs : List Located} : latest? structs = none ↔ structs = [] := by
  cases structs with
  | nil => simp [latest?]
  | cons first others =>
    rw [latest?]
    split <;> simp

theorem start_le_of_latest? {structs : List Located} {latest other : Located}
    (h : latest? structs = some latest) (hmem : other ∈ structs) :
    other.start.offset ≤ latest.start.offset := by
  induction structs generalizing latest with
  | nil => simp at hmem
  | cons first others ih =>
    rw [latest?] at h
    split at h
    · rename_i hnone
      rw [latest?_eq_none_iff.mp hnone, List.mem_singleton] at hmem
      rw [hmem, Option.some.inj h]
    · rename_i best hbest
      obtain rfl := Option.some.inj h
      rcases List.mem_cons.mp hmem with rfl | hothers
      · split <;> omega
      · have hle := ih hbest hothers
        split <;> omega

theorem spans_eq_true_iff {located : Located} {point : Point} :
    located.spans point = true ↔ located.start.point ≤ point ∧ point ≤ located.stop.point := by
  rw [spans, Bool.and_eq_true, decide_eq_true_iff, decide_eq_true_iff]

theorem row_le_of_spans {located : Located} {point : Point} (h : located.spans point = true) :
    located.start.point.row ≤ point.row := by
  rcases (spans_eq_true_iff.mp h).1 with hlt | ⟨heq, -⟩
  · exact hlt.le
  · exact heq.le

/-- A shortest one of the declarations that satisfy `p`. -/
structure IsShortest (structs : List Located) (p : Located → Prop) (located : Located) : Prop where
  mem : located ∈ structs
  holds : p located
  size_le : ∀ other ∈ structs, p other → located.size ≤ other.size

theorem isShortest_of_shortest? {structs : List Located} {p : Located → Bool} {shortest : Located}
    (h : shortest? (structs.filter p) = some shortest) :
    IsShortest structs (fun located ↦ p located = true) shortest := by
  obtain ⟨hmem, hholds⟩ := List.mem_filter.mp (mem_of_leastBy? h)
  refine ⟨hmem, hholds, fun other hother hotherHolds ↦ ?_⟩
  exact measure_leastBy?_le h (List.mem_filter.mpr ⟨hother, hotherHolds⟩)

end Located

/-! ## Picking by a point -/

namespace Locator

/-- What a point picks among declarations. -/
inductive Picks (structs : List Located) (point : Point) (picked : Located) : Prop where
  /-- A shortest one of those around the point, ends included. -/
  | around (shortest : Located.IsShortest structs (fun located ↦ located.spans point = true) picked)
  /-- The one that starts last of those that start on the row of the point or above, if none is
  around the point. -/
  | above (mem : picked ∈ structs) (row_le : picked.start.point.row ≤ point.row)
      (not_spans : ∀ other ∈ structs, ¬ other.spans point = true)
      (start_le : ∀ other ∈ structs, other.start.point.row ≤ point.row →
        other.start.offset ≤ picked.start.offset)

variable {structs : List Located} {point : Point} {picked : Located}

theorem Picks.mem (h : Picks structs point picked) : picked ∈ structs := by
  cases h with
  | around hshortest => exact hshortest.mem
  | above hmem _ _ _ => exact hmem

theorem Picks.row_le (h : Picks structs point picked) :
    picked.start.point.row ≤ point.row := by
  cases h with
  | around hshortest => exact Located.row_le_of_spans hshortest.holds
  | above _ hrow _ _ => exact hrow

theorem picks_of_atPoint? (h : atPoint? structs point = some picked) :
    Picks structs point picked := by
  rw [atPoint?] at h
  split at h
  · rename_i shortest hshortest
    obtain rfl := Option.some.inj h
    exact .around (Located.isShortest_of_shortest? hshortest)
  · rename_i hnone
    obtain ⟨hmem, hrow⟩ := List.mem_filter.mp (Located.mem_of_latest? h)
    refine .above hmem (of_decide_eq_true hrow) ?_ fun other hother hotherRow ↦ ?_
    · exact List.filter_eq_nil_iff.mp (leastBy?_eq_none_iff.mp hnone)
    · exact Located.start_le_of_latest? h
        (List.mem_filter.mpr ⟨hother, decide_eq_true hotherRow⟩)

/-- A declaration is picked exactly if one starts on the row of the point or above. -/
theorem atPoint?_eq_none_iff :
    atPoint? structs point = none ↔ ∀ located ∈ structs, point.row < located.start.point.row := by
  constructor
  · intro h located hlocated
    rw [atPoint?] at h
    split at h
    · simp at h
    · have hnone := List.filter_eq_nil_iff.mp (Located.latest?_eq_none_iff.mp h) located hlocated
      simpa using hnone
  · intro h
    cases hpicked : atPoint? structs point with
    | none => rfl
    | some picked =>
      have hrow := (picks_of_atPoint? hpicked).row_le
      exact absurd (h picked (picks_of_atPoint? hpicked).mem) (by omega)

/-- Around a point a shortest declaration is picked. -/
theorem exists_isShortest_of_spans {located : Located} (hmem : located ∈ structs)
    (hspans : located.spans point = true) :
    ∃ picked, atPoint? structs point = some picked ∧
      Located.IsShortest structs (fun other ↦ other.spans point = true) picked := by
  cases hpicked : atPoint? structs point with
  | none =>
    have hrow := atPoint?_eq_none_iff.mp hpicked located hmem
    exact absurd (Located.row_le_of_spans hspans) (by omega)
  | some picked =>
    refine ⟨picked, rfl, ?_⟩
    cases picks_of_atPoint? hpicked with
    | around hshortest => exact hshortest
    | above _ _ hnone _ => exact absurd hspans (hnone located hmem)

/-- What a locator picks is one of the declarations. -/
theorem mem_of_pick {text : String} {locator : Locator} {located : Located}
    (h : locator.pick text structs = .ok located) : located ∈ structs := by
  cases locator with
  | name wanted =>
    simp only [pick] at h
    split at h
    · rename_i found hfound
      obtain rfl := Except.ok.inj h
      exact List.mem_of_find?_eq_some hfound
    · simp at h
  | only =>
    simp only [pick] at h
    split at h
    · simp at h
    · obtain rfl := Except.ok.inj h
      exact List.mem_singleton_self _
    · simp at h
  | cursor line column =>
    simp only [pick] at h
    split at h
    · simp at h
    · split at h
      · rename_i found hfound
        obtain rfl := Except.ok.inj h
        exact (picks_of_atPoint? hfound).mem
      · simp at h

/-! ## Lines of the text -/

/-- Every line feed opens a line. -/
theorem lineCount_eq (source : List Char) : lineCount source = lineFeeds source + 1 := by
  rw [lineCount, Text.length_lines]
  cases hlast : source.getLast? with
  | none => simp [List.getLast?_eq_none_iff.mp hlast, lineFeeds]
  | some c =>
    by_cases hc : c = '\n'
    · subst hc
      simp
    · simp [hc]

/-- The cursor is on no line of the text or before its first column. -/
def IsOutside (text : String) (line column : Nat) : Prop :=
  line = 0 ∨ column = 0 ∨ lineFeeds text.toList + 1 < line

instance (text : String) (line column : Nat) : Decidable (IsOutside text line column) :=
  inferInstanceAs (Decidable (line = 0 ∨ column = 0 ∨ lineFeeds text.toList + 1 < line))

variable {text : String} {line column : Nat}

theorem pick_of_isOutside (h : IsOutside text line column) (structs : List Located) :
    (cursor line column).pick text structs = .error (.outside line column) := by
  rw [IsOutside, ← lineCount_eq] at h
  exact if_pos h

theorem pick_of_not_isOutside (h : ¬ IsOutside text line column) (structs : List Located) :
    (cursor line column).pick text structs =
      match atPoint? structs ⟨line - 1, column - 1⟩ with
      | some located => .ok located
      | none => .error (.notFound ("at or above line " ++ toString line)) := by
  rw [IsOutside, ← lineCount_eq] at h
  exact if_neg h

/-- On a line of the text the cursor picks what its point picks. -/
theorem pick_cursor_of_atPoint? {located : Located} (hrow : point.row ≤ lineFeeds text.toList)
    (h : atPoint? structs point = some located) :
    (cursor (point.row + 1) (point.column + 1)).pick text structs = .ok located := by
  have hinside : ¬ IsOutside text (point.row + 1) (point.column + 1) := by
    rw [IsOutside]
    omega
  rw [pick_of_not_isOutside hinside, Nat.add_sub_cancel, Nat.add_sub_cancel, h]

theorem below_iff (h : ¬ IsOutside text line column) (located : Located) :
    line - 1 < located.start.point.row ↔ line < located.line := by
  have hline : line ≠ 0 := fun hzero ↦ h (Or.inl hzero)
  rw [Located.line]
  omega

end Locator

namespace SourceFile

open Locator (IsOutside Picks)

variable {source : SourceFile} {structs : List Located}

theorem locate?_eq (h : source.structs? = some structs) (locator : Locator) :
    source.locate? locator = some (locator.pick source.text structs) := by
  rw [locate?, h, Option.map_some]

/-- Whatever the parser makes of a text, as long as its trees fit: a cursor outside the text is
refused, and no other one. Above all declarations nothing is found, and everywhere else a
declaration is. -/
theorem locate?_cursor_picks {parser : Parser} (hparser : parser.Fits) {text : String}
    (hparse : parse parser text = .ok source) :
    ∃ structs, source.structs? = some structs ∧ ∀ line column : Nat,
      (source.locate? (.cursor line column) = some (.error (.outside line column)) ↔
        IsOutside text line column) ∧
      (¬ IsOutside text line column →
        (source.locate? (.cursor line column) =
            some (.error (.notFound ("at or above line " ++ toString line))) ↔
          ∀ located ∈ structs, line < located.line) ∧
        ((∃ located ∈ structs, located.line ≤ line) →
          ∃ picked, source.locate? (.cursor line column) = some (.ok picked) ∧
            picked.line ≤ line ∧ Picks structs ⟨line - 1, column - 1⟩ picked)) := by
  obtain ⟨structs, hstructs, -⟩ := exists_structs? hparser hparse
  obtain ⟨-, rfl, -⟩ := parse_eq_ok hparse
  refine ⟨structs, hstructs, fun line column ↦ ?_⟩
  simp only [locate?_eq hstructs, Option.some.injEq]
  refine ⟨⟨fun h ↦ ?_, fun h ↦ Locator.pick_of_isOutside h structs⟩, fun hinside ↦ ?_⟩
  · by_contra hinside
    rw [Locator.pick_of_not_isOutside hinside] at h
    split at h <;> simp at h
  · rw [Locator.pick_of_not_isOutside hinside]
    cases hpicked : Locator.atPoint? structs ⟨line - 1, column - 1⟩ with
    | none =>
      have hbelow : ∀ located ∈ structs, line < located.line :=
        fun located hlocated ↦ (Locator.below_iff hinside located).mp
          (Locator.atPoint?_eq_none_iff.mp hpicked located hlocated)
      refine ⟨iff_of_true rfl hbelow, ?_⟩
      rintro ⟨located, hlocated, hline⟩
      exact absurd (hbelow located hlocated) (by omega)
    | some picked =>
      have hpicks := Locator.picks_of_atPoint? hpicked
      have hline : picked.line ≤ line := by
        have hrow := mt (Locator.below_iff hinside picked).mpr (Nat.not_lt.mpr hpicks.row_le)
        omega
      refine ⟨iff_of_false (by simp) ?_, fun _ ↦ ⟨picked, rfl, hline, hpicks⟩⟩
      intro hbelow
      exact absurd (hbelow picked hpicks.mem) (by omega)

/-- A cursor behind the last line, and one between two structs. -/
theorem locate?_cursor_picks_of_two_structs :
    let source := SourceFile.lenient "struct A;\n\nstruct B;"
    ∃ structs, source.structs? = some structs ∧
      source.locate? (.cursor 4 1) = some (.error (.outside 4 1)) ∧
      ∃ picked, source.locate? (.cursor 2 7) = some (.ok picked) ∧ picked.line ≤ 2 ∧
        Picks structs ⟨1, 6⟩ picked := by
  intro source
  let first : Located := ⟨⟨"A", none, .unit⟩, ⟨0, ⟨0, 0⟩⟩, ⟨9, ⟨0, 9⟩⟩, ""⟩
  let second : Located := ⟨⟨"B", none, .unit⟩, ⟨11, ⟨2, 0⟩⟩, ⟨20, ⟨2, 9⟩⟩, ""⟩
  have hall : source.structs? = some [first, second] := by decide +kernel
  obtain ⟨structs, hstructs, hcursor⟩ :=
    locate?_cursor_picks Parser.fits_lenient (parse_lenient source.text)
  obtain rfl : [first, second] = structs := Option.some.inj (hall.symm.trans hstructs)
  have hbehind : IsOutside source.text 4 1 := by decide +kernel
  have hbetween : ¬ IsOutside source.text 2 7 := by decide +kernel
  exact ⟨_, hall, (hcursor 4 1).1.mpr hbehind,
    ((hcursor 2 7).2 hbetween).2 ⟨first, by simp, by decide⟩⟩

end SourceFile

/-! ## The character at a point -/

namespace Located

/-- The character at the point is one of the declaration's. -/
def Holds (located : Located) (point : Point) : Prop :=
  located.start.point ≤ point ∧ point < located.stop.point

instance (located : Located) (point : Point) : Decidable (located.Holds point) :=
  inferInstanceAs (Decidable (located.start.point ≤ point ∧ point < located.stop.point))

theorem holds_iff {located : Located} {point : Point} :
    located.Holds point ↔ located.spans point = true ∧ located.stop.point ≠ point := by
  rw [Holds, Point.lt_iff_le_and_ne, spans_eq_true_iff, and_assoc]

/-- A declaration holds characters on lines of its source only. -/
theorem row_le_of_holds {text : List Char} {located : Located} {point : Point}
    (hstop : located.stop.IsBoundary text) (h : located.Holds point) :
    point.row ≤ lineFeeds text := by
  obtain ⟨front, back, hcut, hpoint⟩ := hstop.exists_splitAt?
  have hlast : located.stop.point.row ≤ lineFeeds text := hpoint ▸ Point.row_after_le hcut
  rcases h.2 with hlt | ⟨heq, -⟩
  · exact hlt.le.trans hlast
  · exact heq.le.trans hlast

end Located

namespace SourceFile

open Located (IsShortest)

variable {source : SourceFile}

/-- On a character of a declaration the cursor picks a shortest declaration around the point. Among
those that hold the character it is a shortest one exactly if it does not end at the point. It does
not if every declaration that ends there is longer than one that holds the character. -/
theorem locate?_of_holds {parser : Parser} (hparser : parser.Fits) {text : String}
    (hparse : parse parser text = .ok source) :
    ∃ structs, source.structs? = some structs ∧
      ∀ holder ∈ structs, ∀ point, holder.Holds point →
        ∃ picked, source.locate? (.cursor (point.row + 1) (point.column + 1)) =
            some (.ok picked) ∧
          IsShortest structs (fun located ↦ located.spans point = true) picked ∧
          (IsShortest structs (fun located ↦ located.Holds point) picked ↔
            picked.stop.point ≠ point) ∧
          ((∀ other ∈ structs, other.stop.point = point →
              ∃ inner ∈ structs, inner.Holds point ∧ inner.size < other.size) →
            picked.stop.point ≠ point) := by
  obtain ⟨structs, hstructs, hread⟩ := exists_structs? hparser hparse
  obtain ⟨-, rfl, -⟩ := parse_eq_ok hparse
  refine ⟨structs, hstructs, fun holder hmem point hholds ↦ ?_⟩
  obtain ⟨hspans, -⟩ := Located.holds_iff.mp hholds
  obtain ⟨picked, hpicked, hshortest⟩ := Locator.exists_isShortest_of_spans hmem hspans
  have hrow := Located.row_le_of_holds (hread holder hmem).stop hholds
  refine ⟨picked, ?_, hshortest,
    ⟨fun hinnermost ↦ (Located.holds_iff.mp hinnermost.holds).2, fun hstop ↦ ?_⟩, ?_⟩
  · rw [locate?_eq hstructs, Locator.pick_cursor_of_atPoint? hrow hpicked]
  · refine ⟨hshortest.mem, Located.holds_iff.mpr ⟨hshortest.holds, hstop⟩, ?_⟩
    intro other hother hotherHolds
    exact hshortest.size_le other hother (Located.holds_iff.mp hotherHolds).1
  · intro hlonger hstop
    obtain ⟨inner, hinner, hinnerHolds, hlt⟩ := hlonger picked hshortest.mem hstop
    have hle := hshortest.size_le inner hinner (Located.holds_iff.mp hinnerHolds).1
    omega

/-- A struct that ends where a shorter one starts. -/
theorem locate?_of_holds_of_touching_structs :
    let source := SourceFile.lenient "struct Long \x7b a: u8, b: u8 \x7dstruct B;"
    ∃ structs picked, source.structs? = some structs ∧
      source.locate? (.cursor 1 29) = some (.ok picked) ∧
      IsShortest structs (fun located ↦ located.Holds ⟨0, 28⟩) picked := by
  intro source
  let long : Located :=
    ⟨⟨"Long", none, .named [⟨some "a", some "u8"⟩, ⟨some "b", some "u8"⟩]⟩,
      ⟨0, ⟨0, 0⟩⟩, ⟨28, ⟨0, 28⟩⟩, ""⟩
  let short : Located := ⟨⟨"B", none, .unit⟩, ⟨28, ⟨0, 28⟩⟩, ⟨37, ⟨0, 37⟩⟩, ""⟩
  have hall : source.structs? = some [long, short] := by decide +kernel
  obtain ⟨structs, hstructs, hlocate⟩ :=
    locate?_of_holds Parser.fits_lenient (parse_lenient source.text)
  obtain rfl : [long, short] = structs := Option.some.inj (hall.symm.trans hstructs)
  have hmem : short ∈ [long, short] := by simp
  have hlonger : ∀ other ∈ [long, short], other.stop.point = ⟨0, 28⟩ → short.size < other.size := by
    decide
  obtain ⟨picked, hpicked, -, hinnermost, hends⟩ := hlocate short hmem ⟨0, 28⟩ (by decide)
  refine ⟨_, picked, hall, hpicked, hinnermost.mpr (hends fun other hother hstop ↦ ?_)⟩
  exact ⟨short, hmem, by decide, hlonger other hother hstop⟩

/-- A struct that ends where a longer one starts is picked in its place. -/
theorem locate?_of_holds_misses :
    let source := SourceFile.lenient "struct A;struct B \x7b b: u8 \x7d"
    ∃ ending holder, source.structs? = some [ending, holder] ∧
      IsShortest [ending, holder] (fun located ↦ located.Holds ⟨0, 9⟩) holder ∧
      source.locate? (.cursor 1 10) = some (.ok ending) ∧
      ¬ IsShortest [ending, holder] (fun located ↦ located.Holds ⟨0, 9⟩) ending := by
  intro source
  let ending : Located := ⟨⟨"A", none, .unit⟩, ⟨0, ⟨0, 0⟩⟩, ⟨9, ⟨0, 9⟩⟩, ""⟩
  let holder : Located :=
    ⟨⟨"B", none, .named [⟨some "b", some "u8"⟩]⟩, ⟨9, ⟨0, 9⟩⟩, ⟨27, ⟨0, 27⟩⟩, ""⟩
  refine ⟨ending, holder, by decide +kernel, ⟨by simp, by decide, by decide⟩, by decide +kernel,
    fun h ↦ ?_⟩
  exact absurd h.holds (by decide)

end SourceFile

end Source

end Memberwise
