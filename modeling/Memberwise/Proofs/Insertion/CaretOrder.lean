import Memberwise.Proofs.Insertion.Caret

/-!
# The one character that a caret reports

Lines count line feeds and columns count characters, while offsets count bytes. All the same, the
caret behind an insertion tells the offset: later offsets have later carets, so one offset of the
new text has the caret reported, and the last character that was put in stands there.
-/

namespace Memberwise.Insertion

open Text (Caret byteSize splitAt?)

/-- The last character that goes in with `block` at `offset`, and the offset that it then has: a
character of the block, or else the second line feed of the empty line before it. -/
inductive LastInserted (offset : Nat) (block : String) : Char → Nat → Prop where
  | lineFeed (hempty : block = "") : LastInserted offset block '\n' (offset + 1)
  | ofBlock {c : Char} (hlast : block.toList.getLast? = some c) :
      LastInserted offset block c (offset + 2 + block.utf8ByteSize - c.utf8Size)

theorem exists_lastInserted (front : List Char) (block : String) :
    ∃ opening c, front ++ emptyLine ++ block.toList = opening ++ [c] ∧
      LastInserted (byteSize front) block c (byteSize opening) := by
  rcases List.eq_nil_or_concat' block.toList with hempty | ⟨body, c, hblock⟩
  · have hsize : byteSize (front ++ ['\n']) = byteSize front + 1 := Text.byteSize_append front _
    refine ⟨front ++ ['\n'], '\n', by simp [hempty, emptyLine], ?_⟩
    rw [hsize]
    exact .lineFeed (String.toList_eq_nil_iff.mp hempty)
  · have hline : byteSize emptyLine = 2 := rfl
    have hbody : block.utf8ByteSize = byteSize body + c.utf8Size := by
      rw [← Text.byteSize_toList, hblock, Text.byteSize_append]
      rfl
    have hsize : byteSize (front ++ emptyLine ++ body) =
        byteSize front + 2 + block.utf8ByteSize - c.utf8Size := by
      calc
        _ = byteSize front + 2 + byteSize body := by
          rw [Text.byteSize_append, Text.byteSize_append, hline]
        _ = _ := by omega
    refine ⟨front ++ emptyLine ++ body, c, by rw [hblock, List.append_assoc _ body], ?_⟩
    rw [hsize]
    exact .ofBlock (by rw [hblock, List.getLast?_concat])

/-- Later offsets have later carets, so the caret of an insertion is that of one offset only: where
the last character that was put in stands. -/
theorem splice?_caret_unique :
    (∀ (text : List Char) (early late : Nat) (first second : Caret), early < late →
      Caret.at? text early = some first → Caret.at? text late = some second → first < second) ∧
    ∀ (source : String) (offset : Nat) (block : String),
      (splitAt? offset source.toList).isSome = true →
      ∃ insertion c place, splice? source offset block = some insertion ∧
        LastInserted offset block c place ∧
        (∃ before after, splitAt? place insertion.text.toList = some (before, c :: after)) ∧
        ∀ other, Caret.at? insertion.text.toList other = some insertion.caret ↔ other = place := by
  constructor
  · intro text early late first second hlt hfirst hsecond
    exact Caret.at?_lt_at? hfirst hsecond hlt
  intro source offset block hboundary
  obtain ⟨⟨front, back⟩, hcut⟩ := Option.isSome_iff_exists.mp hboundary
  obtain ⟨-, rfl⟩ := Text.append_eq_of_splitAt?_eq_some hcut
  obtain ⟨opening, c, htext, hlast⟩ := exists_lastInserted front block
  have hinserted : (between front block.toList back).text.toList = opening ++ c :: back := by
    rw [toList_text_between, htext, List.append_assoc, List.singleton_append]
  have hcaret : (between front block.toList back).caret = Caret.after opening := by
    rw [between, htext, List.dropLast_concat]
  have hplace : Caret.at? (opening ++ c :: back) (byteSize opening) =
      some (Caret.after opening) :=
    Caret.at?_eq_some_iff.mpr ⟨opening, List.prefix_append _ _, rfl, rfl⟩
  refine ⟨between front block.toList back, c, byteSize opening, ?_, hlast, ⟨opening, back, ?_⟩, ?_⟩
  · rw [splice?, hcut, Option.map_some]
  · rw [hinserted, Text.splitAt?_byteSize]
  · intro other
    rw [hinserted, hcaret]
    constructor
    · intro hother
      exact Caret.at?_injective hother hplace
    · rintro rfl
      exact hplace

/-- Carets on two lines behind a letter of two bytes, and a block of two lines that ends with it. -/
theorem splice?_caret_unique_of_letters :
    Caret.at? "é\nb".toList 2 = some ⟨1, 2⟩ ∧ Caret.at? "é\nb".toList 3 = some ⟨2, 1⟩ ∧
      (⟨1, 2⟩ : Caret) < ⟨2, 1⟩ ∧
      ∃ insertion : Insertion, splice? "é\nb" 3 "x\né" = some insertion ∧
        LastInserted 3 "x\né" 'é' 7 ∧
        ∀ other, Caret.at? insertion.text.toList other = some insertion.caret ↔ other = 7 := by
  have hfirst : Caret.at? "é\nb".toList 2 = some ⟨1, 2⟩ := by decide
  have hsecond : Caret.at? "é\nb".toList 3 = some ⟨2, 1⟩ := by decide
  have hlt := splice?_caret_unique.1 _ 2 3 _ _ (by decide) hfirst hsecond
  obtain ⟨insertion, c, place, hsplice, hlast, -, hunique⟩ :=
    splice?_caret_unique.2 "é\nb" 3 "x\né" (by decide)
  refine ⟨hfirst, hsecond, hlt, insertion, hsplice, ?_⟩
  cases hlast with
  | lineFeed hempty => exact absurd hempty (by decide)
  | ofBlock hend =>
    obtain rfl : 'é' = c := Option.some.inj hend
    exact ⟨.ofBlock hend, hunique⟩

end Memberwise.Insertion
