/-!
# Blank characters, trimming and words

A character is blank when it has the Unicode property `White_Space`. Text is handled as a list
of characters, so that a cut falls between two characters by construction.

The main statements: trimming leaves no blank character at either end, and no piece of a text
between separators holds a separator.
-/

namespace Memberwise.Text

/-- Code point ranges, ends included, of the characters with the property `White_Space`. -/
def blankRanges : List (Nat × Nat) :=
  [(0x09, 0x0D), (0x20, 0x20), (0x85, 0x85), (0xA0, 0xA0), (0x1680, 0x1680), (0x2000, 0x200A),
    (0x2028, 0x2029), (0x202F, 0x202F), (0x205F, 0x205F), (0x3000, 0x3000)]

def isBlank (c : Char) : Bool :=
  blankRanges.any fun range ↦ range.1 ≤ c.toNat && c.toNat ≤ range.2

def trimStart (text : List Char) : List Char := text.dropWhile isBlank

def trimEnd (text : List Char) : List Char := (text.reverse.dropWhile isBlank).reverse

def trim (text : List Char) : List Char := trimEnd (trimStart text)

theorem isBlank_getLast_trimEnd (text : List Char) (h : trimEnd text ≠ []) :
    isBlank ((trimEnd text).getLast h) = false := by
  have hne : text.reverse.dropWhile isBlank ≠ [] := by simpa [trimEnd] using h
  have hhead := List.head_dropWhile_not isBlank hne
  simpa [trimEnd, List.getLast_reverse] using hhead

theorem trimEnd_prefix (text : List Char) : trimEnd text <+: text := by
  have h := List.dropWhile_suffix isBlank (l := text.reverse)
  simpa [trimEnd] using List.reverse_prefix.mpr h

theorem isBlank_head_trim (text : List Char) (h : trim text ≠ []) :
    isBlank ((trim text).head h) = false := by
  have hprefix : trim text <+: trimStart text := trimEnd_prefix (trimStart text)
  have hne : text.dropWhile isBlank ≠ [] := by
    intro hnil
    rw [trimStart, hnil] at hprefix
    exact h (List.prefix_nil.mp hprefix)
  have hhead := List.head_dropWhile_not isBlank hne
  rw [List.IsPrefix.head hprefix h]
  exact hhead

/-- The pieces between separators, empty ones included: one more than there are separators. -/
def splitAtEach (isSeparator : Char → Bool) : List Char → List (List Char)
  | [] => [[]]
  | c :: rest =>
    if isSeparator c then [] :: splitAtEach isSeparator rest
    else
      match splitAtEach isSeparator rest with
      | [] => [[c]]
      | piece :: pieces => (c :: piece) :: pieces

/-- The maximal runs of characters that are not separators. -/
def runsBetween (isSeparator : Char → Bool) (text : List Char) : List (List Char) :=
  (splitAtEach isSeparator text).filter fun piece ↦ !piece.isEmpty

/-- The maximal runs of characters that are not blank. -/
def words (text : List Char) : List (List Char) := runsBetween isBlank text

/-- The words of a text, joined by single spaces. -/
def collapse (text : List Char) : List Char := [' '].intercalate (words text)

theorem splitAtEach_ne_nil (isSeparator : Char → Bool) (text : List Char) :
    splitAtEach isSeparator text ≠ [] := by
  cases text with
  | nil => simp [splitAtEach]
  | cons c rest =>
    rw [splitAtEach]
    split
    · simp
    · split <;> simp

theorem not_isSeparator_of_mem_splitAtEach {isSeparator : Char → Bool} {text piece : List Char}
    {c : Char} (hpiece : piece ∈ splitAtEach isSeparator text) (hc : c ∈ piece) :
    isSeparator c = false := by
  induction text generalizing piece with
  | nil =>
    simp only [splitAtEach, List.mem_singleton] at hpiece
    simp [hpiece] at hc
  | cons d rest ih =>
    rw [splitAtEach] at hpiece
    split at hpiece
    · rcases List.mem_cons.mp hpiece with rfl | h
      · simp at hc
      · exact ih h hc
    · rename_i hd
      split at hpiece
      · rename_i hnil
        exact absurd hnil (splitAtEach_ne_nil _ _)
      · rename_i first others heq
        rcases List.mem_cons.mp hpiece with rfl | h
        · rcases List.mem_cons.mp hc with rfl | hc
          · simpa using hd
          · exact ih (heq ▸ List.mem_cons_self) hc
        · exact ih (heq ▸ List.mem_cons_of_mem _ h) hc

theorem ne_nil_of_mem_runsBetween {isSeparator : Char → Bool} {text run : List Char}
    (h : run ∈ runsBetween isSeparator text) : run ≠ [] := by
  have := (List.mem_filter.mp h).2
  simpa using this

theorem not_isSeparator_of_mem_runsBetween {isSeparator : Char → Bool} {text run : List Char}
    {c : Char} (h : run ∈ runsBetween isSeparator text) (hc : c ∈ run) : isSeparator c = false :=
  not_isSeparator_of_mem_splitAtEach (List.mem_filter.mp h).1 hc

end Memberwise.Text
