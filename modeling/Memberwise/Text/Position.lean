import Memberwise.Text.Blank

/-!
# Positions in a text

An offset counts UTF-8 bytes and is meaningful only on a character boundary: `splitAt?` cuts a text
there, and nowhere else, and `slice?` gives what is between two of them. A `Point` names a boundary
by its row and its column in bytes, both from zero; a `Caret` by its line and its column in
characters, both from one.
-/

namespace Memberwise.Text

/-- Length in bytes of the UTF-8 encoding. -/
def byteSize : List Char → Nat
  | [] => 0
  | c :: rest => c.utf8Size + byteSize rest

@[simp] theorem byteSize_nil : byteSize [] = 0 := rfl

@[simp] theorem byteSize_cons (c : Char) (rest : List Char) :
    byteSize (c :: rest) = c.utf8Size + byteSize rest := rfl

@[simp] theorem byteSize_append (front back : List Char) :
    byteSize (front ++ back) = byteSize front + byteSize back := by
  induction front with
  | nil => simp
  | cons c rest ih => simp [ih, Nat.add_assoc]

/-- The text before and after a byte offset, if the offset is a character boundary of the text. -/
def splitAt? : Nat → List Char → Option (List Char × List Char)
  | 0, text => some ([], text)
  | _ + 1, [] => none
  | offset + 1, c :: rest =>
    if c.utf8Size ≤ offset + 1 then
      (splitAt? (offset + 1 - c.utf8Size) rest).map fun cut ↦ (c :: cut.1, cut.2)
    else none

theorem splitAt?_byteSize (front back : List Char) :
    splitAt? (byteSize front) (front ++ back) = some (front, back) := by
  induction front with
  | nil => simp [splitAt?]
  | cons c rest ih =>
    have hpos := c.utf8Size_pos
    obtain ⟨n, hn⟩ : ∃ n, c.utf8Size + byteSize rest = n + 1 :=
      ⟨c.utf8Size + byteSize rest - 1, by omega⟩
    have hrest : n + 1 - c.utf8Size = byteSize rest := by omega
    simp [hn, splitAt?, hrest, ih, show c.utf8Size ≤ n + 1 by omega]

theorem append_eq_of_splitAt?_eq_some {offset : Nat} {text front back : List Char}
    (h : splitAt? offset text = some (front, back)) :
    front ++ back = text ∧ byteSize front = offset := by
  induction text generalizing offset front back with
  | nil =>
    cases offset with
    | zero =>
      simp only [splitAt?, Option.some.injEq, Prod.mk.injEq] at h
      simp [← h.1, ← h.2]
    | succ n => simp [splitAt?] at h
  | cons c rest ih =>
    cases offset with
    | zero =>
      simp only [splitAt?, Option.some.injEq, Prod.mk.injEq] at h
      simp [← h.1, ← h.2]
    | succ n =>
      rw [splitAt?] at h
      split at h
      · rename_i hle
        simp only [Option.map_eq_some_iff, Prod.mk.injEq, Prod.exists] at h
        obtain ⟨before, after, hcut, rfl, rfl⟩ := h
        obtain ⟨happend, hsize⟩ := ih hcut
        simp only [List.cons_append, happend, byteSize_cons, hsize, true_and]
        omega
      · simp at h

/-- The text between two byte offsets, if both are character boundaries and the first is not behind
the second. -/
def slice? (start stop : Nat) (text : List Char) : Option (List Char) :=
  (splitAt? stop text).bind fun cut ↦ (splitAt? start cut.1).map Prod.snd

theorem slice?_byteSize (front middle back : List Char) :
    slice? (byteSize front) (byteSize (front ++ middle)) (front ++ middle ++ back) =
      some middle := by
  simp only [slice?, splitAt?_byteSize, Option.bind_some, Option.map_some]

theorem exists_of_slice?_eq_some {start stop : Nat} {text middle : List Char}
    (h : slice? start stop text = some middle) : ∃ front back, front ++ middle ++ back = text := by
  obtain ⟨⟨upto, back⟩, hstop, hslice⟩ := Option.bind_eq_some_iff.mp h
  obtain ⟨⟨front, _⟩, hstart, rfl⟩ := Option.map_eq_some_iff.mp hslice
  refine ⟨front, back, ?_⟩
  rw [(append_eq_of_splitAt?_eq_some hstart).1, (append_eq_of_splitAt?_eq_some hstop).1]

/-- The number of line feeds. -/
def lineFeeds (text : List Char) : Nat := text.count '\n'

/-- What follows the last line feed. -/
def lastLine (text : List Char) : List Char := (text.reverse.takeWhile (· ≠ '\n')).reverse

/-- A row and a column in bytes, both counted from zero. -/
structure Point where
  row : Nat
  column : Nat
deriving DecidableEq, Repr

namespace Point

/-- The point that a text ends at. -/
def after (text : List Char) : Point := ⟨lineFeeds text, byteSize (lastLine text)⟩

/-- Points are ordered by row, then by column. -/
protected def le (p q : Point) : Prop := p.row < q.row ∨ p.row = q.row ∧ p.column ≤ q.column

instance : LE Point := ⟨Point.le⟩

instance (p q : Point) : Decidable (p ≤ q) :=
  inferInstanceAs (Decidable (p.row < q.row ∨ p.row = q.row ∧ p.column ≤ q.column))

end Point

/-- A line and a column in characters, both counted from one. -/
structure Caret where
  line : Nat
  column : Nat
deriving DecidableEq, Repr

namespace Caret

/-- The caret behind a text: on the character that follows it. -/
def after (text : List Char) : Caret := ⟨lineFeeds text + 1, (lastLine text).length + 1⟩

/-- The caret at a byte offset, if the offset is a character boundary. -/
def at? (text : List Char) (offset : Nat) : Option Caret :=
  (splitAt? offset text).map fun cut ↦ after cut.1

end Caret

end Memberwise.Text
