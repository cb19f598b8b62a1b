import Memberwise.Text.Position

/-!
# Marks

A mark names a boundary of a source text twice over: by its offset in bytes, and by its row and its
column. Reading on from a mark, character by character, keeps the two together.
-/

namespace Memberwise.Source

/-- A boundary in the source: its byte offset and its row and column. -/
structure Mark where
  offset : Nat
  point : Text.Point
deriving DecidableEq, Repr

namespace Mark

def start : Mark := ⟨0, ⟨0, 0⟩⟩

/-- The mark behind one more character. -/
def next (mark : Mark) (c : Char) : Mark :=
  ⟨mark.offset + c.utf8Size,
    if c = '\n' then ⟨mark.point.row + 1, 0⟩
    else ⟨mark.point.row, mark.point.column + c.utf8Size⟩⟩

/-- The mark behind more text. -/
def advance (mark : Mark) (text : List Char) : Mark := text.foldl next mark

@[simp] theorem advance_nil (mark : Mark) : mark.advance [] = mark := rfl

@[simp] theorem advance_cons (mark : Mark) (c : Char) (text : List Char) :
    mark.advance (c :: text) = (mark.next c).advance text := rfl

theorem advance_append (mark : Mark) (front back : List Char) :
    mark.advance (front ++ back) = (mark.advance front).advance back := by
  simp [advance, List.foldl_append]

end Mark

end Memberwise.Source
