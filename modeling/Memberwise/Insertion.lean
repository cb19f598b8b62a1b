import Memberwise.Text.Line
import Memberwise.Text.Position

/-!
# Inserting a block after a declaration

A block goes behind the declaration it belongs to, and behind what else belongs to the line: blanks
and a line comment. It is separated by an empty line, and the caret comes to rest on its last
character. Offsets count bytes; one that is no character boundary has no answer.
-/

namespace Memberwise

/-- A text with a block inserted. -/
structure Insertion where
  text : String
  /-- The position of the last character inserted. -/
  caret : Text.Caret
deriving DecidableEq, Repr

namespace Insertion

/-- A block with `indent` before every line that is not empty. Without an indent it stays as it
is. -/
def indentBlock (block indent : String) : String :=
  if indent.isEmpty then block
  else String.ofList (Text.indentLines indent.toList block.toList)

/-- The rest of a line. -/
def lineRest (text : List Char) : List Char := text.takeWhile (· ≠ '\n')

/-- Whether the rest of a line belongs to what precedes it: nothing but blanks and a comment. -/
def isTrailer (rest : List Char) : Bool :=
  let trimmed := Text.trim rest
  trimmed.isEmpty || "//".toList.isPrefixOf trimmed

/-- Where to insert after the text `front`, which `back` follows. -/
def pointAfter (front back : List Char) : Nat :=
  if isTrailer (lineRest back) then Text.byteSize (Text.trimEnd (front ++ lineRest back))
  else Text.byteSize front

/-- Where to insert after a declaration that ends at `offset`. -/
def point? (source : String) (offset : Nat) : Option Nat :=
  (Text.splitAt? offset source.toList).map fun cut ↦ pointAfter cut.1 cut.2

/-- An empty line between two texts. -/
def emptyLine : List Char := ['\n', '\n']

/-- `block` between two parts of a text, after an empty line. -/
def between (front block back : List Char) : Insertion where
  text := String.ofList (front ++ emptyLine ++ block ++ back)
  caret := Text.Caret.after (front ++ emptyLine ++ block).dropLast

/-- `block` at a byte offset of `source`, after an empty line. -/
def splice? (source : String) (offset : Nat) (block : String) : Option Insertion :=
  (Text.splitAt? offset source.toList).map fun cut ↦ between cut.1 block.toList cut.2

end Insertion

end Memberwise
