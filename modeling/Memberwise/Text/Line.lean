import Memberwise.Text.Blank

/-!
# Lines

A line ends with a line feed, which may follow a carriage return; what comes after the last line
feed is a line only if it is not empty. `indentLines` puts an indent before every line that is not
empty.
-/

namespace Memberwise.Text

/-- A line without the carriage return that its line end may begin with. -/
def dropCarriageReturn (line : List Char) : List Char :=
  if line.getLast? = some '\r' then line.dropLast else line

/-- The lines among pieces that line feeds separate. The last piece was not ended by a line feed,
so a carriage return at its end is text. -/
def linesOfPieces : List (List Char) → List (List Char)
  | [] => []
  | [last] => if last.isEmpty then [] else [last]
  | piece :: pieces => dropCarriageReturn piece :: linesOfPieces pieces

def lines (text : List Char) : List (List Char) :=
  linesOfPieces (splitAtEach (· == '\n') text)

/-- The pieces of a text between its line feeds, carriage returns kept. -/
def unlines (pieces : List (List Char)) : List Char := ['\n'].intercalate pieces

def indentLine (indent line : List Char) : List Char :=
  if line.isEmpty then [] else indent ++ line

/-- The lines of a text, each one that is not empty after `indent`, joined by line feeds. -/
def indentLines (indent text : List Char) : List Char :=
  unlines ((lines text).map (indentLine indent))

end Memberwise.Text
