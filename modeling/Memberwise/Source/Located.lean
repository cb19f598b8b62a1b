import Memberwise.Declaration
import Memberwise.Source.Least
import Memberwise.Source.Mark
import Memberwise.Text.Line

/-!
# Structs in a source text

A struct declaration is known with where it stands in its source text and how the line it starts on
is indented. A locator picks one of them: by name, as the only one, or by a cursor. A cursor finds
the shortest declaration around it or, outside all of them, the last one that starts above it.
-/

namespace Memberwise.Source

/-- A struct declaration in a source text. -/
structure Located where
  declaration : Declaration
  start : Mark
  stop : Mark
  /-- The blanks that the line of its start begins with. -/
  indent : String
deriving DecidableEq, Repr

namespace Located

/-- The line that the declaration starts on, counted from one. -/
def line (located : Located) : Nat := located.start.point.row + 1

/-- Length in bytes. -/
def size (located : Located) : Nat := located.stop.offset - located.start.offset

/-- Whether a point lies between start and end, both included. -/
def spans (located : Located) (point : Text.Point) : Bool :=
  located.start.point ≤ point && point ≤ located.stop.point

/-- The shortest declaration; of several, the first. -/
def shortest? (structs : List Located) : Option Located := leastBy? size structs

/-- The declaration that starts last; of several, the last. -/
def latest? : List Located → Option Located
  | [] => none
  | first :: others =>
    match latest? others with
    | none => some first
    | some best => some (if best.start.offset < first.start.offset then first else best)

end Located

/-- How a struct is picked. -/
inductive Locator where
  | name (name : String)
  /-- By a line and a column in bytes, both counted from one. -/
  | cursor (line column : Nat)
  /-- The only struct there is. -/
  | only
deriving DecidableEq, Repr

/-- Why no struct was picked. -/
inductive LocateError where
  /-- The parser gave no syntax tree. -/
  | unparsable (reason : String)
  | notFound (what : String)
  | ambiguous (names : List String)
  /-- The cursor lies outside the text. -/
  | outside (line column : Nat)
deriving DecidableEq, Repr

namespace LocateError

def message : LocateError → String
  | unparsable reason => "Failed to parse source: " ++ reason
  | notFound what => "No struct found: " ++ what
  | ambiguous names =>
    "Several structs found (" ++ ", ".intercalate names ++ "); pick one with --name or --line"
  | outside line column =>
    "Position " ++ toString line ++ ":" ++ toString column ++ " is outside the file"

end LocateError

namespace Locator

/-- The number of lines that a cursor can be on. A line feed at the end opens one more line. -/
def lineCount (source : List Char) : Nat :=
  max 1 ((Text.lines source).length + if source.getLast? = some '\n' then 1 else 0)

/-- The struct for a cursor at `point`. -/
def atPoint? (structs : List Located) (point : Text.Point) : Option Located :=
  match Located.shortest? (structs.filter fun located ↦ located.spans point) with
  | some located => some located
  | none =>
    Located.latest? (structs.filter fun located ↦ located.start.point.row ≤ point.row)

/-- The struct that is picked of those in a source text. -/
def pick (source : String) (structs : List Located) (locator : Locator) :
    Except LocateError Located :=
  match locator with
  | name wanted =>
    match structs.find? fun located ↦ located.declaration.name = wanted with
    | some located => .ok located
    | none => .error (.notFound wanted)
  | only =>
    match structs with
    | [] => .error (.notFound "any struct")
    | [located] => .ok located
    | _ => .error (.ambiguous (structs.map fun located ↦ located.declaration.name))
  | cursor line column =>
    if line = 0 ∨ column = 0 ∨ lineCount source.toList < line then .error (.outside line column)
    else
      match atPoint? structs ⟨line - 1, column - 1⟩ with
      | some located => .ok located
      | none => .error (.notFound ("at or above line " ++ toString line))

end Locator

end Memberwise.Source
