import Memberwise.Candidate
import Memberwise.Text.Line

/-!
# The text of a constructor

A constructor is a function `new` whose parameters are the selected candidates and whose body is a
struct literal over all candidates: a selected one is given by its parameter, any other by the
placeholder `()`. Its `impl` block repeats the generic parameters of the struct.
-/

namespace Memberwise

/-- The value of a field that is not a parameter. -/
def placeholder : String := "()"

namespace Candidate

def parameter (candidate : Candidate) : String := candidate.binding ++ ": " ++ candidate.typeText

/-- The field's value in the literal of a tuple struct. -/
def tupleEntry (candidate : Candidate) (selected : Bool) : String :=
  if selected then candidate.binding else placeholder

/-- The field's entry in the literal of a struct with named fields. -/
def namedEntry (candidate : Candidate) (selected : Bool) : String :=
  if !selected then candidate.accessor ++ ": " ++ placeholder
  else if candidate.binding = candidate.accessor then candidate.binding
  else candidate.accessor ++ ": " ++ candidate.binding

end Candidate

/-- A finished constructor. -/
structure Constructor where
  structName : String
  shape : Shape
  /-- The selected candidates. -/
  parameters : List Candidate
  /-- The function alone. -/
  function : String
  /-- The function in an `impl` block. -/
  implBlock : String
deriving DecidableEq, Repr

namespace Constructor

def commaSeparated (texts : List String) : String := ", ".intercalate texts

/-- The struct literal over all candidates. -/
def literal (name : String) (shape : Shape) (candidates selected : List Candidate) : String :=
  match shape with
  | .unit => name ++ " \x7b\x7d"
  | .tuple =>
    name ++ "(" ++
      commaSeparated (candidates.map fun candidate ↦
        candidate.tupleEntry (selected.contains candidate)) ++ ")"
  | .named =>
    name ++ " \x7b " ++
      commaSeparated (candidates.map fun candidate ↦
        candidate.namedEntry (selected.contains candidate)) ++ " \x7d"

/-- The function for a selection among `candidates`. -/
def functionText (name : String) (shape : Shape) (candidates selected : List Candidate) : String :=
  "pub fn new(" ++
    commaSeparated ((candidates.filter selected.contains).map Candidate.parameter) ++
    ") -> Self \x7b\n    " ++ literal name shape candidates selected ++ "\n\x7d"

/-- The function, provided that every selected candidate was a candidate. -/
def functionText? (name : String) (shape : Shape) (candidates selected : List Candidate) :
    Option String :=
  if selected.all candidates.contains then some (functionText name shape candidates selected)
  else none

theorem functionText?_of_subset {name : String} {shape : Shape}
    {candidates selected : List Candidate} (h : selected ⊆ candidates) :
    functionText? name shape candidates selected =
      some (functionText name shape candidates selected) := by
  have hall : selected.all candidates.contains = true := by
    simpa using fun candidate hselected ↦ h hselected
  rw [functionText?, if_pos hall]

/-- What is wrong if `functionText?` gives no text. -/
def foreignSelectionMessage : String :=
  "selected fields must be taken from the analyzed field list"

/-- The header of the `impl` block, up to its opening brace. -/
def implHeader (name : String) : Option Generics → String
  | none => "impl " ++ name
  | some generics =>
    "impl" ++ generics.params ++ " " ++ name ++ generics.args ++
      (match generics.whereClause with
        | none => ""
        | some clause => " " ++ clause)

/-- A function in an `impl` block for the struct, one level deeper. -/
def implBlockText (name : String) (generics : Option Generics) (function : String) : String :=
  implHeader name generics ++ " \x7b\n" ++
    String.ofList (Text.indentLines "    ".toList function.toList) ++ "\n\x7d"

end Constructor

end Memberwise
