import Memberwise.Source.Lenient.Boundary
import Memberwise.Source.Lenient.Branch

/-!
# Lists of generic parameters

The generic parameters of a struct are read from the groups of tokens between the commas of its
angle brackets. A broken comment around one belongs to no parameter and to no `where` clause.
-/

namespace Memberwise.Source.Lenient

/-- The sign before the default of a parameter. -/
def defaultSign? (tokens : List Token) : Option Token :=
  (Token.splitAtTop (Token.isSymbol "=") [] tokens).2.head?

/-- A parameter with its name, and with the sign before its default. -/
def parameterNode? (tokens : List Token) : Option Node :=
  let trimmed := Token.dropAttributes (Token.trimBroken tokens)
  let sign := (defaultSign? trimmed).toList.map fun sign ↦
    { sign.leaf "=" with isNamed := false }
  let named (kind : String) (name : Token) :=
    Token.branch? kind trimmed (inField "name" (name.leaf "identifier") :: sign)
  match trimmed with
  | [] => none
  | first :: others =>
    if first.isWordOf "const" then
      match others with
      | name :: _ => if name.isWord then named "const_parameter" name else none
      | [] => none
    else if first.isWord then named "type_parameter" first
    else if first.kind = .lifetime then named "lifetime_parameter" first
    else none

/-- The list of parameters between two marks, from the tokens between the angle brackets. -/
def parametersNode (start stop : Mark) (tokens : List Token) : Node :=
  inField "type_parameters"
    (branch "type_parameters" start stop ((Token.commaGroups [] tokens).filterMap parameterNode?))

/-- A `where` clause, if there is one. -/
def clauseNode? (clause : List Token) : Option Node :=
  clause.head?.map fun first ↦
    (Token.branch? "where_clause" (Token.trimBroken clause) []).getD
      (branch "where_clause" first.start first.start [])

end Memberwise.Source.Lenient
