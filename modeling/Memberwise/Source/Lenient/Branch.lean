import Memberwise.Source.Lenient.Visibility
import Memberwise.Source.Node

/-!
# Nodes for tokens

A node that is made for tokens goes from the first to the last of them, and further where one of its
children reaches further. So a tree that is made in this way is nested, however its tokens were
chosen.
-/

namespace Memberwise.Source

namespace Mark

/-- The first of two marks. -/
def earlier (mark other : Mark) : Mark := if mark.offset ≤ other.offset then mark else other

/-- The last of two marks. -/
def later (mark other : Mark) : Mark := if mark.offset ≤ other.offset then other else mark

end Mark

namespace Lenient

/-- A node between two marks, or further where its children reach further. -/
def branch (kind : String) (start stop : Mark) (children : List Node) : Node where
  kind
  isNamed := true
  isMissing := false
  field := none
  start := (children.map Node.start).foldl Mark.earlier start
  stop := (children.map Node.stop).foldl Mark.later (start.later stop)
  children

/-- A node in a field of its parent. -/
def inField (name : String) (node : Node) : Node := { node with field := some name }

namespace Token

def leaf (kind : String) (token : Token) : Node := branch kind token.start token.stop []

/-- A node for consecutive tokens, if there are any. -/
def branch? (kind : String) (tokens : List Token) (children : List Node) : Option Node :=
  match tokens with
  | [] => none
  | first :: others => some (branch kind first.start (stopOr first.stop others) children)

end Token

end Lenient

end Memberwise.Source
