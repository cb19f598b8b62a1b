import Memberwise.Source.Mark

/-!
# Syntax trees

A parser makes a tree of nodes from a source text. A node has a kind, the place in the text that it
stands for, and children, some of which its parent knows by the name of a field. Words and signs of
the grammar are nodes without a name of their own. What the text lacks may be made up: such a node
is missing.

The parser is not part of this library. All that is said of it is which trees it gives.
-/

namespace Memberwise.Source

/-- A node of a syntax tree. -/
structure Node where
  kind : String
  /-- Whether a rule of the grammar has this name; otherwise the kind is the text. -/
  isNamed : Bool
  isMissing : Bool
  /-- The field of its parent that the node is in. -/
  field : Option String
  start : Mark
  stop : Mark
  children : List Node
deriving Repr

/-- A parser of source texts. -/
structure Parser where
  /-- Why the parser does not accept its grammar, if it does not. -/
  refusal : Option String
  /-- The root of the syntax tree of a text. -/
  root? : String → Option Node

namespace Node

def namedChildren (node : Node) : List Node := node.children.filter Node.isNamed

/-- The children in a field. -/
def childrenByField (node : Node) (name : String) : List Node :=
  node.children.filter fun child ↦ child.field = some name

/-- The first child in a field. -/
def childByField? (node : Node) (name : String) : Option Node :=
  node.children.find? fun child ↦ child.field = some name

/-! ## Walks -/

mutual

/-- The struct declarations in a tree, an outer one before those inside it. -/
def structItems : Node → List Node
  | ⟨kind, isNamed, isMissing, field, start, stop, children⟩ =>
    let below := structItemsAmong children
    if kind = "struct_item" then
      ⟨kind, isNamed, isMissing, field, start, stop, children⟩ :: below
    else below

/-- The struct declarations in the trees of the named ones among these nodes. -/
def structItemsAmong : List Node → List Node
  | [] => []
  | child :: others => (if child.isNamed then child.structItems else []) ++ structItemsAmong others

end

mutual

/-- The first node of these kinds below a node, in the order of the text. -/
def firstDescendant? (kinds : List String) : Node → Option Node
  | ⟨_, _, _, _, _, _, children⟩ => firstAmong? kinds children

/-- The first node of these kinds in the trees of the named ones among these nodes. -/
def firstAmong? (kinds : List String) : List Node → Option Node
  | [] => none
  | child :: others =>
    let here :=
      if child.isNamed then
        if child.kind ∈ kinds then some child else child.firstDescendant? kinds
      else none
    here.or (firstAmong? kinds others)

end

theorem structItems_eq (node : Node) :
    node.structItems =
      (if node.kind = "struct_item" then [node] else []) ++ structItemsAmong node.children := by
  cases node
  simp only [structItems]
  split <;> rfl

theorem firstDescendant?_eq (kinds : List String) (node : Node) :
    node.firstDescendant? kinds = firstAmong? kinds node.children := by
  cases node
  rw [firstDescendant?]

/-- The node that names a generic parameter, without bounds or a default. -/
def argument? (parameter : Node) : Option Node :=
  match parameter.kind with
  | "lifetime" | "type_identifier" => some parameter
  | "constrained_type_parameter" => parameter.childByField? "left"
  | "lifetime_parameter" =>
    (parameter.childByField? "name").or
      (parameter.namedChildren.find? fun child ↦ child.kind = "lifetime")
  | "optional_type_parameter" | "const_parameter" | "type_parameter" =>
    parameter.childByField? "name"
  | _ => none

end Node

end Memberwise.Source
