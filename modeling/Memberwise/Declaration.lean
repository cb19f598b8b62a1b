import Memberwise.Text.Blank

/-!
# Struct declarations

A declaration is what the source says about a struct: its name, its generic parameters as text and
its fields in order. A field may lack an identifier (always, in a tuple struct) or a readable type.
-/

namespace Memberwise

/-- A field as declared. -/
structure Field where
  ident : Option String
  typeText : Option String
deriving DecidableEq, Repr

/-- The field list of a struct. -/
inductive Body where
  | unit
  | tuple (fields : List Field)
  | named (fields : List Field)
deriving DecidableEq, Repr

namespace Body

/-- The declared fields. A field list that is absent has none. -/
def fields : Body → List Field
  | unit => []
  | tuple fields => fields
  | named fields => fields

end Body

/-- Generic parameters of a struct, kept as text. -/
structure Generics where
  /-- Parameters with their bounds and without their defaults, as an `impl` header declares them. -/
  params : String
  /-- Parameter names alone, as the self type applies them. -/
  args : String
  whereClause : Option String
deriving DecidableEq, Repr

/-- A struct declaration. -/
structure Declaration where
  name : String
  generics : Option Generics
  body : Body
deriving DecidableEq, Repr

end Memberwise
