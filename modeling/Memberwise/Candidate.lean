import Memberwise.Declaration

/-!
# Candidate parameters

Every field of a declaration is a candidate parameter of its constructor. Analysis gives each one a
position, a name and a one-line type. A missing identifier or type becomes a bracketed text, which
no field of a well-formed declaration can have, so analysis never fails.

The main statements: there is one candidate per field, and the position of a candidate is its index.
-/

namespace Memberwise

/-- The type of a field whose type is missing or blank. -/
def unknownType : String := "[unknown]"

/-- The name of a named field whose identifier is missing or blank. -/
def unnamedField : String := "[unnamed]"

/-- A candidate parameter. -/
structure Candidate where
  /-- Index in declaration order. -/
  position : Nat
  /-- The field's name in a struct literal. -/
  accessor : String
  /-- The parameter's name. -/
  binding : String
  typeText : String
deriving DecidableEq, Repr

namespace Candidate

/-- The candidate as shown to whoever selects. -/
def label (candidate : Candidate) : String := candidate.binding ++ " : " ++ candidate.typeText

end Candidate

/-- How the fields of a struct are written. A struct without fields is a unit struct. -/
inductive Shape where
  | unit
  | tuple
  | named
deriving DecidableEq, Repr

namespace Shape

def text : Shape → String
  | unit => "unit"
  | tuple => "tuple"
  | named => "named"

end Shape

/-- A declaration with its candidates. -/
structure Analysis where
  name : String
  shape : Shape
  candidates : List Candidate
  generics : Option Generics
deriving DecidableEq, Repr

/-- The type on one line, or the text that stands for an unknown one. -/
def oneLineType (typeText : Option String) : String :=
  let collapsed := Text.collapse ((typeText.getD "").toList)
  if collapsed.isEmpty then unknownType else String.ofList collapsed

/-- The trimmed identifier, or the text that stands for a missing one. -/
def identifierOrUnnamed (ident : Option String) : String :=
  let trimmed := Text.trim ((ident.getD "").toList)
  if trimmed.isEmpty then unnamedField else String.ofList trimmed

namespace Field

/-- The candidate for a tuple field, which is named after its position. -/
def positionalCandidate (field : Field) (position : Nat) : Candidate :=
  let name := "field" ++ toString position
  ⟨position, name, name, oneLineType field.typeText⟩

def namedCandidate (field : Field) (position : Nat) : Candidate :=
  let name := identifierOrUnnamed field.ident
  ⟨position, name, name, oneLineType field.typeText⟩

end Field

namespace Body

def shape : Body → Shape
  | unit => .unit
  | tuple [] => .unit
  | tuple _ => .tuple
  | named [] => .unit
  | named _ => .named

def candidates : Body → List Candidate
  | unit => []
  | tuple fields => fields.mapIdx fun position field ↦ field.positionalCandidate position
  | named fields => fields.mapIdx fun position field ↦ field.namedCandidate position

@[simp] theorem length_candidates (body : Body) : body.candidates.length = body.fields.length := by
  cases body <;> simp [candidates, fields]

theorem position_getElem_candidates (body : Body) (i : Nat) (h : i < body.candidates.length) :
    body.candidates[i].position = i := by
  cases body with
  | unit => simp [candidates] at h
  | tuple fields => simp [candidates, Field.positionalCandidate]
  | named fields => simp [candidates, Field.namedCandidate]

end Body

namespace Declaration

def analysis (declaration : Declaration) : Analysis where
  name := declaration.name
  shape := declaration.body.shape
  candidates := declaration.body.candidates
  generics := declaration.generics

end Declaration

end Memberwise
