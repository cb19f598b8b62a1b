import Memberwise.Source.Lenient.Branch
import Memberwise.Source.Lenient.Name
import Memberwise.Source.Lenient.Phrase

/-!
# Lists of fields

The fields of a struct are read from the groups of tokens between the commas of its body. Reading is
lenient: of too many tokens the cheapest to pass over are passed over, and what is passed over
before or behind a named field is kept as an error. Before a field it may hold commas.
-/

namespace Memberwise.Source.Lenient

/-- A node in the field for types. -/
def typeNode? (tokens : List Token) : Option Node :=
  (Token.branch? "_type" tokens []).map (inField "type")

/-- The types of a tuple struct, from the groups of tokens between the commas. -/
def tupleFields (groups : List (List Token)) : List Node :=
  groups.filterMap fun group ↦
    (Reading.ofTokens? (Token.bareField group)).bind fun reading ↦ typeNode? reading.type

/-- Whether tokens begin with an identifier and a colon. -/
def startsField : List Token → Bool
  | name :: colon :: _ => name.isWord && colon.isSymbol ":"
  | _ => false

/-- The error that misplaced tokens are, with the first identifier in it. -/
def misplaced? (tokens : List Token) : Option Node :=
  Token.branch? "ERROR" tokens
    ((tokens.find? Token.isIdentifier).toList.map (Token.leaf "identifier"))

/-- A field with its name, and with its type if that is there. -/
def fieldNode (name : Token) (type? : Option Node) : Node :=
  branch "field_declaration" name.start name.stop
    (inField "name" (name.leaf "field_identifier") :: type?.toList)

/-- The tokens before an attribute or a visibility, and the tokens from there on. -/
def splitBeforeMarked (tokens : List Token) : List Token × List Token :=
  Token.splitAtTop (fun token ↦ token.role = .attribute || token.isWordOf "pub") [] tokens

/-- The fields in tokens that have no comma, and the identifier at their end if its type is missing.
Where another field is marked by an attribute or a visibility, the one before it is cut off and
loses its type. -/
def readNamedGroup (group : List Token) : List Node × Option Token :=
  match _hbare : Token.bareField group with
  | name :: colon :: rest =>
    if !startsField (name :: colon :: rest) then
      ((misplaced? (Token.dropAttributes group)).toList, none)
    else
      let parted := splitBeforeMarked rest
      if !parted.2.isEmpty then
        let (fields, pending) := readNamedGroup parted.2
        (fieldNode name none :: fields, pending)
      else if parted.1.isEmpty then ([], some name)
      else
        match Reading.ofTokens? parted.1 with
        | none => ([fieldNode name none], none)
        | some reading =>
          (fieldNode name (typeNode? reading.type) :: (misplaced? reading.excess).toList, none)
  | _ => ((misplaced? (Token.dropAttributes group)).toList, none)
termination_by group.length
decreasing_by
  have hback : (splitBeforeMarked rest).2.length ≤ rest.length :=
    (Token.splitAtTop_snd_suffix _ _ _).length_le
  have hrest := (Token.bareField_suffix group).length_le
  simp only [_hbare, List.length_cons] at hrest
  show (splitBeforeMarked rest).2.length < group.length
  omega

/-- The tokens before the first place outside all brackets where a field begins, and the tokens from
there on. -/
def splitBeforeField : Nesting → List Token → List Token × List Token
  | _, [] => ([], [])
  | nesting, token :: others =>
    if nesting.isEmpty && startsField (Token.bareField (token :: others)) then ([], token :: others)
    else
      let (front, back) := splitBeforeField (nesting.after token) others
      (token :: front, back)

/-- Tokens that have a colon, with only one name of those before it. -/
def joinField? (group : List Token) : Option (List Token) :=
  let (stretch, back) := Token.splitAtTop (Token.isSymbol ":") [] (Token.bareField group)
  if back.isEmpty then none
  else
    (NameReading.ofTokens? stretch).map fun reading ↦ reading.name :: back

/-- The misplaced tokens before a field that are kept as a field: none if a visibility is before
them, because that belongs to the field. -/
def keptMisplaced (misplaced : List Token) : List Token :=
  let visible := Token.dropAttributes misplaced
  let bare := Token.dropVisibility visible
  if bare.length < visible.length && !bare.isEmpty then [] else misplaced

/-- A field behind misplaced tokens. An identifier at their beginning may be its name, if it is
cheaper to pass over what is between that and the colon. -/
def readBehind (misplaced group : List Token) : List Node × Option Token :=
  let between := misplaced.drop 1 ++ group.take 1
  match misplaced, group with
  | first :: _, _ :: colon :: rest =>
    if first.isIdentifier && colon.isSymbol ":" &&
        Token.skipPrice (Token.count between) between <
          Token.skipPrice (Token.count misplaced) misplaced then
      readNamedGroup (first :: colon :: rest)
    else
      let (fields, pending) := readNamedGroup group
      ((misplaced? (keptMisplaced misplaced)).toList ++ fields, pending)
  | _, _ => readNamedGroup group

/-- The named fields, from the groups of tokens with the commas behind them. `misplaced` holds the
tokens before the first group that are no field. `pending` is an identifier whose type is missing
before a comma: the type is taken from behind it, unless another field begins there. -/
def namedFields (misplaced : List Token) (pending : Option Token) :
    List (List Token) → List Node
  | [] => (pending.map fun name ↦ fieldNode name none).toList ++ (misplaced? misplaced).toList
  | group :: groups =>
    let own := Token.dropComma group
    match pending with
    | some name =>
      let tokens := Token.bareField own
      if tokens.isEmpty then fieldNode name none :: namedFields [] none groups
      else if startsField tokens then
        let (fields, next) := readNamedGroup own
        fieldNode name none :: fields ++ namedFields [] next groups
      else fieldNode name (typeNode? own) :: namedFields [] none groups
    | none =>
      let (front, field) := splitBeforeField [] (misplaced ++ own)
      if field.isEmpty then
        match joinField? own with
        | none => namedFields (misplaced ++ group) none groups
        | some joined =>
          let (fields, next) := readNamedGroup joined
          (misplaced? misplaced).toList ++ fields ++ namedFields [] next groups
      else
        let (fields, next) := readBehind front field
        fields ++ namedFields [] next groups

end Memberwise.Source.Lenient
