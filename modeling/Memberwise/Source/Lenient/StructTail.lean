import Memberwise.Source.Lenient.Boundary
import Memberwise.Source.Lenient.FieldList

/-!
# What follows the name of a struct

A struct ends with a semicolon, or with a list of fields in parentheses or braces. Reading is
lenient: a closing bracket or a final semicolon may be missing, and a stretch of misplaced tokens
may stand before the list. A broken comment may hide the end of the declaration.
-/

namespace Memberwise.Source.Lenient

/-- A repair that is not always worth its price. -/
inductive Repair where
  | none
  /-- The comment is passed over, and a closing bracket is missing behind it. -/
  | bracket (comment : Token)
  /-- The end of a comment is missing at the end of the text, and the end of the declaration. -/
  | ending
deriving DecidableEq, Repr

/-- What follows the name and the generic parameters of a struct. -/
structure StructTail where
  body : Option Node
  whereClause : List Token := []
  stop : Mark
  /-- The end of what was passed over as misplaced. -/
  skipped : Option Mark := none
  repair : Repair := .none
deriving Repr

namespace StructTail

/-! ## Lists in parentheses -/

/-- The list of fields behind an opening parenthesis. -/
def tupleBody (paren : Token) (tokens : List Token) : Node :=
  inField "body"
    (branch "ordered_field_declaration_list" paren.start (Token.stopOr paren.stop tokens)
      (tupleFields (Token.commaGroups [] tokens)))

/-- Behind the closing parenthesis of a list of fields. -/
def afterTuple (body : Option Node) (paren : Token) (tokens : List Token) : StructTail :=
  let (clause, back) :=
    if tokens.head?.any (Token.isWordOf "where") then
      Token.splitBeforeItem (Token.isSymbol ";") paren [] tokens
    else ([], (Token.splitStray (Token.isSymbol ";") tokens).2)
  match back with
  | [] =>
    match Token.splitBrokenEnd clause with
    | (shown, some comment) =>
      { body, whereClause := shown, stop := comment.stop, repair := .ending }
    | (_, none) => { body, whereClause := clause, stop := Token.stopOr paren.stop clause }
  | last :: others =>
    if last.isSymbol ";" then { body, whereClause := clause, stop := last.stop }
    else if last.isBroken && others.isEmpty then { body, stop := last.stop, repair := .ending }
    else { body, whereClause := clause, stop := Token.stopOr paren.stop clause }

/-- A list of fields whose closing parenthesis is missing. It ends before a semicolon; if a broken
comment stands there that is not behind a type, the opening parenthesis was misplaced too. -/
def unclosedTuple? (opening : Token) (tokens : List Token) : Option StructTail :=
  let (listed, rest) := Token.splitAtTop (Token.isSymbol ";") [] tokens
  rest.head?.map fun last ↦
    let (shown, comment) := Token.splitBrokenEnd listed
    let body := some (tupleBody opening shown)
    match comment with
    | none => { body, stop := last.stop }
    | some comment =>
      if shown.getLast?.any Token.closesType then
        { body, stop := last.stop, repair := .bracket comment }
      else { body := none, stop := last.stop }

/-- Behind the opening parenthesis. -/
def tuple? (opening : Token) (tokens : List Token) : Option StructTail :=
  let (inner, back) :=
    Token.splitAtTop (fun token ↦ token.isSymbol ")" || token.isWordOf "struct") [] tokens
  match back with
  | [] => unclosedTuple? opening inner
  | paren :: behind =>
    if paren.isSymbol ")" then some (afterTuple (tupleBody opening inner) paren behind)
    else unclosedTuple? opening inner

/-! ## Lists in braces -/

/-- The list of fields behind an opening brace. -/
def namedBody (brace : Token) (tokens : List Token) : Node :=
  inField "body"
    (branch "field_declaration_list" brace.start (Token.stopOr brace.stop tokens)
      (namedFields [] none (Token.commaEndedGroups [] tokens)))

/-- Whether a group of tokens is a field with its type. -/
def isTypedField (group : List Token) : Bool :=
  let tokens := Token.bareField group
  startsField tokens && 2 < tokens.length

/-- A list of fields whose closing brace is missing. It ends before a semicolon, or with the text.
If its last field is incomplete there, the opening brace was misplaced, and the struct has no
fields. -/
def unclosedNamed? (clause : List Token) (brace : Token) (tokens : List Token) :
    Option StructTail :=
  let (listed, rest) := Token.splitAtTop (Token.isSymbol ";") [] tokens
  let (shown, comment) := Token.splitBrokenEnd listed
  let named : StructTail :=
    { body := namedBody brace shown
      whereClause := clause
      stop := Token.stopOr brace.stop listed }
  let lastGroup := (Token.commaGroups [] shown).getLast?.getD []
  let complete := lastGroup.isEmpty || isTypedField lastGroup
  match rest, comment with
  | [], none => if complete then some named else none
  | [], some _ => if complete then some { named with repair := .ending } else none
  | last :: _, none =>
    some (if complete then named
      else { body := none, stop := last.stop, skipped := some last.stop })
  | last :: _, some comment =>
    some (if isTypedField lastGroup then { named with repair := .bracket comment }
      else { body := none, stop := last.stop })

/-- Behind the opening brace. A closing one may be missing before an item. -/
def named? (clause : List Token) (brace : Token) (tokens : List Token) : Option StructTail :=
  let (inner, back) := Token.splitBeforeItem (Token.isSymbol "\x7d") brace [] tokens
  match back with
  | [] => unclosedNamed? clause brace inner
  | close :: _ =>
    some
      { body := namedBody brace inner
        whereClause := clause
        stop := if close.isSymbol "\x7d" then close.stop else Token.stopOr brace.stop inner }

/-! ## All tails -/

/-- Behind the name and the generic parameters, which end at `last`, when nothing is misplaced. A
unit struct has no `where` clause, so one before a semicolon is passed over. -/
def readPlain? (last : Mark) : List Token → Option StructTail
  | [] => some { body := none, stop := last }
  | first :: others =>
    if first.isSymbol ";" then some { body := none, stop := first.stop }
    else if first.isSymbol "(" then tuple? first others
    else if first.isSymbol "\x7b" then named? [] first others
    else if first.isWordOf "where" then
      let (clause, back) :=
        Token.splitAtTop (fun token ↦ token.isSymbol "\x7b" || token.isSymbol ";") []
          (first :: others)
      match back with
      | [] =>
        if clause.getLast?.any Token.isBroken then none else some { body := none, stop := last }
      | next :: inner =>
        if next.isSymbol ";" then some { body := none, stop := next.stop }
        else named? clause next inner
    else if first.isBroken && others.isEmpty then
      some { body := none, stop := first.stop, repair := .ending }
    else if first.isStray || (first.isIdentifier && others.isEmpty) then none
    else some { body := none, stop := last }

/-- Behind the name and the generic parameters, which end at `last`. -/
def read? (last : Mark) (tokens : List Token) : Option StructTail :=
  let (misplaced, back) := Token.splitStray Token.beginsTail tokens
  (readPlain? last back).map fun tail ↦
    { tail with
      skipped := tail.skipped.or (misplaced.getLast?.map Token.stop) }

end StructTail

end Memberwise.Source.Lenient
