import Memberwise.Source.Lenient.GenericList
import Memberwise.Source.Lenient.StructTail

/-!
# Reading struct declarations

A struct declaration is read from the tokens behind the word `struct`: its name, its generic
parameters and what follows them. Of several words one is the name, and the others are passed over.
A repair is made only where it is cheaper than to pass over the declaration.
-/

namespace Memberwise.Source.Lenient

/-- A struct declaration that was read. -/
structure StructItem where
  node : Node
  /-- Behind this mark another declaration may begin, also one inside. -/
  inside : Mark
  repair : Repair
deriving Repr

namespace StructItem

/-- The name of a struct and what follows it. A semicolon may be missing behind the first word. -/
def splitName? (tokens : List Token) : Option (Token × List Token) :=
  let (stretch, back) :=
    Token.splitAtTop (fun token ↦ token.beginsTail || token.isSymbol "<") [] tokens
  match stretch with
  | [] => none
  | [only] => if only.isWord then some (only, back) else none
  | first :: second :: others =>
    let missesSemicolon :=
      back.isEmpty || !(second.isStray || second.isBrief others)
    if first.isWord && missesSemicolon then some (first, second :: others ++ back)
    else
      (NameReading.ofTokens? stretch).map fun reading ↦
        (reading.name, if back.isEmpty then reading.excess else back)

/-- The generic parameters between angle brackets and what follows them. A missing closing bracket
belongs before a semicolon, unless a broken comment stands there. The position is the one behind
the parameters. -/
def splitParameters? (last : Mark) (tokens : List Token) :
    Option (Option (List Token) × Mark × List Token) :=
  if tokens.head?.any (Token.isSymbol "<") then
    let (parameters, back) :=
      Token.splitAtTop (fun token ↦ token.isSymbol ">" || token.isSymbol ";") [] (tokens.drop 1)
    match back with
    | [] => none
    | close :: after =>
      if close.isSymbol ">" then some (some parameters, close.stop, after)
      else if parameters.isEmpty || parameters.getLast?.any Token.isBroken then
        some (none, close.start, back)
      else some (some parameters, close.start, back)
  else some (none, last, tokens)

/-- The declaration behind the word `struct`, for a declaration that starts at `start`. -/
def read? (start : Mark) (tokens : List Token) : Option StructItem := do
  let (name, rest) ← splitName? tokens
  let (parameters, last, after) ← splitParameters? name.stop rest
  let tail ← StructTail.read? last after
  let children :=
    inField "name" (name.leaf "type_identifier") ::
      (parameters.map (parametersNode name.stop last)).toList ++
      (clauseNode? tail.whereClause).toList ++ tail.body.toList
  some
    { node := branch "struct_item" start tail.stop children
      inside := tail.skipped.getD name.stop
      repair := tail.repair }

/-- Whether the repair of a declaration is cheaper than to pass over the declaration, or over the
whole text up to `finish` where the end of that is missing. `before` holds the tokens before the
word `struct` in backward order, and `behind` those from there on. -/
def isWorthRepair (finish : Mark) (before behind : List Token) (item : StructItem) : Bool :=
  match item.repair with
  | .none => true
  | .bracket comment =>
    let declared := behind.takeWhile fun token ↦ token.stop.offset ≤ comment.stop.offset
    let visibility := if declared.head?.map Token.start = some item.node.start then 0 else 1
    Token.skipPrice 1 [comment] + missingPrice <
      spanPrice (visibility + Level.piecesBefore declared.dropLast + 1) item.node.start comment.stop
  | .ending =>
    let all := before.reverse ++ behind
    let opened := (before.reverse.foldl Nesting.after []).countP (· ≠ '<')
    let blank := (all.head?.map Token.gap).getD [] |>.takeWhile Lexeme.isSpace
    missingPrice * (2 + opened) <
      spanPrice (Level.piecesBefore all.dropLast + 1) (Mark.start.advance blank) finish

/-- The declarations in the tokens of a text that ends at `finish`, an outer one before those inside
it. `before` holds the tokens read so far in backward order. The word `struct` is no keyword before
the offset `since`, and none before a colon. -/
def readAll (finish : Mark) (before : List Token) (since : Nat) : List Token → List StructItem
  | [] => []
  | token :: others =>
    let item? :=
      if token.isWordOf "struct" && since ≤ token.start.offset &&
          !Token.awaitsOperand before && !others.head?.any (Token.isSymbol ":") then
        (read? ((Token.visibilityStart? before).getD token.start) others).filter
          (isWorthRepair finish before (token :: others))
      else none
    match item? with
    | none => readAll finish (token :: before) since others
    | some item =>
      item :: readAll finish (token :: before) (max since item.inside.offset) others

end StructItem

end Memberwise.Source.Lenient
