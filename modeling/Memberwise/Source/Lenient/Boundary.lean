import Memberwise.Source.Lenient.Phrase
import Memberwise.Source.Lenient.Visibility

/-!
# Boundaries of declarations

Where the keyword of a declaration stands and where a declaration ends, told by the tokens around.
A reserved word behind an operator is no keyword, because an operand is read there. A declaration
whose end is missing ends where an item begins. Misplaced tokens in it are passed over, and so is a
broken comment, which takes away what it hides.
-/

namespace Memberwise.Source.Lenient.Token

/-! ## Beginnings -/

/-- Operators that have an operand on each side. -/
def isOperator (token : Token) : Bool :=
  ["/", "%", "^", "|", "+", "-", "*", "&", "=", "."].any fun text ↦ token.isSymbol text

/-- Operators that an expression can begin with. -/
def isLeadingOperator (token : Token) : Bool :=
  ["*", "&", "-", "!"].any fun text ↦ token.isSymbol text

/-- Whether an operand can end with this token. -/
def endsOperand (token : Token) : Bool :=
  (token.isWord && !token.isReserved) || token.kind = .literal || token.role = .quoted ||
    token.isSymbol ")" || token.isSymbol "]"

/-- Whether a statement begins behind this token. -/
def endsStatement (token : Token) : Bool :=
  token.isSymbol ";" || token.isSymbol "\x7b" || token.isSymbol "\x7d"

/-- The tokens before the last open brace, when `depth` braces are closed behind it, given the
tokens before in backward order. -/
def beforeOpenBrace (depth : Nat) : List Token → List Token
  | [] => []
  | token :: earlier =>
    if token.isSymbol "\x7d" then beforeOpenBrace (depth + 1) earlier
    else if token.isSymbol "\x7b" then
      match depth with
      | 0 => earlier
      | outer + 1 => beforeOpenBrace outer earlier
    else beforeOpenBrace depth earlier

/-- Whether the innermost open brace holds items only, given the tokens before in backward order. -/
def isAmongItems (before : List Token) : Bool :=
  let header := (beforeOpenBrace 0 before).takeWhile fun token ↦ !token.endsStatement
  (header.any fun token ↦
      ["mod", "impl", "trait", "extern"].any fun word ↦ token.isWordOf word) &&
    !header.any (isWordOf "fn")

/-- Whether an operand follows the tokens before, which are in backward order. -/
def awaitsOperand : List Token → Bool
  | [] => false
  | last :: earlier =>
    ((last.isOperator && earlier.head?.any endsOperand) ||
      (last.isLeadingOperator && earlier.head?.all endsStatement)) &&
    !isAmongItems earlier

/-- Where a visibility starts that ends with the token before, given the tokens before in backward
order. -/
def visibilityStart? : List Token → Option Mark
  | [] => none
  | last :: earlier =>
    if last.isWordOf "pub" || last.isWordOf "crate" then
      if awaitsOperand earlier then none else some last.start
    else if last.isSymbol ")" then
      match earlier.dropWhile fun token ↦ !token.isSymbol "(" with
      | _ :: keyword :: front =>
        if keyword.isWordOf "pub" && !awaitsOperand front then some keyword.start else none
      | _ => none
    else none

/-! ## Ends -/

/-- Words that begin an item and stand nowhere in the type before it. -/
def itemWords : List String :=
  ["enum", "fn", "let", "mod", "static", "struct", "trait", "type", "use"]

def isItemWord (token : Token) : Bool := itemWords.any fun word ↦ token.isWordOf word

/-- Whether an item begins behind a type that ends with `last`. A function type has no name behind
its first word. -/
def beginsItem (last : Token) (tokens : List Token) : Bool :=
  last.endsType &&
    match dropAttributes tokens with
    | [] => false
    | token :: others =>
      !(token.isWordOf "fn" && others.head?.any (isSymbol "(")) &&
        (token.isItemWord || (token.isWordOf "pub" && others.head?.any isItemWord))

/-- The tokens behind `last` up to one outside all brackets at which `stops` holds, or to an item,
and the tokens from there on. -/
def splitBeforeItem (stops : Token → Bool) (last : Token) (nesting : Nesting) :
    List Token → List Token × List Token
  | [] => ([], [])
  | token :: others =>
    if nesting.isEmpty && (stops token || beginsItem last (token :: others)) then
      ([], token :: others)
    else
      let (front, back) := splitBeforeItem stops token (nesting.after token) others
      (token :: front, back)

theorem splitBeforeItem_append (stops : Token → Bool) (last : Token) (nesting : Nesting)
    (tokens : List Token) :
    (splitBeforeItem stops last nesting tokens).1 ++
      (splitBeforeItem stops last nesting tokens).2 = tokens := by
  induction tokens generalizing last nesting with
  | nil => rfl
  | cons token others ih =>
    rw [splitBeforeItem]
    split
    · rfl
    · simp [ih]

/-- Whether a body may begin with this token, or the declaration may end with it. -/
def beginsTail (token : Token) : Bool :=
  token.isSymbol ";" || token.isSymbol "(" || token.isSymbol "\x7b" || token.isWordOf "where"

/-! ## Misplaced tokens -/

/-- Whether no statement begins with this token, so that it is not what follows a declaration. -/
def isStray (token : Token) : Bool :=
  token.isBroken ||
    ["=", ":", ",", ")", "]", ">", "+", ".", "@", "?"].any fun text ↦ token.isSymbol text

/-- Whether tokens could be a statement, but are cheaper to pass over than the semicolon that would
be missing before them. -/
def isBrief (token : Token) (others : List Token) : Bool :=
  (token.isIdentifier || token.kind = .literal) &&
    skipPrice (1 + others.length) (token :: others) < missingPrice

/-- The misplaced tokens before one at which `stops` holds, and the tokens from there on. -/
def splitStray (stops : Token → Bool) (tokens : List Token) : List Token × List Token :=
  match tokens with
  | first :: second :: others =>
    if first.isStray then
      match splitAtTop stops [] tokens with
      | (_, []) => ([], tokens)
      | cut => cut
    else if first.isBrief [] && stops second then ([first], second :: others)
    else ([], tokens)
  | _ => ([], tokens)

/-! ## Broken comments -/

/-- Tokens without a broken comment at their end, and that comment. -/
def splitBrokenEnd (tokens : List Token) : List Token × Option Token :=
  match tokens.getLast? with
  | some last => if last.isBroken then (tokens.dropLast, some last) else (tokens, none)
  | none => (tokens, none)

/-- The tokens behind a broken comment, which goes as far as a stray closing mark, or to the end. -/
def behindBroken (tokens : List Token) : List Token :=
  (tokens.dropWhile fun token ↦ !token.isSymbol "*/").drop 1

/-- The tokens without a broken comment at their beginning and one at their end. -/
def trimBroken (tokens : List Token) : List Token :=
  let opened :=
    match tokens with
    | first :: others => if first.isBroken then behindBroken others else tokens
    | [] => []
  let (front, back) := opened.span fun token ↦ !token.isBroken
  if (behindBroken back).isEmpty then front else opened

/-- The brackets that are open behind one more token, the innermost first. -/
def openedBy (opened : List Token) (token : Token) : List Token :=
  let nesting := Nesting.after (opened.filterMap fun bracket ↦ bracket.text.head?) token
  if opened.length < nesting.length then token :: opened
  else opened.drop (opened.length - nesting.length)

/-- The tokens of a text, where a closing brace behind a broken comment at the end closes the last
opening brace: the symbols from the first other open bracket on are broken. -/
def breakUnclosed (tokens : List Token) : List Token :=
  match tokens.reverse with
  | brace :: comment :: earlier =>
    if brace.isSymbol "\x7d" && comment.isBroken then
      let opened := earlier.reverse.foldl openedBy []
      match (opened.takeWhile fun bracket ↦ !bracket.isSymbol "\x7b").getLast? with
      | none => tokens
      | some bracket =>
        let (front, back) := earlier.reverse.span (· ≠ bracket)
        let broken := back.map fun token ↦
          if token.kind = .symbol then { token with kind := .broken } else token
        front ++ broken ++ [comment, brace]
    else tokens
  | _ => tokens

end Memberwise.Source.Lenient.Token
