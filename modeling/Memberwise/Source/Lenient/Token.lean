import Memberwise.Source.Lenient.Comment
import Memberwise.Source.Mark
import Memberwise.Text.Letter

/-!
# Tokens of a source text

A source text is a sequence of tokens with gaps before them: blanks and comments. A token carries
its gap, so a run of tokens gives back the text it stands for. The brackets and commas in it can
then be read without regard to comments and literals.

A block comment that is broken is a token too, and so is a quotation mark that nothing closes: what
is behind them is code. Only three symbols of more than one character are tokens, `->`, `::` and a
stray `*/`, because their characters mean something else when alone.
-/

namespace Memberwise.Source.Lenient

inductive TokenKind where
  | word
  | lifetime
  | literal
  | symbol
  /-- A block comment that does not end where its text ends, or a symbol that it takes away. -/
  | broken
deriving DecidableEq, Repr

/-- What a token belongs to. -/
inductive TokenRole where
  | code
  | attribute
  /-- The argument of a macro, whose tokens need not follow any grammar. -/
  | quoted
deriving DecidableEq, Repr

structure Token where
  /-- Blanks and comments before the token. -/
  gap : List Char
  kind : TokenKind
  role : TokenRole
  text : List Char
  start : Mark
  stop : Mark
deriving DecidableEq, Repr

namespace Token

/-- Whether the token is this symbol, as code. -/
def isSymbol (text : String) (token : Token) : Bool :=
  token.role = .code && token.kind = .symbol && token.text = text.toList

/-- Whether the token is a word, as code. -/
def isWord (token : Token) : Bool := token.role = .code && token.kind = .word

/-- Whether the token is this word, as code. -/
def isWordOf (text : String) (token : Token) : Bool := token.isWord && token.text = text.toList

/-- The source text of consecutive tokens, without the gap before the first one. -/
def verbatim : List Token → List Char
  | [] => []
  | token :: others => token.text ++ others.flatMap fun other ↦ other.gap ++ other.text

end Token

/-! ## The first lexeme of a text -/

namespace Lexeme

/-- Blank characters and the byte order mark separate tokens. -/
def isSpace (c : Char) : Bool := Text.isBlank c || c == '\uFEFF'

/-- The number of characters up to the end of a string whose opening quote was read, if it ends. -/
def stringLength? : List Char → Option Nat
  | [] => none
  | '\x22' :: _ => some 1
  | '\\' :: _ :: rest => (stringLength? rest).map (2 + ·)
  | _ :: rest => (stringLength? rest).map (1 + ·)

/-- The number of characters up to the end of the last escape. -/
def escapedLength : List Char → Nat
  | [] => 0
  | '\\' :: _ :: rest => 2 + escapedLength rest
  | _ :: rest =>
    match escapedLength rest with
    | 0 => 0
    | length => 1 + length

/-- What follows the opening quote of a string. One that does not end goes as far as its last
escape. -/
def afterDoubleQuote (rest : List Char) : TokenKind × Nat :=
  match stringLength? rest with
  | some length => (.literal, length)
  | none => (.symbol, escapedLength rest)

/-- As `stringLength?`, for a string that ends with a quote and `hashes` hash signs. -/
def rawStringLength? (hashes : Nat) : List Char → Option Nat
  | [] => none
  | c :: rest =>
    if c = '\x22' && (List.replicate hashes '#').isPrefixOf rest then some (1 + hashes)
    else (rawStringLength? hashes rest).map (1 + ·)

/-- What follows a single quote: a character literal, a lifetime or nothing. -/
def afterQuote : List Char → TokenKind × Nat
  | '\\' :: _ :: rest => (.literal, (rest.takeWhile (· ≠ '\x27')).length + 3)
  | c :: '\x27' :: _ => if c = '\x27' then (.symbol, 0) else (.literal, 2)
  | 'r' :: '#' :: c :: rest =>
    if Text.isLetter c then (.lifetime, 3 + (rest.takeWhile Text.isLetterOrMark).length)
    else (.lifetime, 1)
  | c :: rest =>
    if Text.isLetter c then (.lifetime, 1 + (rest.takeWhile Text.isLetterOrMark).length)
    else (.symbol, 0)
  | [] => (.symbol, 0)

/-- A word and what follows it: the word may be the mark before a literal, or before a word that
would otherwise be reserved. Gives the number of characters after the word. -/
def afterWord (word rest : List Char) : TokenKind × Nat :=
  let hashes := (rest.takeWhile (· == '#')).length
  if (word = ['r'] || word = ['b', 'r'] || word = ['c', 'r']) &&
      (rest.drop hashes).head? = some '\x22' then
    match rawStringLength? hashes (rest.drop (hashes + 1)) with
    | some length => (.literal, hashes + 1 + length)
    | none => (.symbol, hashes + 1)
  else
    match rest with
    | '\x22' :: more =>
      if word = ['b'] || word = ['c'] then
        let (kind, length) := afterDoubleQuote more
        (kind, 1 + length)
      else (.word, 0)
    | '\x27' :: more => if word = ['b'] then (.literal, 1 + (afterQuote more).2) else (.word, 0)
    | '#' :: c :: more =>
      if word = ['r'] && Text.isLetter c then
        (.word, 2 + (more.takeWhile Text.isLetterOrMark).length)
      else (.word, 0)
    | _ => (.word, 0)

/-- The kind of the lexeme that starts with `c`, none for a gap, and its number of characters in
`rest`. -/
def scan (c : Char) (rest : List Char) : Option TokenKind × Nat :=
  if isSpace c then (none, (rest.takeWhile isSpace).length)
  else if Text.isLetter c then
    let more := rest.takeWhile Text.isLetterOrMark
    let (kind, extra) := afterWord (c :: more) (rest.drop more.length)
    (some kind, more.length + extra)
  else if c.isDigit then (some .literal, (rest.takeWhile Text.isLetterOrMark).length)
  else
    match c, rest with
    | '/', '/' :: more => (none, 1 + (more.takeWhile (· ≠ '\n')).length)
    | '/', '*' :: more =>
      if Comment.isWhole more then (none, 1 + Comment.length more + 2)
      else (some .broken, 1 + Comment.length more)
    | '\x22', _ => let (kind, length) := afterDoubleQuote rest; (some kind, length)
    | '\x27', _ => let (kind, extra) := afterQuote rest; (some kind, extra)
    | '-', '>' :: _ => (some .symbol, 1)
    | ':', ':' :: _ => (some .symbol, 1)
    | '*', '/' :: more =>
      (some .symbol, if more.head? = some '*' || more.head? = some '/' then 0 else 1)
    | _, _ => (some .symbol, 0)

/-- The number of characters of a first line that names an interpreter. It ends with a line feed,
and no square bracket follows its mark. -/
def interpreterLineLength : List Char → Nat
  | '#' :: '!' :: rest =>
    if rest.head? = some '[' || !rest.contains '\n' then 0
    else 2 + (rest.takeWhile (· ≠ '\n')).length
  | _ => 0

end Lexeme

/-! ## All tokens of a text -/

namespace Token

/-- The tokens of a text that lies behind `gap`, which ends at `mark`. Every lexeme has a first
character, so as many rounds as there are characters are enough. -/
def readFrom : Nat → Mark → List Char → List Char → List Token
  | 0, _, _, _ => []
  | _ + 1, _, _, [] => []
  | rounds + 1, mark, gap, c :: rest =>
    let (kind, length) := Lexeme.scan c rest
    let text := c :: rest.take length
    let stop := mark.advance text
    match kind with
    | none => readFrom rounds stop (gap ++ text) (rest.drop length)
    | some kind =>
      ⟨gap, kind, .code, text, mark, stop⟩ :: readFrom rounds stop [] (rest.drop length)

/-- All tokens of a source text, as code. -/
def readAll (source : List Char) : List Token :=
  let length := Lexeme.interpreterLineLength source
  let gap := source.take length
  readFrom source.length (Mark.start.advance gap) gap (source.drop length)

end Token

end Memberwise.Source.Lenient
