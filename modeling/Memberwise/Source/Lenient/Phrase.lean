import Memberwise.Source.Least
import Memberwise.Source.Lenient.Price

/-!
# Phrases where a type is expected

Where one type is expected there may be more tokens than it has. They fall into phrases: types, and
tokens that no type has outside its brackets. One type is read and the rest is passed over. The type
is chosen that leaves the cheapest rest: the earliest of several.
-/

namespace Memberwise.Source.Lenient

namespace Token

/-- Whether a type can end with this token and need no more. -/
def endsType (token : Token) : Bool :=
  (token.isWord && !token.isReserved) || token.isSymbol ")" || token.isSymbol "]" ||
    token.isSymbol ">"

/-- Symbols that stand in types outside brackets, or are brackets. -/
def typeSymbols : List String :=
  ["(", ")", "[", "]", "<", ">", "\x7b", "\x7d", "&", "*", "+", "?", "!", "~", "#", "$", "->", "::"]

/-- Whether the token is broken, as code. -/
def isBroken (token : Token) : Bool := token.role = .code && token.kind = .broken

/-- Whether the token never stands in a type outside its brackets. -/
def standsApart (token : Token) : Bool :=
  token.isBroken ||
    (token.role = .code && token.kind = .symbol &&
      !(typeSymbols.any fun text ↦ token.text = text.toList))

/-- Reserved words that a type can begin with. -/
def typeWords : List String :=
  ["async", "const", "crate", "dyn", "extern", "fn", "for", "impl", "self", "super", "unsafe"]

/-- Whether a type can begin with this token. -/
def beginsType (token : Token) : Bool :=
  match token.kind with
  | .word => !token.isReserved || typeWords.any fun word ↦ token.isWordOf word
  | .symbol => ["(", "[", "<", "&", "*", "!", "?", "$", "::"].any fun text ↦ token.isSymbol text
  | .lifetime => false
  | .literal => false
  | .broken => false

/-- Whether a type can end with this token. -/
def closesType (token : Token) : Bool :=
  match token.kind with
  | .word => !token.isReserved || ["crate", "self", "super"].any fun word ↦ token.isWordOf word
  | .symbol =>
    token.role = .quoted ||
      [")", "]", ">", "!", "\x7d"].any fun text ↦ token.text = text.toList
  | .lifetime => true
  | .literal => token.role = .quoted
  | .broken => false

/-- Whether a phrase can be a type, by its ends. -/
def isType (phrase : List Token) : Bool :=
  phrase.head?.any beginsType && phrase.getLast?.any closesType

/-- Whether a token that follows the end of a type begins a phrase of its own. -/
def beginsPhrase (token : Token) : Bool :=
  token.isWord || token.isSymbol "[" || token.isSymbol "&" || token.isSymbol "*" ||
    token.kind = .literal

/-- Whether a phrase ends between two neighbours outside all brackets. The angle brackets of a
`for` bind names for the type behind them, so no phrase ends there. -/
def parts (binding : Bool) (left right : Token) : Bool :=
  left.standsApart || right.standsApart || (!binding && left.endsType && right.beginsPhrase)

/-- The first phrase from the token before on, and the tokens behind it. -/
def firstPhrase (binding : Bool) (nesting : Nesting) (last : Token) :
    List Token → List Token × List Token
  | [] => ([], [])
  | token :: others =>
    if nesting.isEmpty && parts binding last token then ([], token :: others)
    else
      let bindingNow :=
        if nesting.isEmpty && token.isWordOf "for" then true
        else if nesting.isEmpty && !token.isSymbol "<" then false
        else binding
      let (phrase, rest) := firstPhrase bindingNow (nesting.after token) token others
      (token :: phrase, rest)

theorem firstPhrase_append (binding : Bool) (nesting : Nesting) (last : Token)
    (tokens : List Token) :
    (firstPhrase binding nesting last tokens).1 ++ (firstPhrase binding nesting last tokens).2 =
      tokens := by
  induction tokens generalizing binding nesting last with
  | nil => rfl
  | cons token others ih =>
    rw [firstPhrase]
    split
    · rfl
    · simp [ih]

theorem length_firstPhrase_snd_le (binding : Bool) (nesting : Nesting) (last : Token)
    (tokens : List Token) :
    (firstPhrase binding nesting last tokens).2.length ≤ tokens.length := by
  have h := congrArg List.length (firstPhrase_append binding nesting last tokens)
  simp only [List.length_append] at h
  omega

/-- The phrases that tokens consist of. -/
def phrases : List Token → List (List Token)
  | [] => []
  | token :: others =>
    let cut := firstPhrase (token.isWordOf "for") (Nesting.after [] token) token others
    (token :: cut.1) :: phrases cut.2
termination_by tokens => tokens.length
decreasing_by
  have := length_firstPhrase_snd_le (token.isWordOf "for") (Nesting.after [] token) token others
  simp only [List.length_cons]
  omega

/-- The phrases lose no token. -/
theorem flatten_phrases (tokens : List Token) : (phrases tokens).flatten = tokens := by
  fun_induction phrases tokens with
  | case1 => rfl
  | case2 token others cut ih =>
    simp only [List.flatten_cons, ih, List.cons_append]
    rw [firstPhrase_append]

end Token

/-- A type that was read among other tokens. -/
structure Reading where
  type : List Token
  /-- The tokens behind the type, which are passed over. -/
  excess : List Token
  price : Nat
deriving DecidableEq, Repr

namespace Reading

/-- Each way to read one of the phrases as the type. `skipped` holds the tokens before them, which
count as `pieces`. A type that was read already is one piece, all else a piece a token. -/
def choices (skipped : List Token) (pieces : Nat) : List (List Token) → List Reading
  | [] => []
  | phrase :: others =>
    let excess := others.flatten
    let weight := if skipped.isEmpty && Token.isType phrase then 1 else Token.count phrase
    let later := choices (skipped ++ phrase) (pieces + weight) others
    if Token.isType phrase then
      ⟨phrase, excess,
        Token.skipPrice pieces skipped + Token.skipPrice (Token.count excess) excess⟩ :: later
    else later

/-- The type in tokens, if one of them begins a type. -/
def ofTokens? (tokens : List Token) : Option Reading :=
  leastBy? price (choices [] 0 (Token.phrases tokens))

end Reading

end Memberwise.Source.Lenient
