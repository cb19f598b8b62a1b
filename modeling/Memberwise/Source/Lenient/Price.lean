import Memberwise.Source.Lenient.Nesting

/-!
# The price of misplaced tokens

A malformed source text is read so that as little as possible is passed over or assumed to be
missing. Passing over a stretch has a price by its pieces, bytes and line breaks; a missing token
has a price of its own. A piece is a token, or what was read as one thing: a finished item, a field
or a pair of brackets with all that is between.
-/

namespace Memberwise.Source.Lenient

/-- The price of a token that is missing. -/
def missingPrice : Nat := 610

/-- The price of passing over `pieces` that are `bytes` long, with `breaks` line breaks. -/
def stretchPrice (pieces bytes breaks : Nat) : Nat := 500 + 100 * pieces + bytes + 30 * breaks

/-- The price of what lies between two marks. -/
def spanPrice (pieces : Nat) (start stop : Mark) : Nat :=
  stretchPrice pieces (stop.offset - start.offset) (stop.point.row - start.point.row)

namespace Token

/-- Whether the token is a character that no source has outside comments and literals. -/
def isForeign (token : Token) : Bool :=
  token.kind = .symbol && token.text.any fun c ↦ 127 < c.toNat

/-- The number of tokens, without foreign characters. -/
def count (tokens : List Token) : Nat := tokens.countP fun token ↦ !token.isForeign

/-- The price of passing over tokens that count as `pieces`. -/
def skipPrice (pieces : Nat) (tokens : List Token) : Nat :=
  let text := verbatim tokens
  if tokens.isEmpty then 0 else stretchPrice pieces (Text.byteSize text) (Text.lineFeeds text)

@[simp] theorem skipPrice_nil (pieces : Nat) : skipPrice pieces [] = 0 := rfl

end Token

/-- What was read inside one bracket: the pieces of finished parts, and those of the part that is
not finished. -/
structure Level where
  opening : Char
  finished : Nat
  unfinished : Nat
deriving DecidableEq, Repr

namespace Level

/-- A finished part counts as one piece. -/
def finish (level : Level) : Level := { level with finished := level.finished + 1, unfinished := 0 }

/-- A part before a comma counts as one piece, and the comma as another. -/
def separate (level : Level) : Level :=
  { level with
    finished := level.finished + (if level.unfinished = 0 then 1 else 2)
    unfinished := 0 }

def add (level : Level) : Level := { level with unfinished := level.unfinished + 1 }

/-- Apply `change` to the innermost level. -/
def onInnermost (change : Level → Level) : List Level → List Level
  | [] => []
  | level :: outer => change level :: outer

/-- The levels outside a bracket that is closed, and outside all angle brackets in it. -/
def close (levels : List Level) : List Level :=
  let outer := (levels.dropWhile fun level ↦ level.opening = '<').drop 1
  if outer.isEmpty then levels.drop (levels.length - 1) else outer

/-- The levels after one more token. -/
def after (levels : List Level) (token : Token) : List Level :=
  if token.role = .quoted then levels
  else if token.role = .attribute then
    if token.text = ['#'] then onInnermost add levels else levels
  else if token.kind ≠ .symbol then onInnermost add levels
  else
    match token.text with
    | ['('] => ⟨'(', 0, 0⟩ :: onInnermost add levels
    | ['['] => ⟨'[', 0, 0⟩ :: onInnermost add levels
    | ['<'] => ⟨'<', 0, 0⟩ :: onInnermost add levels
    | ['\x7b'] => ⟨'\x7b', 0, 0⟩ :: onInnermost add levels
    | ['>'] =>
      match levels with
      | ⟨'<', _, _⟩ :: outer => outer
      | _ => levels
    | [')'] => close levels
    | [']'] => close levels
    | ['\x7d'] => onInnermost finish (close levels)
    | [';'] => onInnermost finish levels
    | [','] => onInnermost separate levels
    | _ => onInnermost add levels

/-- The levels after tokens, the outermost one last. -/
def afterAll (tokens : List Token) : List Level := tokens.foldl after [⟨' ', 0, 0⟩]

/-- The pieces that the tokens on all levels amount to. -/
def pieces (levels : List Level) : Nat :=
  levels.foldr (fun level others ↦ level.finished + level.unfinished + others) 0

/-- The pieces before a closing bracket: the last part on the innermost level is finished. -/
def closedPieces : List Level → Nat
  | [] => 0
  | level :: outer => level.finished + min 1 level.unfinished + pieces outer

/-- The pieces that tokens before a broken comment amount to. What the last token closes is not yet
read as one thing. -/
def piecesBefore (tokens : List Token) : Nat :=
  match tokens.getLast? with
  | none => 0
  | some last =>
    if [")", "]", ">", "\x7d"].any fun text ↦ last.isSymbol text then
      closedPieces (afterAll tokens.dropLast) + 1
    else if last.isSymbol ";" then pieces (afterAll tokens.dropLast) + 1
    else pieces (afterAll tokens)

end Level

end Memberwise.Source.Lenient
