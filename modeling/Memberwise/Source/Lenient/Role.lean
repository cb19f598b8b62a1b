import Memberwise.Source.Lenient.Token
import Memberwise.Source.Words

/-!
# Attributes and macro arguments

The tokens of an attribute and the argument of a macro follow no grammar, so nothing in them is a
declaration. One pass over the tokens marks them. It keeps only a count of unclosed brackets, and
outside brackets only what the last tokens could begin.
-/

namespace Memberwise.Source.Lenient

namespace Token

def isReserved (token : Token) : Bool :=
  token.kind = .word && reservedWords.any fun word ↦ token.text = word.toList

def isOpening (token : Token) : Bool :=
  token.isSymbol "(" || token.isSymbol "[" || token.isSymbol "\x7b"

def isClosing (token : Token) : Bool :=
  token.isSymbol ")" || token.isSymbol "]" || token.isSymbol "\x7d"

end Token

/-- Where the pass over the tokens is. -/
inductive Region where
  | code
  /-- After a word that may be the name of a macro, or that begins a macro's definition. -/
  | macroName (definition : Bool)
  /-- After the exclamation mark behind such a word. -/
  | macroMark (definition : Bool)
  /-- After the sign that begins an attribute. -/
  | attributeMark
  /-- Inside an attribute or an argument, with `depth` more brackets to close than the last. -/
  | inside (role : TokenRole) (depth : Nat)
deriving DecidableEq, Repr

namespace Region

/-- The region after a token of code. -/
def afterCode (token : Token) : Region :=
  if token.isSymbol "#" then attributeMark
  else if token.isWord && !token.isReserved then macroName (token.isWordOf "macro_rules")
  else code

/-- The role of a token and the region after it. -/
def step (region : Region) (token : Token) : TokenRole × Region :=
  match region with
  | inside role depth =>
    (role,
      if token.isOpening then inside role (depth + 1)
      else if token.isClosing then (if depth = 0 then code else inside role (depth - 1))
      else inside role depth)
  | attributeMark =>
    if token.isSymbol "[" then (.attribute, inside .attribute 0)
    else if token.isSymbol "!" then (.attribute, attributeMark)
    else (.code, afterCode token)
  | macroMark definition =>
    if token.isOpening then (.quoted, inside .quoted 0)
    else if definition && token.isWord then (.code, macroMark false)
    else (.code, afterCode token)
  | macroName definition =>
    if token.isSymbol "!" then (.code, macroMark definition) else (.code, afterCode token)
  | code => (if token.isSymbol "#" then .attribute else .code, afterCode token)

end Region

namespace Token

/-- The tokens with their roles. -/
def withRoles : Region → List Token → List Token
  | _, [] => []
  | region, token :: others =>
    let (role, next) := region.step token
    { token with role } :: withRoles next others

/-- The tokens of a source text with their roles. -/
def ofSource (source : List Char) : List Token := withRoles .code (readAll source)

end Token

end Memberwise.Source.Lenient
