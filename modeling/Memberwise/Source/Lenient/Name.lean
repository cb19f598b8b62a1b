import Memberwise.Source.Least
import Memberwise.Source.Lenient.Price
import Memberwise.Source.Lenient.Visibility

/-!
# Names among other tokens

Where one name is expected there may be more tokens. One is read as the name and the others are
passed over. The name is chosen that leaves the cheapest rest: the earliest of several.
-/

namespace Memberwise.Source.Lenient

/-- A name that was read among other tokens. -/
structure NameReading where
  name : Token
  /-- The tokens behind the name, which are passed over. -/
  excess : List Token
  price : Nat
deriving DecidableEq, Repr

namespace NameReading

/-- Each way to read one of the tokens as the name. `skipped` holds the tokens before them. The
first token may be any word, since no keyword is expected there. -/
def choices (skipped : List Token) : List Token → List NameReading
  | [] => []
  | token :: others =>
    let later := choices (skipped ++ [token]) others
    if token.isIdentifier || (skipped.isEmpty && token.isWord) then
      ⟨token, others,
        Token.skipPrice (Token.count skipped) skipped +
          Token.skipPrice (Token.count others) others⟩ :: later
    else later

/-- The name among tokens, if one of them can be a name. -/
def ofTokens? (tokens : List Token) : Option NameReading := leastBy? price (choices [] tokens)

end NameReading

end Memberwise.Source.Lenient
