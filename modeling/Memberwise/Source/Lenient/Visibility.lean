import Memberwise.Source.Lenient.Role

/-!
# Identifiers, attributes and visibilities

What stands before the name or the type of a field: attributes and a visibility. Dropping them
leaves a suffix of the tokens.
-/

namespace Memberwise.Source.Lenient

namespace Token

/-- A word that is neither reserved nor the name of a primitive type. -/
def isIdentifier (token : Token) : Bool :=
  token.isWord && !token.isReserved && !(primitiveTypes.any fun name ↦ token.text = name.toList)

def dropAttributes (tokens : List Token) : List Token :=
  tokens.dropWhile fun token ↦ token.role = .attribute

/-- The tokens behind a restriction in parentheses, such as `(crate)` or `(in a::b)`. -/
def dropRestriction : List Token → List Token
  | paren :: first :: others =>
    if !paren.isSymbol "(" then paren :: first :: others
    else if first.isWordOf "in" then
      (others.dropWhile fun token ↦ !token.isSymbol ")").drop 1
    else
      match others with
      | close :: rest =>
        if close.isSymbol ")" &&
            (first.isWordOf "crate" || first.isWordOf "self" || first.isWordOf "super") then rest
        else paren :: first :: others
      | [] => paren :: first :: others
  | tokens => tokens

/-- The tokens behind a visibility, if there is one. -/
def dropVisibility : List Token → List Token
  | first :: others =>
    if first.isWordOf "pub" then dropRestriction others
    else if first.isWordOf "crate" && !(others.head?.any (isSymbol "::")) then others
    else first :: others
  | [] => []

/-- The tokens of a field behind its attributes and its visibility. -/
def bareField (tokens : List Token) : List Token := dropVisibility (dropAttributes tokens)

theorem dropRestriction_suffix (tokens : List Token) : dropRestriction tokens <:+ tokens := by
  unfold dropRestriction
  split
  · rename_i paren first others
    have hothers : others <:+ paren :: first :: others :=
      (List.suffix_cons first others).trans (List.suffix_cons paren _)
    split
    · exact List.suffix_refl _
    · split
      · exact ((List.drop_suffix 1 _).trans (List.dropWhile_suffix _)).trans hothers
      · split
        · rename_i close rest
          split
          · exact (List.suffix_cons close rest).trans hothers
          · exact List.suffix_refl _
        · exact List.suffix_refl _
  · exact List.suffix_refl _

theorem dropVisibility_suffix (tokens : List Token) : dropVisibility tokens <:+ tokens := by
  unfold dropVisibility
  split
  · rename_i first others
    split
    · exact (dropRestriction_suffix others).trans (List.suffix_cons first others)
    · split
      · exact List.suffix_cons first others
      · exact List.suffix_refl _
  · exact List.suffix_refl _

/-- What comes before the bare field is dropped, and nothing else. -/
theorem bareField_suffix (tokens : List Token) : bareField tokens <:+ tokens :=
  (dropVisibility_suffix _).trans (List.dropWhile_suffix _)

/-- The end of the last token, or `mark` if there is none. -/
def stopOr (mark : Mark) (tokens : List Token) : Mark :=
  match tokens.getLast? with
  | none => mark
  | some last => last.stop

end Token

end Memberwise.Source.Lenient
