import Memberwise.Source.Lenient.Role

/-!
# Brackets around a token

Angle brackets are brackets only where they pair up: in an expression they compare, so a closing
bracket of another kind also closes every angle bracket that was opened inside it.
-/

namespace Memberwise.Source.Lenient

/-- The brackets that are open, the innermost first. -/
abbrev Nesting := List Char

namespace Nesting

/-- The open brackets after a token. Attributes and macro arguments count as closed. -/
def after (nesting : Nesting) (token : Token) : Nesting :=
  if token.role = .code && token.kind = .symbol then
    match token.text with
    | ['('] => '(' :: nesting
    | ['['] => '[' :: nesting
    | ['\x7b'] => '\x7b' :: nesting
    | ['<'] => '<' :: nesting
    | ['>'] =>
      match nesting with
      | '<' :: outer => outer
      | _ => nesting
    | [')'] => (nesting.dropWhile (· == '<')).drop 1
    | [']'] => (nesting.dropWhile (· == '<')).drop 1
    | ['\x7d'] => (nesting.dropWhile (· == '<')).drop 1
    | _ => nesting
  else nesting

end Nesting

namespace Token

/-- The tokens before the first one outside all brackets at which `stops` holds, and the others. -/
def splitAtTop (stops : Token → Bool) : Nesting → List Token → List Token × List Token
  | _, [] => ([], [])
  | nesting, token :: others =>
    if nesting.isEmpty && stops token then ([], token :: others)
    else
      let (front, back) := splitAtTop stops (nesting.after token) others
      (token :: front, back)

theorem splitAtTop_append (stops : Token → Bool) (nesting : Nesting) (tokens : List Token) :
    (splitAtTop stops nesting tokens).1 ++ (splitAtTop stops nesting tokens).2 = tokens := by
  induction tokens generalizing nesting with
  | nil => rfl
  | cons token others ih =>
    rw [splitAtTop]
    split
    · rfl
    · simp [ih]

theorem splitAtTop_snd_suffix (stops : Token → Bool) (nesting : Nesting) (tokens : List Token) :
    (splitAtTop stops nesting tokens).2 <:+ tokens :=
  ⟨_, splitAtTop_append stops nesting tokens⟩

/-- The groups of tokens between commas outside all brackets, empty groups included. -/
def commaGroups : Nesting → List Token → List (List Token)
  | _, [] => [[]]
  | nesting, token :: others =>
    if nesting.isEmpty && token.isSymbol "," then [] :: commaGroups [] others
    else
      match commaGroups (nesting.after token) others with
      | [] => [[token]]
      | group :: groups => (token :: group) :: groups

/-- The groups of tokens between commas outside all brackets, each one with the comma behind it. -/
def commaEndedGroups : Nesting → List Token → List (List Token)
  | _, [] => [[]]
  | nesting, token :: others =>
    if nesting.isEmpty && token.isSymbol "," then [token] :: commaEndedGroups [] others
    else
      match commaEndedGroups (nesting.after token) others with
      | [] => [[token]]
      | group :: groups => (token :: group) :: groups

/-- A group without the comma behind it. -/
def dropComma (group : List Token) : List Token :=
  if group.getLast?.any (isSymbol ",") then group.dropLast else group

end Token

end Memberwise.Source.Lenient
