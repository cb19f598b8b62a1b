/-!
# Block comments

Where a block comment ends is decided by the low eight bits of each code point: a character with
those of a slash opens and closes like a slash, and likewise for the asterisk and the exclamation
mark. Comments nest, but a slash behind a slash opens nothing. Behind the text of a comment a true
asterisk and slash have to follow; otherwise the comment is broken and ends with its text.
-/

namespace Memberwise.Source.Lenient.Comment

def isSlash (c : Char) : Bool := c.toNat % 256 == 47

def isAsterisk (c : Char) : Bool := c.toNat % 256 == 42

def isExclamation (c : Char) : Bool := c.toNat % 256 == 33

/-- What the character before may begin. -/
inductive Half where
  | nothing
  | opening
  | closing
deriving DecidableEq, Repr

namespace Half

def ofChar (c : Char) : Half :=
  if isAsterisk c then closing else if isSlash c then opening else nothing

end Half

/-- The end of the text of a comment as an offset in characters. `depth` comments are open besides
the outermost one, `offset` characters were read, and `mark` is the last place where the text could
end: before a character that begins a closing, or behind a slash. -/
def textEnd (half : Half) (depth offset : Nat) (mark : Option Nat) : List Char → Nat
  | [] => mark.getD offset
  | c :: rest =>
    let behind := if isSlash c then some (offset + 1) else mark
    match half with
    | .nothing =>
      let next := if isSlash c then some (offset + 1) else some offset
      textEnd (.ofChar c) depth (offset + 1) next rest
    | .opening =>
      textEnd .nothing (if isAsterisk c then depth + 1 else depth) (offset + 1) behind rest
    | .closing =>
      if isAsterisk c then textEnd .closing depth (offset + 1) (some offset) rest
      else if isSlash c then
        match depth with
        | 0 => mark.getD (offset + 1)
        | outer + 1 => textEnd .nothing outer (offset + 1) behind rest
      else textEnd .nothing depth (offset + 1) mark rest

/-- The length of the text of a comment that has no mark of documentation before it. -/
def plainLength : List Char → Nat
  | [] => 0
  | c :: rest =>
    if isAsterisk c && rest.head? = some '/' then 0 else textEnd (.ofChar c) 0 1 none rest

/-- The length of what follows the opening of a comment up to its closing: a mark of documentation
and a text. -/
def length : List Char → Nat
  | [] => 0
  | c :: rest =>
    if isExclamation c then 1 + plainLength rest
    else if isAsterisk c then
      match rest with
      | '/' :: _ => 0
      | '*' :: _ => textEnd .closing 0 1 (some 1) rest
      | _ => 1 + plainLength rest
    else textEnd (.ofChar c) 0 1 none rest

/-- Whether a text behind the opening of a comment begins with a whole comment. -/
def isWhole (text : List Char) : Bool := ['*', '/'].isPrefixOf (text.drop (length text))

end Memberwise.Source.Lenient.Comment
