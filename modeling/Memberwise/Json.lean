import Memberwise.Text.Numeral

/-!
# JSON documents

Documents are written with one entry per line, two spaces deeper than what encloses it. An empty
list or object stays on one line. The members of an object keep their order.
-/

namespace Memberwise

inductive Json where
  | null
  | number (value : Nat)
  | string (text : String)
  | list (items : List Json)
  | object (members : List (String × Json))

namespace Json

def hexDigit (n : Nat) : Char := if n < 10 then Char.ofNat (48 + n) else Char.ofNat (87 + n)

/-- A character as it stands in a string. -/
def escape (c : Char) : List Char :=
  if c = '\x22' then ['\\', '\x22']
  else if c = '\\' then ['\\', '\\']
  else if c = '\x08' then ['\\', 'b']
  else if c = '\x0c' then ['\\', 'f']
  else if c = '\n' then ['\\', 'n']
  else if c = '\r' then ['\\', 'r']
  else if c = '\t' then ['\\', 't']
  else if c.toNat < 32 then
    ['\\', 'u', '0', '0', hexDigit (c.toNat / 16), hexDigit (c.toNat % 16)]
  else [c]

/-- A text between quotation marks. -/
def quoted (text : String) : String :=
  String.ofList (['\x22'] ++ text.toList.flatMap escape ++ ['\x22'])

/-- The beginning of a line at a depth. -/
def newLine (depth : Nat) : String :=
  String.ofList ('\n' :: List.replicate (2 * depth) ' ')

/-- Entries between brackets, each on its own line. -/
def enclose (opening closing : String) (depth : Nat) (entries : List String) : String :=
  if entries.isEmpty then opening ++ closing
  else
    opening ++ newLine (depth + 1) ++ ("," ++ newLine (depth + 1)).intercalate entries ++
      newLine depth ++ closing

mutual

/-- A document at a depth. -/
def render (depth : Nat) : Json → String
  | null => "null"
  | number value => toString value
  | string text => quoted text
  | list items => enclose "[" "]" depth (renderItems (depth + 1) items)
  | object members => enclose "\x7b" "\x7d" depth (renderMembers (depth + 1) members)

def renderItems (depth : Nat) : List Json → List String
  | [] => []
  | item :: items => render depth item :: renderItems depth items

def renderMembers (depth : Nat) : List (String × Json) → List String
  | [] => []
  | (key, value) :: members =>
    (quoted key ++ ": " ++ render depth value) :: renderMembers depth members

end

/-- A document as a text. -/
def text (document : Json) : String := document.render 0

end Json

end Memberwise
