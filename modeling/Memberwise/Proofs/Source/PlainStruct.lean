import Memberwise.Declaration
import Memberwise.Source.SourceFile
import Memberwise.Source.Words

/-!
# Plain structs

A plain struct has a name, generic parameters and fields, and all its names and types are single
identifiers. It is printed in one way, as a source text; what the text declares is said beside it,
without reading it. An identifier that is malformed, or that is a keyword, cannot be built.
-/

namespace Memberwise.Source

/-! ## Names -/

/-- Words with a meaning of their own, anywhere or in some places only. -/
def keywords : List String :=
  reservedWords ++
    ["Self", "abstract", "auto", "await", "become", "box", "default", "do", "final", "gen", "macro",
      "macro_rules", "override", "priv", "raw", "safe", "try", "typeof", "union", "unsized",
      "virtual"]

/-- A word of ASCII letters, digits and underscores that begins with a letter and is no keyword. -/
structure Identifier where
  first : Char
  others : List Char
  isAlpha_first : first.isAlpha = true
  others_subset : ∀ c ∈ others, c.isAlphanum = true ∨ c = '_'
  not_keyword : String.ofList (first :: others) ∉ keywords
deriving DecidableEq, Repr

namespace Identifier

def text (identifier : Identifier) : String :=
  String.ofList (identifier.first :: identifier.others)

theorem toList_text (identifier : Identifier) :
    identifier.text.toList = identifier.first :: identifier.others := String.toList_ofList

end Identifier

/-- A name that a declaration gives, which is not the name of a primitive type. -/
structure GivenName extends Identifier where
  not_primitive : toIdentifier.text ∉ primitiveTypes
deriving DecidableEq, Repr

/-! ## Integers -/

inductive Radix where
  | decimal
  | hexadecimal
  | octal
  | binary
deriving DecidableEq, Repr

namespace Radix

/-- What an integer of this radix begins with. -/
def mark : Radix → List Char
  | decimal => []
  | hexadecimal => ['0', 'x']
  | octal => ['0', 'o']
  | binary => ['0', 'b']

def digits : Radix → List Char
  | decimal => "0123456789".toList
  | hexadecimal => "0123456789abcdefABCDEF".toList
  | octal => "01234567".toList
  | binary => "01".toList

end Radix

/-- Types that may be named behind the digits of an integer. -/
def integerTypes : List String :=
  ["u8", "i8", "u16", "i16", "u32", "i32", "u64", "i64", "u128", "i128", "isize", "usize"]

/-- An integer as it is written. -/
structure Integer where
  negative : Bool
  radix : Radix
  first : Char
  others : List Char
  type : Option String
  first_mem : first ∈ radix.digits
  others_subset : others ⊆ '_' :: radix.digits
  type_subset : ∀ name ∈ type, name ∈ integerTypes
deriving DecidableEq, Repr

namespace Integer

/-- The text behind the sign. -/
def literal (integer : Integer) : List Char :=
  integer.radix.mark ++ integer.first :: integer.others ++ (integer.type.getD "").toList

def text (integer : Integer) : String :=
  (if integer.negative then "-" else "") ++ String.ofList integer.literal

end Integer

/-! ## Structs -/

inductive PlainParameter where
  | lifetime (name : GivenName)
  | type (name : GivenName) (bound default : Option Identifier)
  | const (name : GivenName) (type : Identifier) (default : Option Integer)
deriving DecidableEq, Repr

structure PlainField where
  ident : Identifier
  type : Identifier
deriving DecidableEq, Repr

inductive PlainFields where
  | named (fields : List PlainField)
  | tuple (types : List Identifier)
deriving DecidableEq, Repr

structure PlainStruct where
  name : GivenName
  parameters : List PlainParameter
  fields : PlainFields
deriving DecidableEq, Repr

namespace PlainParameter

/-- The name as it is applied. -/
def name : PlainParameter → String
  | lifetime name => "'" ++ name.text
  | type name _ _ => name.text
  | const name _ _ => name.text

/-- The parameter with its bound, or with the type of a constant. -/
def declared : PlainParameter → String
  | lifetime name => "'" ++ name.text
  | type name none _ => name.text
  | type name (some bound) _ => name.text ++ ": " ++ bound.text
  | const name ascribed _ => "const " ++ name.text ++ ": " ++ ascribed.text

/-- The default, if there is one, with the sign before it. -/
def default : PlainParameter → String
  | lifetime _ => ""
  | type _ _ none => ""
  | type _ _ (some default) => " = " ++ default.text
  | const _ _ none => ""
  | const _ _ (some default) => " = " ++ default.text

def text (parameter : PlainParameter) : String := parameter.declared ++ parameter.default

end PlainParameter

def PlainField.text (field : PlainField) : String := field.ident.text ++ ": " ++ field.type.text

namespace PlainFields

def text : PlainFields → String
  | named fields =>
    " \x7b\n" ++ String.join (fields.map fun field ↦ "    " ++ field.text ++ ",\n") ++ "\x7d"
  | tuple types => "(" ++ ", ".intercalate (types.map Identifier.text) ++ ");"

/-- The fields that the text declares. -/
def body : PlainFields → Body
  | named fields => .named (fields.map fun field ↦ ⟨some field.ident.text, some field.type.text⟩)
  | tuple types => .tuple (types.map fun type ↦ ⟨none, some type.text⟩)

end PlainFields

namespace PlainStruct

/-- The declaration as it is printed. Without parameters there are no angle brackets. -/
def text (plain : PlainStruct) : String :=
  "struct " ++ plain.name.text ++
    (if plain.parameters.isEmpty then ""
      else angled (plain.parameters.map PlainParameter.text)) ++ plain.fields.text

/-- A source text that holds the declaration and nothing else. -/
def source (plain : PlainStruct) : String := plain.text ++ "\n"

def generics? (plain : PlainStruct) : Option Generics :=
  if plain.parameters.isEmpty then none
  else
    some
      { params := angled (plain.parameters.map PlainParameter.declared)
        args := angled (plain.parameters.map PlainParameter.name)
        whereClause := none }

/-- What the text declares. -/
def declaration (plain : PlainStruct) : Declaration :=
  ⟨plain.name.text, plain.generics?, plain.fields.body⟩

end PlainStruct

end Memberwise.Source
