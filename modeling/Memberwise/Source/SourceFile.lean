import Memberwise.Source.Located
import Memberwise.Source.Node

/-!
# Source files

A source file is a text with its syntax tree. Every struct declaration of the tree is read into a
`Located`: malformed fields lose their identifier or their type, but not their place in the list.

Nodes are read by cutting the text at their offsets. A cut that does not fall on character
boundaries of the text, or that ends before it starts, has no answer, and then nothing has: `none`
in this module says that the text could not be cut.
-/

namespace Memberwise.Source

/-- The words of a text, joined by single spaces. -/
def collapseWhitespace (text : String) : String := String.ofList (Text.collapse text.toList)

/-- A text without blanks around it, the colons before it and the commas behind it. -/
def stripPunctuation (text : List Char) : List Char :=
  let opened := (Text.trim text).dropWhile (· == ':')
  Text.trim (opened.reverse.dropWhile (· == ',')).reverse

/-- Texts between angle brackets, with commas between them. -/
def angled (texts : List String) : String := "<" ++ ", ".intercalate texts ++ ">"

/-- A text with its syntax tree. -/
structure SourceFile where
  text : String
  root : Node

namespace SourceFile

/-- Parse a text. -/
def parse (parser : Parser) (text : String) : Except LocateError SourceFile :=
  match parser.refusal with
  | some reason => .error (.unparsable reason)
  | none =>
    match parser.root? text with
    | none => .error (.unparsable "parser produced no syntax tree")
    | some root => .ok ⟨text, root⟩

/-! ## Texts of nodes -/

/-- The text between two marks. -/
def between? (source : SourceFile) (start stop : Mark) : Option String :=
  (Text.slice? start.offset stop.offset source.text.toList).map String.ofList

def nodeText? (source : SourceFile) (node : Node) : Option String :=
  source.between? node.start node.stop

/-- The blanks at the beginning of the line that a mark lies on, as far as the mark. -/
def indentAt? (source : SourceFile) (mark : Mark) : Option String :=
  (Text.splitAt? mark.offset source.text.toList).map fun cut ↦
    String.ofList ((Text.lastLine cut.1).takeWhile Text.isBlank)

/-! ## Fields -/

/-- The text of a type; it is left out if it is missing or blank. -/
def typeText? (source : SourceFile) (type? : Option Node) : Option (Option String) :=
  match type?.filter fun type ↦ !type.isMissing with
  | none => some none
  | some type =>
    (source.nodeText? type).map fun text ↦
      if (Text.trim text.toList).isEmpty then none else some text

/-- The text of an identifier; it is left out if it is missing. -/
def identText? (source : SourceFile) (ident? : Option Node) : Option (Option String) :=
  match ident?.filter fun ident ↦ !ident.isMissing with
  | none => some none
  | some ident => (source.nodeText? ident).map some

/-- The field that a type in parentheses stands for. -/
def tupleField? (source : SourceFile) (type : Node) : Option Field :=
  (source.typeText? (some type)).map fun typeText ↦ ⟨none, typeText⟩

def tupleFields? (source : SourceFile) (body : Node) : Option (List Field) :=
  (body.childrenByField "type").mapM source.tupleField?

/-- The field that an error is kept as: the first identifier in it, or else its text, unless that is
mere punctuation. -/
def misplacedField? (source : SourceFile) (error : Node) : Option (Option Field) :=
  match error.firstDescendant? ["field_identifier", "identifier"] with
  | some ident => (source.nodeText? ident).map fun text ↦ some ⟨some text, none⟩
  | none =>
    (source.nodeText? error).map fun text ↦
      let stripped := stripPunctuation text.toList
      if stripped.isEmpty then none else some ⟨none, some (String.ofList stripped)⟩

/-- The field that a child of a list in braces stands for. -/
def namedField? (source : SourceFile) (child : Node) : Option (Option Field) :=
  match child.kind with
  | "field_declaration" =>
    (source.identText? (child.childByField? "name")).bind fun ident ↦
      (source.typeText? (child.childByField? "type")).map fun typeText ↦ some ⟨ident, typeText⟩
  | "ERROR" => source.misplacedField? child
  | _ => some none

def namedFields? (source : SourceFile) (body : Node) : Option (List Field) :=
  (body.namedChildren.mapM source.namedField?).map (List.filterMap id)

def body? (source : SourceFile) (node : Node) : Option Body :=
  match node.childByField? "body" with
  | none => some .unit
  | some body =>
    if body.kind = "ordered_field_declaration_list" then (source.tupleFields? body).map .tuple
    else (source.namedFields? body).map .named

/-! ## Generic parameters -/

/-- A parameter as an `impl` header needs it: its text on one line, with any default cut off. -/
def withoutDefault? (source : SourceFile) (parameter : Node) : Option String :=
  let sign? := parameter.children.find? fun child ↦ child.kind = "="
  (source.between? parameter.start ((sign?.map Node.start).getD parameter.stop)).map
    collapseWhitespace

/-- A parameter without its default, and its name. What names nothing is left out. -/
def parameter? (source : SourceFile) (parameter : Node) : Option (Option (String × String)) :=
  match parameter.argument? with
  | none => some none
  | some name =>
    (source.withoutDefault? parameter).bind fun declared ↦
      (source.nodeText? name).map fun argument ↦ some (declared, argument)

def whereClause? (source : SourceFile) (node : Node) : Option (Option String) :=
  match node.namedChildren.find? fun child ↦ child.kind = "where_clause" with
  | none => some none
  | some clause => (source.nodeText? clause).map fun text ↦ some (collapseWhitespace text)

def generics? (source : SourceFile) (node : Node) : Option (Option Generics) :=
  match node.childByField? "type_parameters" with
  | none => some none
  | some list =>
    (list.namedChildren.mapM source.parameter?).bind fun parameters ↦
      (source.whereClause? node).map fun whereClause ↦
        some
          { params := angled ((parameters.filterMap id).map Prod.fst)
            args := angled ((parameters.filterMap id).map Prod.snd)
            whereClause }

/-! ## Structs -/

/-- The name of a struct; a struct without one is left out. -/
def name? (source : SourceFile) (node : Node) : Option (Option String) :=
  (source.identText? (node.childByField? "name")).map fun name ↦
    name.filter fun text ↦ !text.isEmpty

def snapshot? (source : SourceFile) (node : Node) : Option (Option Located) :=
  (source.name? node).bind fun
    | none => some none
    | some name =>
      (source.body? node).bind fun body ↦
        (source.generics? node).bind fun generics ↦
          (source.indentAt? node.start).map fun indent ↦
            some ⟨⟨name, generics, body⟩, node.start, node.stop, indent⟩

/-- The structs of a source file that have a name, in the order of the tree. -/
def structs? (source : SourceFile) : Option (List Located) :=
  (source.root.structItems.mapM source.snapshot?).map (List.filterMap id)

def locate? (source : SourceFile) (locator : Locator) : Option (Except LocateError Located) :=
  source.structs?.map fun structs ↦ locator.pick source.text structs

end SourceFile

end Memberwise.Source
