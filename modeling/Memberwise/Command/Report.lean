import Memberwise.Command.Options
import Memberwise.Generation
import Memberwise.Json
import Memberwise.Selection.Prompt
import Memberwise.Source.Placement

/-!
# What the commands report

Results are reported as text or as JSON. The text for the candidates of a struct numbers them in the
same way as the prompt does.
-/

namespace Memberwise

namespace Candidate

def json (candidate : Candidate) : Json :=
  .object [("position", .number candidate.position), ("accessor_name", .string candidate.accessor),
    ("binding_name", .string candidate.binding), ("type_text", .string candidate.typeText)]

end Candidate

namespace Generics

def json (generics : Generics) : Json :=
  .object [("params", .string generics.params), ("args", .string generics.args),
    ("where_clause",
      match generics.whereClause with
      | none => .null
      | some clause => .string clause)]

end Generics

namespace Constructor

def json (built : Constructor) : Json :=
  .object [("struct_name", .string built.structName), ("shape", .string built.shape.text),
    ("parameters", .list (built.parameters.map Candidate.json)),
    ("function", .string built.function), ("impl_block", .string built.implBlock)]

end Constructor

namespace Command.Report

/-- The line that `--verbose` adds. -/
def foundLine (located : Source.Located) : String :=
  "Found struct " ++ located.declaration.name ++ " at line " ++ toString located.line ++ "\n"

/-! ## Candidates -/

def candidatesJson (file : String) (line : Nat) (analysis : Analysis) : Json :=
  .object
    ([("file", .string file), ("line", .number line), ("name", .string analysis.name),
        ("shape", .string analysis.shape.text),
        ("fields", .list (analysis.candidates.map Candidate.json))] ++
      match analysis.generics with
      | none => []
      | some generics => [("generics", generics.json)])

def candidatesHeader (file : String) (line : Nat) (analysis : Analysis) : String :=
  analysis.name ++ " (" ++ analysis.shape.text ++ ", " ++ toString analysis.candidates.length ++
    " field" ++ (if analysis.candidates.length = 1 then "" else "s") ++ ") " ++ file ++ ":" ++
    toString line ++ "\n"

/-- The line for a candidate, with its position counted from one. -/
def candidateLine (candidate : Candidate) : String :=
  String.ofList (Text.alignRight 3 (toString (candidate.position + 1)).toList) ++ ". " ++
    candidate.label ++ "\n"

def candidatesText (file : String) (line : Nat) (analysis : Analysis) : String :=
  candidatesHeader file line analysis ++ String.join (analysis.candidates.map candidateLine)

/-! ## Generations -/

def caretJson (caret : Text.Caret) : Json :=
  .object [("line", .number caret.line), ("column", .number caret.column)]

def generationJson (file : String) (stage : Stage) (built : Option Constructor)
    (caret : Option Text.Caret) : Json :=
  .object
    ([("file", .string file), ("stage", .string stage.tag)] ++
      (match built with
        | none => []
        | some built => [("constructor", built.json)]) ++
      match caret with
      | none => []
      | some caret => [("caret", caretJson caret)])

def cancelledLine (file : String) : String := "Cancelled; " ++ file ++ " left unchanged\n"

def insertedLine (file : String) (built : Constructor) (caret : Text.Caret) : String :=
  "Inserted constructor for " ++ built.structName ++ " at " ++ file ++ ":" ++
    toString caret.line ++ ":" ++ toString caret.column ++ "\n"

end Command.Report

end Memberwise
