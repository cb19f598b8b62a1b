import Memberwise.Source.Lenient.StructItem
import Memberwise.Source.SourceFile

/-!
# A lenient parser

A parser that makes a tree of every text: its struct declarations, one behind the other, below a
root that spans the text. Nothing else of the text is in the tree.
-/

namespace Memberwise.Source

namespace Lenient

/-- The tree of a text. -/
def root (text : String) : Node :=
  let finish := Mark.start.advance text.toList
  let tokens := Token.breakUnclosed (Token.ofSource text.toList)
  branch "source_file" .start finish
    ((StructItem.readAll finish [] 0 tokens).map StructItem.node)

end Lenient

def Parser.lenient : Parser where
  refusal := none
  root? text := some (Lenient.root text)

/-- A text as the lenient parser reads it. -/
def SourceFile.lenient (text : String) : SourceFile := ⟨text, Lenient.root text⟩

/-- The structs that the lenient parser finds in a text. -/
def Located.all (text : String) : List Located := (SourceFile.lenient text).structs?.getD []

/-- The struct that is picked of those that the lenient parser finds. -/
def Locator.locate (text : String) (locator : Locator) : Except LocateError Located :=
  locator.pick text (Located.all text)

end Memberwise.Source
