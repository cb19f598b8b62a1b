import Memberwise.Constructor
import Memberwise.Insertion
import Memberwise.Source.Located

/-!
# Placing a constructor in its source

The `impl` block of a constructor goes after the declaration of its struct, indented like it.
-/

namespace Memberwise.Source.Located

/-- The block to insert for a declaration: the `impl` block with the declaration's indent. -/
def block (located : Located) (built : Constructor) : String :=
  Insertion.indentBlock built.implBlock located.indent

/-- The source text with the block inserted, if the declaration ends on a character boundary. -/
def insertion? (located : Located) (source : String) (built : Constructor) : Option Insertion :=
  (Insertion.point? source located.stop.offset).bind fun point ↦
    Insertion.splice? source point (located.block built)

end Memberwise.Source.Located
