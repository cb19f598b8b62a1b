import Memberwise.Command.Execution
import Memberwise.Proofs.Analysis.NormalForm
import Memberwise.Proofs.Command.Column
import Memberwise.Proofs.Command.Display
import Memberwise.Proofs.Command.DryRun
import Memberwise.Proofs.Command.Effect
import Memberwise.Proofs.Command.Failure
import Memberwise.Proofs.Constructor.ByPosition
import Memberwise.Proofs.Constructor.Distinction
import Memberwise.Proofs.FileMap.PlainPath
import Memberwise.Proofs.FileMap.Sharing
import Memberwise.Proofs.Generation.Agreement
import Memberwise.Proofs.Generation.Naming
import Memberwise.Proofs.Generation.Numbering
import Memberwise.Proofs.Insertion.Caret
import Memberwise.Proofs.Insertion.CaretOrder
import Memberwise.Proofs.Insertion.Commutation
import Memberwise.Proofs.Insertion.Indentation
import Memberwise.Proofs.Insertion.Ownership
import Memberwise.Proofs.Selection.AnswerList
import Memberwise.Proofs.Selection.ByName
import Memberwise.Proofs.Selection.Dialogue
import Memberwise.Proofs.Selection.Limit
import Memberwise.Proofs.Selection.Naming
import Memberwise.Proofs.Selection.Script
import Memberwise.Proofs.Source.Cursor
import Memberwise.Proofs.Source.CursorChoice
import Memberwise.Proofs.Source.OneLine
import Memberwise.Proofs.Source.PlainTree
