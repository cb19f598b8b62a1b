import Memberwise.Command.Arguments
import Memberwise.Command.Report
import Memberwise.FileMap
import Memberwise.Source.SourceFile
import Memberwise.Text.Control

/-!
# Running a command

A command reads its target, finds the struct and reports. Only `generate` changes a file, and only
as the last thing that can fail: everything up to there is a draft, which says what would be
inserted. What is printed goes to no terminal, so it has neither colour nor control characters.

A program is given what it does not do itself: how command lines are parsed, how source texts are
parsed, and how temporary files are called.
-/

namespace Memberwise.Command

/-- What a program is built with. -/
structure Program where
  arguments : ArgumentParser
  parser : Source.Parser
  naming : FileMap.Naming

/-- Why a command failed. -/
inductive RunError where
  | file (cause : FileError)
  | locate (cause : Source.LocateError)
  | selection (cause : SelectionError)
  | generation (cause : GenerationError)
  /-- The text was to be cut at an offset that is no character boundary. -/
  | offBoundary
deriving DecidableEq, Repr

namespace RunError

def message : RunError → String
  | file cause => cause.message
  | locate cause => cause.message
  | selection cause => cause.message
  | generation cause => cause.message
  | offBoundary => "offset is no character boundary"

end RunError

/-- What a command has printed. -/
structure Printed where
  output : String
  errors : String
deriving DecidableEq, Repr

namespace Printed

def nothing : Printed := ⟨"", ""⟩

def onOutput (text : String) : Printed := ⟨Text.withoutControl text, ""⟩

def onErrors (text : String) : Printed := ⟨"", Text.withoutControl text⟩

instance : Append Printed where
  append first second := ⟨first.output ++ second.output, first.errors ++ second.errors⟩

/-- The line that `--verbose` adds when the struct was found. -/
def found (verbose : Bool) (located : Source.Located) : Printed :=
  if verbose then onErrors (Report.foundLine located) else nothing

/-- A JSON document on a line of its own. -/
def document (json : Json) : Printed := onOutput (json.text ++ "\n")

end Printed

/-- The outcome of a command. -/
structure Outcome where
  result : Except RunError Unit
  printed : Printed
  files : FileMap

namespace Program

variable (program : Program)

/-! ## Finding the struct -/

/-- The text of a file with its syntax tree. -/
def readSource (path : String) (files : FileMap) : Except FileError Source.SourceFile :=
  match files.readText? path with
  | none => .error (.unreadable path)
  | some text =>
    match Source.SourceFile.parse program.parser text with
    | .error cause => .error (.unparsable path cause.message)
    | .ok source => .ok source

/-- The struct of a target, and the text it is in. -/
def findStruct (target : Target) (files : FileMap) :
    Except RunError (String × Source.Located) :=
  match program.readSource target.file files with
  | .error cause => .error (.file cause)
  | .ok source =>
    match source.locate? target.locator with
    | none => .error .offBoundary
    | some (.error cause) => .error (.locate cause)
    | some (.ok located) => .ok (source.text, located)

end Program

/-! ## Listing candidates -/

def reportFields (options : FieldsOptions) (located : Source.Located) : Printed :=
  let analysis := located.declaration.analysis
  if options.display.asJson then
    .document (Report.candidatesJson options.target.file located.line analysis)
  else .onOutput (Report.candidatesText options.target.file located.line analysis)

def Program.runFields (program : Program) (options : FieldsOptions) (verbose : Bool)
    (files : FileMap) : Outcome :=
  match program.findStruct options.target files with
  | .error cause => ⟨.error cause, .nothing, files⟩
  | .ok (_, located) => ⟨.ok (), .found verbose located ++ reportFields options located, files⟩

/-! ## Generating a constructor -/

/-- What a generation comes to before any file is changed. -/
inductive Draft where
  | cancelled
  /-- A constructor that is only shown. -/
  | shown (built : Constructor)
  /-- A constructor to insert. `generation` is the generation after emission. -/
  | insert (generation : Generation) (built : Constructor) (insertion : Insertion)

/-- The draft for a generation whose selection was made. -/
def draftOf (options : GenerateOptions) (text : String) (located : Source.Located)
    (generation : Generation) : Except RunError Draft :=
  if generation.stage = .cancelled then .ok .cancelled
  else
    match generation.emit with
    | (.error cause, _) => .error (.generation cause)
    | (.ok built, emitted) =>
      if options.dryRun then .ok (.shown built)
      else
        match located.insertion? text built with
        | none => .error .offBoundary
        | some insertion => .ok (.insert emitted built insertion)

/-- Select with a script. A script that was not asked is an error, unless there was nothing to ask
about. -/
def selectByScript (script : Script) (generation : Generation) : Except RunError Generation :=
  match generation.select Scripted.present (.start script) with
  | (.error cause, _, _) => .error (.generation cause)
  | (.ok _, next, state) =>
    if next.analysis.candidates.isEmpty then .ok next
    else
      match state.finish with
      | .error cause => .error (.selection cause)
      | .ok () => .ok next

/-- Select at the prompt, with an input. -/
def selectAtPrompt (input : List UInt8) (generation : Generation) :
    Except RunError Generation × Printed :=
  let prompt := Prompt.start generation.analysis.name false none input
  match generation.select Prompt.present prompt with
  | (result, next, after) =>
    let printed := Printed.onErrors ((Prompt.decode? after.screen.shown).getD "")
    match result with
    | .error cause => (.error (.generation cause), printed)
    | .ok _ => (.ok next, printed)

/-- Select as the options say, or at the prompt. -/
def selectFor (options : GenerateOptions) (input : List UInt8) (generation : Generation) :
    Except RunError Generation × Printed :=
  match options.script with
  | some script => (selectByScript script generation, .nothing)
  | none => selectAtPrompt input generation

def reportCancelled (options : GenerateOptions) : Printed :=
  let file := options.target.file
  if options.display.asJson then .document (Report.generationJson file .cancelled none none)
  else .onErrors (Report.cancelledLine file)

def reportShown (options : GenerateOptions) (located : Source.Located) (built : Constructor) :
    Printed :=
  if options.display.asJson then
    .document (Report.generationJson options.target.file .emitted (some built) none)
  else .onOutput (located.block built ++ "\n")

def reportInserted (options : GenerateOptions) (stage : Stage) (built : Constructor)
    (caret : Text.Caret) : Printed :=
  let file := options.target.file
  if options.display.asJson then
    .document (Report.generationJson file stage (some built) (some caret))
  else .onOutput (Report.insertedLine file built caret)

/-- The end of a generation whose constructor was inserted. -/
def concludeInsertion (options : GenerateOptions) (generation : Generation) (built : Constructor)
    (insertion : Insertion) : Except RunError Unit × Printed :=
  match generation.markInserted with
  | (.error cause, _) => (.error (.generation cause), .nothing)
  | (.ok (), finished) =>
    (.ok (), reportInserted options finished.stage built insertion.caret)

namespace Program

variable (program : Program)

/-- Carry out a draft. -/
def carryOut (options : GenerateOptions) (text : String) (located : Source.Located)
    (files : FileMap) : Draft → Outcome
  | .cancelled => ⟨.ok (), reportCancelled options, files⟩
  | .shown built => ⟨.ok (), reportShown options located built, files⟩
  | .insert generation built insertion =>
    match files.applyBy program.naming options.target.file text insertion with
    | (.error cause, after) => ⟨.error (.file cause), .nothing, after⟩
    | (.ok (), after) =>
      let (result, printed) := concludeInsertion options generation built insertion
      ⟨result, printed, after⟩

def runGenerate (options : GenerateOptions) (verbose : Bool) (files : FileMap)
    (input : List UInt8) : Outcome :=
  match program.findStruct options.target files with
  | .error cause => ⟨.error cause, .nothing, files⟩
  | .ok (text, located) =>
    let found := Printed.found verbose located
    match selectFor options input (Generation.start located.declaration) with
    | (.error cause, asked) => ⟨.error cause, found ++ asked, files⟩
    | (.ok generation, asked) =>
      match draftOf options text located generation with
      | .error cause => ⟨.error cause, found ++ asked, files⟩
      | .ok draft =>
        let outcome := program.carryOut options text located files draft
        { outcome with printed := found ++ asked ++ outcome.printed }

/-! ## Commands -/

/-- Run a command on files, with an input. -/
def run (invocation : Invocation) (files : FileMap) (input : List UInt8) : Outcome :=
  match invocation.action with
  | .fields options => program.runFields options invocation.verbose files
  | .generate options => program.runGenerate options invocation.verbose files input

end Program

end Memberwise.Command
