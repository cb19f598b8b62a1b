import Memberwise.Command.Reader
import Memberwise.Command.Run
import Memberwise.Source.Lenient.Parser

/-!
# Executing a command line

A command line is parsed and the command it says is run. One that is refused, or asks for help, runs
nothing. What the parser of command lines then prints is not looked at.
-/

namespace Memberwise.Command

/-- Why a command line came to nothing. -/
inductive Failure where
  | arguments (cause : ArgumentError)
  | run (cause : RunError)
deriving DecidableEq, Repr

/-- What comes of a command line. -/
structure Ending where
  result : Except Failure Unit
  printed : Printed
  files : FileMap

namespace Program

/-- Execute a command line on files, with an input. -/
def execute (program : Program) (words : List String) (environment : Environment)
    (files : FileMap) (input : List UInt8) : Ending :=
  match program.arguments words environment with
  | .error cause => ⟨.error (.arguments cause), .nothing, files⟩
  | .ok invocation =>
    let outcome := program.run invocation files input
    ⟨outcome.result.mapError .run, outcome.printed, outcome.files⟩

/-- The program with parsers that can be run. -/
def standard : Program where
  arguments := read
  parser := .lenient
  naming := .longest

end Program

/-- Execute a command line with the standard program. -/
def execute (words : List String) (environment : Environment) (files : FileMap)
    (input : List UInt8) : Ending :=
  Program.standard.execute words environment files input

end Memberwise.Command
