import Memberwise.Command.Options

/-!
# Command lines

A parser of command lines turns the words of one, and what the environment says, into the command
that is meant, or it refuses them. It is not part of this library: the program declares its options
and gets the values.
-/

namespace Memberwise.Command

/-- Why a command line was refused, or what it asks for instead of a command. -/
inductive ArgumentError where
  | help
  | version
  /-- Nothing was said at all. -/
  | helpOnNothing
  | unknownCommand
  | missingCommand
  | unknownArgument
  | missingArgument
  /-- Two options exclude each other, or one was given twice. -/
  | conflict
  /-- A value is missing or none of those possible. -/
  | invalidValue
  /-- A value is no number. -/
  | notANumber
  /-- A value for an option that takes none. -/
  | unwantedValue
deriving DecidableEq, Repr

/-- The variables that the program reads. -/
structure Environment where
  output : Option String
  verbose : Option String
deriving DecidableEq, Repr

/-- A parser of command lines, which are given without the name of the program. -/
abbrev ArgumentParser := List String → Environment → Except ArgumentError Invocation

end Memberwise.Command
