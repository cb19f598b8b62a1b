import Memberwise.Selection.Script
import Memberwise.Source.Located

/-!
# Commands and their options

The program has two commands. `fields` lists the candidates of a struct, and `generate` makes a
constructor. Both take a target: a file, and optionally a name or a cursor. Which options there are,
which of them exclude each other and which one requires another is declared here; what a command
line makes of the declarations is left to a parser.
-/

namespace Memberwise.Command

/-! ## Options as they are declared -/

inductive CommandName where
  | fields
  | generate
deriving DecidableEq, Repr

/-- An option without a value. -/
inductive Switch where
  | help
  | verbose
  | json
  | all
  | none
  | dryRun
deriving DecidableEq, Repr

/-- An option with a value. -/
inductive Setting where
  | name
  | line
  | column
  | output
  | select
deriving DecidableEq, Repr

inductive OptionName where
  | switch (which : Switch)
  | setting (which : Setting)
deriving DecidableEq, Repr

namespace OptionName

def all : List OptionName :=
  [.switch .help, .switch .verbose, .switch .json, .switch .all, .switch .none, .switch .dryRun,
    .setting .name, .setting .line, .setting .column, .setting .output, .setting .select]

/-- The options that one is declared to conflict with. -/
def conflictsWith : OptionName → List OptionName
  | .setting .name => [.setting .line]
  | .switch .all => [.switch .none, .setting .select]
  | .switch .none => [.setting .select]
  | _ => []

/-- The options that one is declared to require. -/
def requires : OptionName → List OptionName
  | .setting .column => [.setting .line]
  | _ => []

/-- Whether two options exclude each other. It is enough that one of them declares it. -/
def excludes (option other : OptionName) : Bool :=
  other ∈ option.conflictsWith || option ∈ other.conflictsWith

end OptionName

namespace CommandName

def ofString? : String → Option CommandName
  | "fields" => some fields
  | "generate" => some generate
  | _ => none

/-- The option of a command that has this name. -/
def option? (command : CommandName) (name : String) : Option OptionName :=
  match name with
  | "help" => some (.switch .help)
  | "verbose" => some (.switch .verbose)
  | "json" => some (.switch .json)
  | "name" => some (.setting .name)
  | "line" => some (.setting .line)
  | "column" => some (.setting .column)
  | "output" => some (.setting .output)
  | "all" => if command = generate then some (.switch .all) else none
  | "none" => if command = generate then some (.switch .none) else none
  | "dry-run" => if command = generate then some (.switch .dryRun) else none
  | "select" => if command = generate then some (.setting .select) else none
  | _ => none

end CommandName

/-! ## What was asked for -/

/-- The struct to work on. -/
structure Target where
  file : String
  name : Option String
  line : Option Nat
  column : Nat
deriving DecidableEq, Repr

namespace Target

/-- The column of a cursor that is given by a line alone. -/
def defaultColumn : Nat := 1

/-- A name wins over a cursor, and without either the struct has to be the only one. -/
def locator (target : Target) : Source.Locator :=
  match target.name, target.line with
  | some name, _ => .name name
  | none, some line => .cursor line target.column
  | none, none => .only

end Target

inductive Format where
  | text
  | json
deriving DecidableEq, Repr

/-- How results are shown. -/
structure Display where
  format : Format
  /-- JSON whatever the format is. -/
  json : Bool
deriving DecidableEq, Repr

namespace Display

def asJson (display : Display) : Bool := display.json || display.format = .json

end Display

structure FieldsOptions where
  target : Target
  display : Display
deriving DecidableEq, Repr

structure GenerateOptions where
  target : Target
  display : Display
  all : Bool
  none : Bool
  select : Option (List String)
  dryRun : Bool
deriving DecidableEq, Repr

namespace GenerateOptions

/-- The selection that the options decide, if they decide it. -/
def script (options : GenerateOptions) : Option Script :=
  if options.all then some .all
  else if options.none then some .none
  else options.select.map .names

end GenerateOptions

inductive Action where
  | fields (options : FieldsOptions)
  | generate (options : GenerateOptions)
deriving DecidableEq, Repr

/-- A command line that was understood. -/
structure Invocation where
  action : Action
  verbose : Bool
deriving DecidableEq, Repr

end Memberwise.Command
