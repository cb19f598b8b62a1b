import Memberwise.Command.Arguments
import Memberwise.Text.Numeral

/-!
# Reading a command line

A parser of command lines. They are read word by word. An option's value is the rest of its word
behind an equals sign, or the next word, unless that begins with a dash; it is examined when the
next option or argument comes, or at the end. Behind the word `--` every word is an argument. What
the command line leaves open comes from the environment, then from defaults. Conflicts between
options are looked for last, and before what is missing.

`--verbose` may stand before the command, behind it, or both.
-/

namespace Memberwise.Command

/-! ## Words -/

/-- A word of the command line by its form. -/
inductive Word where
  /-- The word behind which all words are arguments. -/
  | separator
  /-- An option by name, with the value behind an equals sign. -/
  | long (name : String) (value : Option String)
  /-- Options by letters; `first` is the first one. -/
  | short (first : Char)
  | plain (text : String)
deriving DecidableEq, Repr

namespace Word

/-- The characters before and behind the first equals sign. -/
def splitAtEquals : List Char → List Char × Option (List Char)
  | [] => ([], none)
  | c :: rest =>
    if c = '=' then ([], some rest)
    else
      let (name, value) := splitAtEquals rest
      (c :: name, value)

def ofString (text : String) : Word :=
  match text.toList with
  | ['-', '-'] => separator
  | '-' :: '-' :: rest =>
    let (name, value) := splitAtEquals rest
    long (String.ofList name) (value.map String.ofList)
  | '-' :: first :: _ => short first
  | _ => plain text

end Word

/-! ## What the words say -/

/-- What was given but not examined yet. -/
inductive Pending where
  | nothing
  | file (path : String)
  /-- An option that still waits for its value, or has it. -/
  | setting (which : Setting) (value : Option String)
deriving DecidableEq, Repr

/-- What the words behind a command have said so far. -/
structure Given where
  pending : Pending
  /-- Whether the word `--` was read. -/
  argumentsOnly : Bool
  /-- Whether an argument was read; there is only one. -/
  hasArgument : Bool
  file : Option String
  name : Option String
  line : Option Nat
  column : Option Nat
  output : Option Format
  select : Option (List String)
  json : Bool
  all : Bool
  none : Bool
  dryRun : Bool
  verbose : Bool
deriving DecidableEq, Repr

namespace Given

def nothing : Given where
  pending := .nothing
  argumentsOnly := false
  hasArgument := false
  file := Option.none
  name := Option.none
  line := Option.none
  column := Option.none
  output := Option.none
  select := Option.none
  json := false
  all := false
  none := false
  dryRun := false
  verbose := false

def formatOf (value : String) : Except ArgumentError Format :=
  if value = "text" then .ok .text
  else if value = "json" then .ok .json
  else .error .invalidValue

def numberOf (value : String) : Except ArgumentError Nat :=
  match Text.numeral? value.toList with
  | some number => .ok number
  | Option.none => .error .notANumber

/-- The names in a value, between commas; empty names count. -/
def namesOf (value : String) : List String :=
  (Text.splitAtEach (· == ',') value.toList).map String.ofList

/-- Take in the value of an option. Only names may be given more than once. -/
def set (given : Given) (which : Setting) (value : String) : Except ArgumentError Given :=
  match which with
  | .name =>
    if given.name.isSome then .error .conflict else .ok { given with name := some value }
  | .line =>
    if given.line.isSome then .error .conflict
    else (numberOf value).map fun number ↦ { given with line := some number }
  | .column =>
    if given.column.isSome then .error .conflict
    else (numberOf value).map fun number ↦ { given with column := some number }
  | .output =>
    if given.output.isSome then .error .conflict
    else (formatOf value).map fun format ↦ { given with output := some format }
  | .select =>
    .ok { given with select := some (given.select.getD [] ++ namesOf value) }

/-- Examine what is pending. -/
def settle (given : Given) : Except ArgumentError Given :=
  let settled := { given with pending := .nothing }
  match given.pending with
  | .nothing => .ok settled
  | .file path =>
    if path.isEmpty then .error .invalidValue else .ok { settled with file := some path }
  | .setting which (some value) => settled.set which value
  | .setting _ Option.none => .error .invalidValue

/-- Whether a switch is on. -/
def isOn (given : Given) : Switch → Bool
  | .help => false
  | .verbose => given.verbose
  | .json => given.json
  | .all => given.all
  | .none => given.none
  | .dryRun => given.dryRun

/-- Turn on a switch. -/
def turnOn (given : Given) : Switch → Given
  | .help => given
  | .verbose => { given with verbose := true }
  | .json => { given with json := true }
  | .all => { given with all := true }
  | .none => { given with none := true }
  | .dryRun => { given with dryRun := true }

/-- Take in a switch. A switch that is on already was given twice. -/
def switch (given : Given) (which : Switch) : Except ArgumentError Given :=
  match given.settle with
  | .error cause => .error cause
  | .ok settled =>
    if which = .help then .error .help
    else if settled.isOn which then .error .conflict
    else .ok (settled.turnOn which)

/-- Take in an option, with the value behind its equals sign. -/
def option (given : Given) (command : CommandName) (name : String) (value : Option String) :
    Except ArgumentError Given :=
  match command.option? name, value with
  | Option.none, _ => .error .unknownArgument
  | some (.switch _), some _ => .error .unwantedValue
  | some (.switch which), Option.none => given.switch which
  | some (.setting which), some value =>
    match given.settle with
    | .error cause => .error cause
    | .ok settled => settled.set which value
  | some (.setting which), Option.none =>
    match given.settle with
    | .error cause => .error cause
    | .ok settled => .ok { settled with pending := .setting which Option.none }

/-- Take in an argument: the file. -/
def argument (given : Given) (text : String) : Except ArgumentError Given :=
  if given.hasArgument then .error .unknownArgument
  else
    match given.settle with
    | .error cause => .error cause
    | .ok settled => .ok { settled with pending := .file text, hasArgument := true }

/-- Take in a word. -/
def read (command : CommandName) (given : Given) (word : String) : Except ArgumentError Given :=
  if given.argumentsOnly then given.argument word
  else
    match Word.ofString word with
    | .separator => .ok { given with argumentsOnly := true }
    | .long name value => given.option command name value
    | .short first => if first = 'h' then given.switch .help else .error .unknownArgument
    | .plain text =>
      match given.pending with
      | .setting which Option.none => .ok { given with pending := .setting which (some text) }
      | _ => given.argument text

/-- Take in words one after another. -/
def readAll (command : CommandName) (given : Given) : List String → Except ArgumentError Given
  | [] => given.settle
  | word :: words =>
    match given.read command word with
    | .error cause => .error cause
    | .ok next => readAll command next words

/-- Whether an option was given. -/
def has (given : Given) : OptionName → Bool
  | .switch which => given.isOn which
  | .setting .name => given.name.isSome
  | .setting .line => given.line.isSome
  | .setting .column => given.column.isSome
  | .setting .output => given.output.isSome
  | .setting .select => given.select.isSome

/-- Whether two of the options that were given exclude each other. -/
def hasConflict (given : Given) : Bool :=
  OptionName.all.any fun option ↦ given.has option && option.conflictsWith.any given.has

/-- Whether an option is missing that is required. None is where another one was given that excludes
it. -/
def lacksRequired (given : Given) : Bool :=
  OptionName.all.any fun option ↦
    given.has option && option.requires.any fun required ↦
      !given.has required &&
        !OptionName.all.any fun other ↦ other.excludes required && given.has other

end Given

/-! ## The environment -/

namespace Environment

/-- The output format to use if the command line names none. -/
def format (environment : Environment) : Except ArgumentError (Option Format) :=
  match environment.output with
  | none => .ok none
  | some value => (Given.formatOf value).map some

/-- Whether the variable for `--verbose` says yes. -/
def isVerbose (environment : Environment) : Except ArgumentError Bool :=
  match environment.verbose with
  | none => .ok false
  | some value =>
    if value = "true" then .ok true
    else if value = "false" then .ok false
    else .error .invalidValue

end Environment

/-! ## Command lines -/

namespace Given

/-- The target, if a file was given. -/
def target? (given : Given) : Option Target :=
  given.file.map fun file ↦ ⟨file, given.name, given.line, given.column.getD Target.defaultColumn⟩

/-- The command that the words and the environment amount to. -/
def action (given : Given) (command : CommandName) (environment : Environment) :
    Except ArgumentError Action := do
  let fallback ← if given.output.isSome then .ok Option.none else environment.format
  if !given.verbose then let _ ← environment.isVerbose
  if given.hasConflict then throw .conflict
  match given.target? with
  | Option.none => throw .missingArgument
  | some target =>
    if given.lacksRequired then throw .missingArgument
    let display := ⟨(given.output.or fallback).getD .text, given.json⟩
    match command with
    | .fields => return .fields ⟨target, display⟩
    | .generate =>
      return .generate ⟨target, display, given.all, given.none, given.select, given.dryRun⟩

end Given

/-- The words behind a command. `verbose` tells whether `--verbose` stands before it. -/
def readCommand (verbose : Bool) (command : CommandName) (environment : Environment)
    (words : List String) : Except ArgumentError Invocation := do
  let given ← Given.nothing.readAll command words
  let action ← given.action command environment
  let fromEnvironment ← if verbose then .ok true else environment.isVerbose
  return ⟨action, given.verbose || fromEnvironment⟩

/-- The words behind `help` name a command, or nothing. -/
def helpOn (words : List String) : ArgumentError :=
  match words with
  | [] => .help
  | [word] =>
    if word = "help" || (CommandName.ofString? word).isSome then .help else .unknownCommand
  | _ => .unknownCommand

/-- A command line without a command. -/
def withoutCommand (verbose : Bool) (environment : Environment) : ArgumentError :=
  if verbose then .missingCommand
  else
    match environment.isVerbose with
    | .error cause => cause
    | .ok _ => if environment.verbose.isSome then .missingCommand else .helpOnNothing

/-- The words of a command line, after `--verbose` if `verbose` is set. -/
def readWords (verbose : Bool) (environment : Environment) :
    List String → Except ArgumentError Invocation
  | [] => .error (withoutCommand verbose environment)
  | word :: words =>
    match CommandName.ofString? word with
    | some command => readCommand verbose command environment words
    | none =>
      match Word.ofString word with
      | .separator =>
        match words with
        | [] => .error (withoutCommand verbose environment)
        | next :: _ =>
          if next = "help" || (CommandName.ofString? next).isSome then .error .unknownArgument
          else .error .unknownCommand
      | .long "help" value => .error (if value.isSome then .unwantedValue else .help)
      | .long "version" value => .error (if value.isSome then .unwantedValue else .version)
      | .long "verbose" (some _) => .error .unwantedValue
      | .long "verbose" none =>
        if verbose then .error .conflict else readWords true environment words
      | .long _ _ => .error .unknownArgument
      | .short 'h' => .error .help
      | .short 'V' => .error .version
      | .short _ => .error .unknownArgument
      | .plain text => .error (if text = "help" then helpOn words else .unknownCommand)

/-- Read a command line, without the name of the program. -/
def read (words : List String) (environment : Environment) : Except ArgumentError Invocation :=
  readWords false environment words

end Memberwise.Command
