import Memberwise.Command.Arguments
import Memberwise.Text.Numeral
import Mathlib.Data.List.Infix
import Mathlib.Data.List.TakeWhile

/-!
# What a parser of command lines promises

How a program writes down its options is in its declarations; what a parser makes of the words is
not known here. What is known is what every parser promises of a command line that it accepts: no
option is without its value, options that exclude each other are not both given, and a required
option is given. A conflict takes precedence over a requirement, so a required option may be missing
where another one is given that excludes it.

An option with a value is written in one word, with an equals sign, or in two. It counts where it
stands before the separator. This says it of the words alone, without a parser.
-/

namespace Memberwise.Command

/-! ## How options are written -/

/-- An option as it is written, with a value behind an equals sign or without one. -/
def spelling (name : String) : Option String → String
  | none => "--" ++ name
  | some value => "--" ++ name ++ "=" ++ value

/-- The name by which an option is written. -/
def Setting.label : Setting → String
  | .name => "name"
  | .line => "line"
  | .column => "column"
  | .output => "output"
  | .select => "select"

/-- The words before the separator. -/
def optionWords (words : List String) : List String := words.takeWhile (· ≠ "--")

/-- An option is written before the separator. -/
def Names (words : List String) (which : Setting) : Prop :=
  ∃ value, spelling which.label value ∈ optionWords words

/-- An option is written with a value before the separator, in one word or in two. -/
inductive Gives (words : List String) (which : Setting) (value : String) : Prop where
  | joined (h : spelling which.label (some value) ∈ optionWords words)
  | apart (h : [spelling which.label none, value] <:+: optionWords words)

theorem Gives.names {words : List String} {which : Setting} {value : String}
    (h : Gives words which value) : Names words which := by
  rcases h with hmem | happart
  · exact ⟨some value, hmem⟩
  · exact ⟨none, happart.subset List.mem_cons_self⟩

/-- A number is written for an option, and each time the same one. -/
structure GivesNumber (words : List String) (which : Setting) (number : Nat) : Prop where
  given : ∃ text, Gives words which text
  numeral?_eq : ∀ text, Gives words which text → Text.numeral? text.toList = some number

/-! ## Promises -/

/-- The target of either command. -/
def Action.target : Action → Target
  | .fields options => options.target
  | .generate options => options.target

/-- The words of a command line keep to the declared options, and the target says what they say. -/
structure Follows (words : List String) (target : Target) : Prop where
  /-- An option with a value has one. -/
  valued : ∀ which, Names words which → ∃ value, Gives words which value
  /-- Two options that exclude each other are not both given. -/
  exclusive : ∀ which other : Setting, Names words which → Names words other →
    OptionName.excludes (.setting which) (.setting other) = false
  /-- A required option is given, or else another one that excludes it. -/
  required : ∀ which needed : Setting, Names words which →
    OptionName.setting needed ∈ (OptionName.setting which).requires →
      Names words needed ∨
        ∃ other : Setting, OptionName.excludes (.setting other) (.setting needed) = true ∧
          Names words other
  name_eq : ∀ value, Gives words .name value → target.name = some value
  line_eq : ∀ value, Gives words .line value →
    ∃ number, Text.numeral? value.toList = some number ∧ target.line = some number
  column_eq : ∀ value, Gives words .column value →
    Text.numeral? value.toList = some target.column
  name_eq_none : ¬ Names words .name → target.name = none
  line_eq_none : ¬ Names words .line → target.line = none
  column_eq_default : ¬ Names words .column → target.column = Target.defaultColumn

/-- What is promised of every command line that a parser accepts. -/
def ArgumentParser.Lawful (parser : ArgumentParser) : Prop :=
  ∀ words environment invocation, parser words environment = .ok invocation →
    Follows words invocation.action.target

namespace Follows

variable {words : List String} {target : Target} {which : Setting}

theorem givesNumber_line (h : Follows words target) (hline : Names words .line) :
    ∃ line, GivesNumber words .line line ∧ target.line = some line := by
  obtain ⟨text, htext⟩ := h.valued .line hline
  obtain ⟨line, -, htarget⟩ := h.line_eq text htext
  refine ⟨line, ⟨⟨text, htext⟩, fun other hother ↦ ?_⟩, htarget⟩
  obtain ⟨number, hnumber, hsame⟩ := h.line_eq other hother
  rwa [Option.some.inj (htarget.symm.trans hsame)]

theorem givesNumber_column (h : Follows words target) (hcolumn : Names words .column) :
    GivesNumber words .column target.column where
  given := h.valued .column hcolumn
  numeral?_eq := h.column_eq

end Follows

end Memberwise.Command
