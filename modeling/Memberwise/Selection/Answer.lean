import Memberwise.Selection.Script
import Memberwise.Text.Numeral

/-!
# Reading an answer

An answer line is a name, a keyword or a list. A candidate's name wins over everything else. An
empty answer and `all` choose every candidate, `none` chooses none, and `q`, `quit` and `cancel`
cancel; a keyword may be written in capitals. Any other answer lists numbers, counted from one,
and names, between commas and blanks.
-/

namespace Memberwise

/-- Why a piece of an answer is refused. -/
inductive AnswerError where
  /-- A number that is not the number of a candidate. -/
  | outOfRange (number count : Nat)
  /-- Neither a number nor a name. -/
  | unreadable (piece : String)
deriving DecidableEq, Repr

namespace AnswerError

def message : AnswerError → String
  | outOfRange number count => toString number ++ " is not between 1 and " ++ toString count
  | unreadable piece => "'" ++ piece ++ "' is neither a number nor a field name"

end AnswerError

namespace Answer

/-- An answer that is one word of the prompt. -/
inductive Keyword where
  | all
  | none
  | cancel
deriving DecidableEq, Repr

/-- The keyword of an answer. ASCII capitals count as small letters. -/
def keyword? (answer : List Char) : Option Keyword :=
  let small := String.ofList (answer.map Char.toLower)
  if small = "" ∨ small = "all" then some .all
  else if small = "none" then some .none
  else if small = "q" ∨ small = "quit" ∨ small = "cancel" then some .cancel
  else Option.none

/-- What ends a piece of a list. -/
def isSeparator (c : Char) : Bool := c == ',' || Text.isBlank c

/-- The candidate that a piece of a list names or numbers. -/
def index (candidates : List Candidate) (piece : List Char) : Except AnswerError Nat :=
  match Candidate.indexOfName? candidates (String.ofList piece) with
  | some index => .ok index
  | none =>
    match Text.numeral? piece with
    | none => .error (.unreadable (String.ofList piece))
    | some number =>
      if 1 ≤ number ∧ number ≤ candidates.length then .ok (number - 1)
      else .error (.outOfRange number candidates.length)

/-- The candidates of all pieces in turn, or what is wrong with the first bad one. -/
def indices (candidates : List Candidate) : List (List Char) → Except AnswerError (List Nat)
  | [] => .ok []
  | piece :: pieces =>
    match index candidates piece with
    | .error cause => .error cause
    | .ok first => (indices candidates pieces).map (first :: ·)

/-- What an answer line stands for. -/
def read (line : String) (candidates : List Candidate) : Except AnswerError Response :=
  let answer := Text.trim line.toList
  match Candidate.indexOfName? candidates (String.ofList answer) with
  | some index => .ok (.chosen [index])
  | none =>
    match keyword? answer with
    | some .all => .ok (.chosen (List.range candidates.length))
    | some .none => .ok (.chosen [])
    | some .cancel => .ok .cancelled
    | none => (indices candidates (Text.runsBetween isSeparator answer)).map .chosen

end Answer

end Memberwise
