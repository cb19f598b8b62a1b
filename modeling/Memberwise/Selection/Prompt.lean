import Memberwise.Selection.Answer
import Memberwise.Text.Style

/-!
# Selection at a terminal

The prompt lists the candidates, numbered from one, and asks until it gets a line that it can read
as an answer. Each refused line is followed by the reason. The end of the input cancels; a line that
is not UTF-8 and a screen that takes no more are errors.

The state holds the lines that are still to be read, so the questions end with the input, and the
screen, so it is known what was shown.
-/

namespace Memberwise

/-- Where the prompt writes. A limited screen keeps so many bytes and refuses all others. -/
structure Screen where
  limit : Option Nat
  shown : List UInt8
deriving DecidableEq, Repr

namespace Screen

def blank (limit : Option Nat) : Screen := ⟨limit, []⟩

/-- Whether the screen would keep all of `bytes`. -/
def fits (screen : Screen) (bytes : List UInt8) : Bool :=
  match screen.limit with
  | none => true
  | some limit => screen.shown.length + bytes.length ≤ limit

/-- The screen after an attempt to write: as many bytes are kept as fit. -/
def put (screen : Screen) (bytes : List UInt8) : Screen :=
  let shown := screen.shown ++ bytes
  { screen with
    shown := match screen.limit with
      | none => shown
      | some limit => shown.take limit }

end Screen

/-- A prompt in use. -/
structure Prompt where
  /-- The struct that the constructor is for. -/
  structName : String
  colour : Bool
  /-- The lines of input that were not read yet, with their line feeds. -/
  pending : List (List UInt8)
  screen : Screen
deriving DecidableEq, Repr

namespace Prompt

/-- The lines of an input, each one with its line feed; the last one may have none. -/
def inputLines : List UInt8 → List (List UInt8)
  | [] => []
  | byte :: rest =>
    if byte = 10 then [byte] :: inputLines rest
    else
      match inputLines rest with
      | [] => [[byte]]
      | line :: others => (byte :: line) :: others

/-- The text that bytes encode. -/
def decode? (bytes : List UInt8) : Option String := String.fromUTF8? ⟨bytes.toArray⟩

def encode (text : List Char) : List UInt8 := (String.ofList text).toUTF8.toList

def start (structName : String) (colour : Bool) (limit : Option Nat) (input : List UInt8) :
    Prompt :=
  ⟨structName, colour, inputLines input, Screen.blank limit⟩

def screenFull : SelectionError := .presenterFailed "failed to write whole buffer"

def inputNotText : SelectionError := .presenterFailed "stream did not contain valid UTF-8"

def titleLine (structName : String) (colour : Bool) : List Char :=
  Text.Style.bold.paint colour ("Generate constructor for " ++ structName).toList ++ ['\n']

/-- The number that a candidate is shown with: its index counted from one. -/
def numberText (index : Nat) : List Char :=
  Text.alignRight 3 (toString (index + 1)).toList ++ ['.']

def candidateLine (colour : Bool) (index : Nat) (candidate : Candidate) : List Char :=
  Text.Style.cyan.paint colour (numberText index) ++ [' '] ++ candidate.label.toList ++ ['\n']

/-- The title and one line per candidate. -/
def listing (structName : String) (colour : Bool) (candidates : List Candidate) : List Char :=
  titleLine structName colour ++ (candidates.mapIdx (candidateLine colour)).flatten

def question (colour : Bool) : List Char :=
  Text.Style.dimmed.paint colour "Parameters [all | none | 1,2,.. | names | q]:".toList ++ [' ']

def refusal (colour : Bool) (cause : AnswerError) : List Char :=
  Text.Style.red.paint colour cause.message.toList ++ ['\n']

/-- Ask until a line of input is an answer. Gives the answer, the lines left and the screen. -/
def ask (colour : Bool) (candidates : List Candidate) :
    List (List UInt8) → Screen → Except SelectionError Response × List (List UInt8) × Screen
  | [], screen =>
    let asked := screen.put (encode (question colour))
    if !screen.fits (encode (question colour)) then (.error screenFull, [], asked)
    else
      let ended := asked.put (encode ['\n'])
      if asked.fits (encode ['\n']) then (.ok .cancelled, [], ended)
      else (.error screenFull, [], ended)
  | line :: others, screen =>
    let asked := screen.put (encode (question colour))
    if !screen.fits (encode (question colour)) then (.error screenFull, line :: others, asked)
    else
      match decode? line with
      | none => (.error inputNotText, others, asked)
      | some text =>
        match Answer.read text candidates with
        | .ok response => (.ok response, others, asked)
        | .error cause =>
          let refused := asked.put (encode (refusal colour cause))
          if asked.fits (encode (refusal colour cause)) then
            ask colour candidates others refused
          else (.error screenFull, others, refused)

def present : Presenter Prompt := fun candidates prompt ↦
  let bytes := encode (listing prompt.structName prompt.colour candidates)
  let listed := prompt.screen.put bytes
  if prompt.screen.fits bytes then
    let (result, pending, screen) := ask prompt.colour candidates prompt.pending listed
    (result, { prompt with pending, screen })
  else (.error screenFull, { prompt with screen := listed })

end Prompt

end Memberwise
