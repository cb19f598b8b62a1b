import Memberwise.Text.Blank

/-!
# Text without terminal control

What does not go to a terminal is written without escape sequences and without control characters
other than line ends, tabs and form feeds. An escape sequence is one character, a control sequence
with parameters up to a letter, or a string up to the next escape or, for an operating system
command, a bell.

The main statement: a text without control characters is written as it is.
-/

namespace Memberwise.Text

/-- Where in an escape sequence the text is. -/
inductive ControlState where
  | plain
  | escape
  /-- After an escape and an intermediate character. -/
  | intermediate
  /-- In the parameters of a control sequence. -/
  | parameters
  /-- In an operating system command. -/
  | command
  /-- In a string of another kind. -/
  | string
deriving DecidableEq, Repr

namespace ControlState

/-- Blank characters that are written although they are control characters. -/
def isLayout (c : Char) : Bool := c == '\t' || c == '\n' || c == '\x0c' || c == '\r'

/-- Control characters: those below space, and delete. -/
def isControl (c : Char) : Bool := c.toNat < 32 || c.toNat == 127

/-- The state after an escape character and `c`. -/
def afterEscape (c : Char) : ControlState :=
  if c = '[' then parameters
  else if c = ']' then command
  else if c = 'P' || c = 'X' || c = '^' || c = '_' then string
  else if c.toNat < 48 then intermediate
  else plain

/-- Whether a character is written, and the state after it. -/
def step (state : ControlState) (c : Char) : Bool × ControlState :=
  if c = '\x1b' then (false, escape)
  else if c = '\x18' || c = '\x1a' then (false, plain)
  else
    match state with
    | plain => (isLayout c || !isControl c, plain)
    | command => (false, if c = '\x07' then plain else command)
    | string => (false, string)
    | escape =>
      if isLayout c then (true, plain)
      else if isControl c || 127 < c.toNat then (false, escape)
      else (false, afterEscape c)
    | intermediate =>
      if isLayout c then (true, plain)
      else if isControl c || 127 < c.toNat || c.toNat < 48 then (false, intermediate)
      else (false, plain)
    | parameters =>
      if isLayout c then (true, plain)
      else if isControl c || 127 < c.toNat || c.toNat < 64 then (false, parameters)
      else (false, plain)

end ControlState

/-- The characters of a text that are written, from a state on. -/
def withoutControlFrom (state : ControlState) : List Char → List Char
  | [] => []
  | c :: rest =>
    let (written, next) := state.step c
    if written then c :: withoutControlFrom next rest else withoutControlFrom next rest

def withoutControl (text : String) : String :=
  String.ofList (withoutControlFrom .plain text.toList)

theorem withoutControl_eq_self {text : String}
    (h : ∀ c ∈ text.toList, ControlState.isControl c = false ∨ ControlState.isLayout c = true) :
    withoutControl text = text := by
  have key : ∀ chars : List Char,
      (∀ c ∈ chars, ControlState.isControl c = false ∨ ControlState.isLayout c = true) →
      withoutControlFrom .plain chars = chars := by
    intro chars hchars
    induction chars with
    | nil => rfl
    | cons c rest ih =>
      have hc := hchars c List.mem_cons_self
      have hrest := ih fun d hd ↦ hchars d (List.mem_cons_of_mem c hd)
      have hne : c ≠ '\x1b' ∧ c ≠ '\x18' ∧ c ≠ '\x1a' := by
        refine ⟨?_, ?_, ?_⟩ <;> rintro rfl <;> revert hc <;> decide
      have hkept : (ControlState.isLayout c || !ControlState.isControl c) = true := by
        rcases hc with hc | hc <;> simp [hc]
      simp [withoutControlFrom, ControlState.step, hne, hkept, hrest]
  rw [withoutControl, key _ h, String.ofList_toList]

end Memberwise.Text
