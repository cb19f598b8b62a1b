import Memberwise.Selection

/-!
# Scripted selection

A script answers without asking anybody, and answers once. The state remembers whether the script
is still to be given and which labels were shown when it was.
-/

namespace Memberwise

/-- An answer decided beforehand. -/
inductive Script where
  | all
  | none
  /-- Candidates by name. -/
  | names (names : List String)
  | cancel
deriving DecidableEq, Repr

/-- The first candidate with a given name. -/
def Candidate.indexOfName? (candidates : List Candidate) (name : String) : Option Nat :=
  candidates.findIdx? fun candidate ↦ candidate.binding == name

namespace Script

/-- The indices of the named candidates, or the first name that no candidate has. -/
def indicesOfNames (candidates : List Candidate) : List String → Except SelectionError (List Nat)
  | [] => .ok []
  | name :: others =>
    match Candidate.indexOfName? candidates name with
    | Option.none => .error (.unknownName name)
    | some index => (indicesOfNames candidates others).map (index :: ·)

def response (candidates : List Candidate) : Script → Except SelectionError Response
  | all => .ok (.chosen (List.range candidates.length))
  | none => .ok (.chosen [])
  | cancel => .ok .cancelled
  | names wanted => (indicesOfNames candidates wanted).map .chosen

end Script

/-- The state of a scripted presenter. -/
structure Scripted where
  /-- The script, until it is given. -/
  script : Option Script
  /-- The labels of the candidates that were shown. -/
  shown : Option (List String)
deriving DecidableEq, Repr

namespace Scripted

def start (script : Script) : Scripted := ⟨some script, none⟩

def present : Presenter Scripted := fun candidates state ↦
  match state.script with
  | none => (.error .alreadyAnswered, state)
  | some script =>
    (script.response candidates, ⟨none, some (candidates.map Candidate.label)⟩)

def wasAsked (state : Scripted) : Bool := state.shown.isSome

/-- A script that nobody asked for was of no use, which is an error. -/
def finish (state : Scripted) : Except SelectionError Unit :=
  if state.wasAsked then .ok () else .error .neverAsked

end Scripted

end Memberwise
