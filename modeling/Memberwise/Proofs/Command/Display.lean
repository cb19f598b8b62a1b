import Memberwise.Proofs.Command.Effect

/-!
# Displays

How results are shown is asked for in two options and a switch: the format, JSON whatever the format
is, and the line for the struct that was found. A run branches on them at every one of its ends, and
at one of these the file is written before anything is shown.

The main statement: none of this matters for the edit. Two invocations that agree on everything else
come to the same result, an error with its message included, and leave the same files.
-/

namespace Memberwise.Command

/-- Two invocations that differ at most in how results are shown. -/
inductive Invocation.SameTask : Invocation → Invocation → Prop where
  | fields (options : FieldsOptions) (display : Display) (verbose silent : Bool) :
      SameTask ⟨.fields options, verbose⟩ ⟨.fields { options with display }, silent⟩
  | generate (options : GenerateOptions) (display : Display) (verbose silent : Bool) :
      SameTask ⟨.generate options, verbose⟩ ⟨.generate { options with display }, silent⟩

/-- What an outcome is apart from what was printed. -/
def Outcome.effect (outcome : Outcome) : Except RunError Unit × FileMap :=
  (outcome.result, outcome.files)

namespace Program

variable {program : Program}

section Parts

variable (display : Display) (options : GenerateOptions) (files : FileMap)

/-! Up to the draft nothing depends on the display. -/

theorem selectFor_display : selectFor { options with display } = selectFor options := rfl

theorem draftOf_display : draftOf { options with display } = draftOf options := rfl

/-! Carrying out the draft shows something in every case, but only after all that can fail. -/

theorem concludeInsertion_fst_display (generation : Generation) (built : Constructor)
    (insertion : Insertion) :
    (concludeInsertion { options with display } generation built insertion).1 =
      (concludeInsertion options generation built insertion).1 := by
  rw [concludeInsertion, concludeInsertion]
  rcases generation.markInserted with ⟨cause | _, finished⟩ <;> rfl

theorem effect_carryOut_display (text : String) (located : Source.Located) (draft : Draft) :
    (program.carryOut { options with display } text located files draft).effect =
      (program.carryOut options text located files draft).effect := by
  cases draft with
  | cancelled => rfl
  | shown built => rfl
  | insert generation built insertion =>
    simp only [carryOut]
    rcases files.applyBy program.naming options.target.file text insertion with ⟨cause | ⟨⟩, after⟩
    · rfl
    · have hresult := concludeInsertion_fst_display display options generation built insertion
      exact congrArg (·, after) hresult

end Parts

/-! ## Runs -/

section Runs

variable (display : Display) (verbose silent : Bool) (files : FileMap)

theorem effect_runFields_display (options : FieldsOptions) :
    (program.runFields { options with display } silent files).effect =
      (program.runFields options verbose files).effect := by
  simp only [runFields]
  cases program.findStruct options.target files <;> rfl

theorem effect_runGenerate_display (options : GenerateOptions) (input : List UInt8) :
    (program.runGenerate { options with display } silent files input).effect =
      (program.runGenerate options verbose files input).effect := by
  simp only [runGenerate, selectFor_display, draftOf_display]
  cases program.findStruct options.target files with
  | error cause => rfl
  | ok found =>
    obtain ⟨text, located⟩ := found
    simp only
    rcases selectFor options input (Generation.start located.declaration) with
      ⟨cause | generation, asked⟩
    · rfl
    simp only
    cases draftOf options text located generation with
    | error cause => rfl
    | ok draft => exact effect_carryOut_display display options files text located draft

end Runs

end Program

/-- Whatever a program is built with, how results are shown changes neither the result of a command
nor the files. -/
theorem Invocation.SameTask.run_eq {first second : Invocation} (h : first.SameTask second)
    (program : Program) (files : FileMap) (input : List UInt8) :
    (program.run first files input).result = (program.run second files input).result ∧
      (program.run first files input).files = (program.run second files input).files := by
  have heffect :
      (program.run second files input).effect = (program.run first files input).effect := by
    cases h with
    | fields options display verbose silent =>
      exact Program.effect_runFields_display display verbose silent files options
    | generate options display verbose silent =>
      exact Program.effect_runGenerate_display display verbose silent files options input
  exact ⟨(congrArg Prod.fst heffect).symm, (congrArg Prod.snd heffect).symm⟩

/-- A constructor inserted with a line for it and with a JSON document. -/
theorem Invocation.run_eq_of_json :
    let files : FileMap := ⟨[("a.rs", "struct S(u8);".toUTF8)]⟩
    let options : GenerateOptions :=
      ⟨⟨"a.rs", none, none, 1⟩, ⟨.text, false⟩, false, false, none, false⟩
    let first : Invocation := ⟨.generate options, false⟩
    let second : Invocation := ⟨.generate { options with display := ⟨.json, true⟩ }, true⟩
    let input : List UInt8 := "x\n1\n".toUTF8.toList
    let outcome (invocation : Invocation) := Program.standard.run invocation files input
    first.SameTask second ∧ (outcome first).result = .ok () ∧ (outcome second).result = .ok () ∧
      (outcome first).files = (outcome second).files := by
  intro files options first second input outcome
  have hsame : first.SameTask second := .generate options ⟨.json, true⟩ false true
  obtain ⟨hresult, hfiles⟩ := hsame.run_eq Program.standard files input
  have hfirst : (outcome first).result = .ok () := by decide +kernel
  exact ⟨hsame, hfirst, hresult ▸ hfirst, hfiles⟩

end Memberwise.Command
