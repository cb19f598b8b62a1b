import Memberwise.Proofs.Command.DryRun
import Memberwise.Proofs.Selection.Range

/-!
# Failures of a command line

Some errors would be the program's own fault: a step out of order, an answer out of range, a script
that is asked twice or never, a selection of something that was not offered, a file that changed
while nobody else could write, a cut through a character. None of them occurs. Each one is excluded
for a reason of its own: the stages of a generation, the range that scripts and prompts keep, the
order of selecting and emitting, the one read before the one write, and the fit of the trees that
the parser makes.

What is left comes from outside: words that cannot be read, a file that cannot be read or replaced,
a text without a syntax tree, a struct that cannot be found, a name that no field has, an input that
is no text. The last two need a struct with fields, since without any nobody is asked.
-/

namespace Memberwise

/-! ## Faults -/

/-- An answer out of range, or a script that is not asked exactly once. -/
def SelectionError.isFault : SelectionError → Bool
  | unknownCandidate _ _ | alreadyAnswered | neverAsked => true
  | unknownName _ | presenterFailed _ => false

def GenerationError.isFault : GenerationError → Bool
  | outOfOrder _ _ | foreignSelection => true
  | selection cause => cause.isFault

/-- A file that differs from what was read from it. -/
def FileError.isFault : FileError → Bool
  | changed _ | unreadableAgain _ => true
  | unreadable _ | unparsable _ _ | noDirectory _ | notReplaced _ _ => false

/-- A struct whose source can be cut wherever a run cuts it. -/
structure Source.Located.IsCuttable (text : String) (located : Located) : Prop where
  start : located.start.IsBoundary text.toList
  stop : located.stop.IsBoundary text.toList
  insertion : ∀ built, ∃ insertion, located.insertion? text built = some insertion

theorem Source.Located.ReadFrom.isCuttable {p : Char → Prop} {text : String} {located : Located}
    (h : located.ReadFrom p text.toList) : located.IsCuttable text where
  start := h.start
  stop := h.stop
  insertion := by
    obtain ⟨_, before, after, _, _, hinsertion⟩ := Command.exists_insertion? h.stop
    exact fun built ↦ ⟨_, hinsertion built⟩

/-! ## Files -/

namespace FileMap

variable {naming : Naming} {files after : FileMap} {path : String} {cause : FileError}

theorem replaceBy_eq_error_cases {contents : String}
    (h : files.replaceBy naming path contents = (.error cause, after)) :
    cause = .noDirectory (directoryPart path) ∨ cause = .notReplaced path (moveError path) := by
  rw [replaceBy_eq] at h
  split at h
  · exact Or.inl (Except.error.inj (Prod.mk.inj h).1).symm
  · split at h
    · exact Or.inr (Except.error.inj (Prod.mk.inj h).1).symm
    · simp at h

/-- A file that holds what was expected is not replaced only if it is a directory as well. -/
theorem applyBy_eq_error_of_read {expected : String} {insertion : Insertion}
    (hread : files.readText? path = some expected)
    (h : files.applyBy naming path expected insertion = (.error cause, after)) :
    ¬ files.Proper ∧
      (cause = .noDirectory (directoryPart path) ∨ cause = .notReplaced path (moveError path)) := by
  have hreplace : files.replaceBy naming path insertion.text = (.error cause, after) := by
    simpa [applyBy, hread] using h
  refine ⟨fun hproper ↦ ?_, replaceBy_eq_error_cases hreplace⟩
  obtain ⟨_, _, hok⟩ := replaceBy_of_readText? naming hproper hread insertion.text
  simp [hok] at hreplace

end FileMap

namespace Command

def RunError.isFault : RunError → Bool
  | file cause => cause.isFault
  | locate _ => false
  | selection cause => cause.isFault
  | generation cause => cause.isFault
  | offBoundary => true

def Failure.isFault : Failure → Bool
  | arguments _ => false
  | run cause => cause.isFault

/-! ## Finding the struct -/

namespace Program

/-- How the struct of a target is missed. -/
inductive TargetFails (program : Program) (target : Target) (files : FileMap) :
    RunError → Prop where
  | unreadable (h : files.readText? target.file = none) :
      TargetFails program target files (.file (.unreadable target.file))
  | unparsable {text : String} {cause : Source.LocateError}
      (hread : files.readText? target.file = some text)
      (h : Source.SourceFile.parse program.parser text = .error cause) :
      TargetFails program target files (.file (.unparsable target.file cause.message))
  | unlocated {text : String} {source : Source.SourceFile} {structs : List Source.Located}
      {cause : Source.LocateError} (hread : files.readText? target.file = some text)
      (hparse : Source.SourceFile.parse program.parser text = .ok source)
      (hstructs : source.structs? = some structs)
      (h : target.locator.pick text structs = .error cause) :
      TargetFails program target files (.locate cause)

variable {program : Program}

theorem readSource_eq_error {path : String} {files : FileMap} {cause : FileError}
    (h : program.readSource path files = .error cause) :
    (files.readText? path = none ∧ cause = .unreadable path) ∨
      ∃ text refusal, files.readText? path = some text ∧
        Source.SourceFile.parse program.parser text = .error refusal ∧
        cause = .unparsable path refusal.message := by
  rw [readSource] at h
  split at h
  · rename_i hread
    exact .inl ⟨hread, (Except.error.inj h).symm⟩
  · rename_i text hread
    split at h
    · rename_i refusal hparse
      exact .inr ⟨text, refusal, hread, hparse, (Except.error.inj h).symm⟩
    · simp at h

/-- If the trees fit, a struct is missed without a cut through a character. -/
theorem targetFails_of_findStruct (hparser : program.parser.Fits) {target : Target}
    {files : FileMap} {cause : RunError} (h : program.findStruct target files = .error cause) :
    program.TargetFails target files cause := by
  rw [findStruct] at h
  split at h
  · rename_i missed hmissed
    obtain rfl := Except.error.inj h
    rcases readSource_eq_error hmissed with ⟨hread, rfl⟩ | ⟨text, refusal, hread, hparse, rfl⟩
    · exact .unreadable hread
    · exact .unparsable hread hparse
  · rename_i source hsource
    obtain ⟨hread, hparse⟩ := readSource_eq_ok hsource
    obtain ⟨structs, hstructs, -⟩ := Source.SourceFile.exists_structs? hparser hparse
    rw [Source.SourceFile.locate?_eq hstructs] at h
    split at h
    · rename_i hnone
      simp at hnone
    · rename_i missed hmissed
      obtain rfl := Except.error.inj h
      exact .unlocated hread hparse hstructs (Option.some.inj hmissed)
    · simp at h

end Program

/-! ## Selecting -/

/-- How a selection fails: for an unknown name, if names were given, and for input that is no text,
if nothing was given. -/
inductive SelectionFails (options : GenerateOptions) (input : List UInt8)
    (candidates : List Candidate) : SelectionError → Prop where
  | unknownName {names : List String} {name : String} (hall : options.all = false)
      (hnone : options.none = false) (hselect : options.select = some names) (hname : name ∈ names)
      (h : ∀ candidate ∈ candidates, candidate.binding ≠ name) :
      SelectionFails options input candidates (.unknownName name)
  | inputNotText {line : List UInt8} (hall : options.all = false) (hnone : options.none = false)
      (hselect : options.select = Option.none) (hline : line ∈ Prompt.inputLines input)
      (h : Prompt.decode? line = Option.none) :
      SelectionFails options input candidates Prompt.inputNotText

theorem SelectionFails.isFault_eq_false {options : GenerateOptions} {input : List UInt8}
    {candidates : List Candidate} {failed : SelectionError}
    (h : SelectionFails options input candidates failed) : failed.isFault = false := by
  cases h <;> rfl

theorem script_eq_names {options : GenerateOptions} {names : List String}
    (h : options.script = some (.names names)) :
    options.all = false ∧ options.none = false ∧ options.select = some names := by
  cases hall : options.all <;> cases hnone : options.none <;>
    simp_all [GenerateOptions.script]

theorem script_eq_none {options : GenerateOptions} (h : options.script = none) :
    options.all = false ∧ options.none = false ∧ options.select = none := by
  cases hall : options.all <;> cases hnone : options.none <;>
    simp_all [GenerateOptions.script]

section Selecting

variable {declaration : Declaration} {cause : RunError}

/-- A script was asked if there was anything to ask about. -/
theorem wasAsked_of_select (script : Script) (hne : declaration.analysis.candidates ≠ []) :
    ((Generation.start declaration).select Scripted.present (.start script)).2.2.wasAsked =
      true := by
  rw [Generation.select_start_snd_snd, Selection.request_of_ne_nil hne, Scripted.present_start]
  rfl

/-- Without candidates a script is left over, and this is no error. -/
theorem selectByScript_of_no_candidates (script : Script)
    (h : declaration.analysis.candidates = []) :
    ((Generation.start declaration).select Scripted.present (.start script)).2.2.finish =
        .error .neverAsked ∧
      ∃ generation, selectByScript script (Generation.start declaration) = .ok generation ∧
        generation.stage = .selected ∧ generation.selection = [] := by
  have hrequest : Selection.request Scripted.present
      (Generation.start declaration).analysis.candidates (.start script) =
        (.ok (.selected []), .start script) := by
    change Selection.request Scripted.present declaration.analysis.candidates _ = _
    rw [h, Selection.request_nil]
  have hselect := Generation.select_of_selected rfl hrequest
  refine ⟨by rw [hselect]; rfl, { Generation.start declaration with stage := .selected }, ?_,
    rfl, rfl⟩
  rw [selectByScript, hselect]
  simp [h, Generation.start]

/-- A script fails only for a name that no candidate has. In particular it is asked neither twice
nor in vain. -/
theorem unknownName_of_selectByScript {script : Script}
    (h : selectByScript script (Generation.start declaration) = .error cause) :
    declaration.analysis.candidates ≠ [] ∧ ∃ names, script = .names names ∧ ∃ name ∈ names,
      (∀ candidate ∈ declaration.analysis.candidates, candidate.binding ≠ name) ∧
      cause = .generation (.selection (.unknownName name)) := by
  rcases hselect : (Generation.start declaration).select Scripted.present (.start script) with
    ⟨failure | stage, next, state⟩
  · obtain ⟨hne, failed, rfl, hfailed⟩ :=
      Generation.select_start_eq_error (Scripted.keepsRange _) hselect
    rw [Scripted.present_start] at hfailed
    obtain ⟨names, hscript, name, hname, hunknown, rfl⟩ := Script.unknownName_of_response hfailed
    rw [selectByScript, hselect] at h
    exact ⟨hne, names, hscript, name, hname, hunknown, (Except.error.inj h).symm⟩
  · have hanalysis := (Generation.Decided.of_select hselect).analysis_eq
    by_cases hempty : declaration.analysis.candidates = []
    · obtain ⟨-, _, hok, -⟩ := selectByScript_of_no_candidates script hempty
      simp [hok] at h
    · have hasked := wasAsked_of_select script hempty
      rw [hselect] at hasked
      rw [selectByScript, hselect] at h
      simp [hanalysis, hempty, Scripted.finish, hasked] at h

/-- The prompt of a command line fails only for input that is no text. -/
theorem inputNotText_of_selectAtPrompt {input : List UInt8} {printed : Printed}
    (h : selectAtPrompt input (Generation.start declaration) = (.error cause, printed)) :
    declaration.analysis.candidates ≠ [] ∧
      (∃ line ∈ Prompt.inputLines input, Prompt.decode? line = none) ∧
      cause = .generation (.selection Prompt.inputNotText) := by
  rw [selectAtPrompt] at h
  split at h
  rename_i result next after hselect
  split at h
  · rename_i failure
    obtain ⟨hne, failed, rfl, hfailed⟩ :=
      Generation.select_start_eq_error (Prompt.keepsRange _) hselect
    obtain ⟨rfl, hline⟩ := Prompt.eq_inputNotText_of_present hfailed
    exact ⟨hne, hline, (Except.error.inj (Prod.mk.inj h).1).symm⟩
  · simp at h

theorem selectionFails_of_selectFor {options : GenerateOptions} {input : List UInt8}
    {asked : Printed}
    (h : selectFor options input (Generation.start declaration) = (.error cause, asked)) :
    declaration.analysis.candidates ≠ [] ∧ ∃ failed,
      SelectionFails options input declaration.analysis.candidates failed ∧
      cause = .generation (.selection failed) := by
  rw [selectFor] at h
  cases hscript : options.script with
  | some script =>
    rw [hscript] at h
    obtain ⟨hne, names, rfl, name, hname, hunknown, rfl⟩ :=
      unknownName_of_selectByScript (Prod.mk.inj h).1
    obtain ⟨hall, hnone, hselect⟩ := script_eq_names hscript
    exact ⟨hne, _, .unknownName hall hnone hselect hname hunknown, rfl⟩
  | none =>
    rw [hscript] at h
    obtain ⟨hne, ⟨line, hline, hdecode⟩, rfl⟩ := inputNotText_of_selectAtPrompt h
    obtain ⟨hall, hnone, hselect⟩ := script_eq_none hscript
    exact ⟨hne, _, .inputNotText hall hnone hselect hline hdecode, rfl⟩

end Selecting

/-! ## Generating -/

namespace Program

/-- How `generate` fails. -/
inductive GenerateFails (program : Program) (options : GenerateOptions) (files : FileMap)
    (input : List UInt8) : RunError → Prop where
  | target {cause : RunError} (h : program.TargetFails options.target files cause) :
      GenerateFails program options files input cause
  /-- Without candidates nothing is selected, so nothing fails. -/
  | selection {text : String} {located : Source.Located} {cause : SelectionError}
      (hfound : program.findStruct options.target files = .ok (text, located))
      (hne : located.declaration.analysis.candidates ≠ [])
      (h : SelectionFails options input located.declaration.analysis.candidates cause) :
      GenerateFails program options files input (.generation (.selection cause))
  /-- This takes a file that is a directory as well, and no disk has one. -/
  | replacement {cause : FileError} (hdry : options.dryRun = false) (hproper : ¬ files.Proper)
      (h : cause = .noDirectory (FileMap.directoryPart options.target.file) ∨
        cause = .notReplaced options.target.file (FileMap.moveError options.target.file)) :
      GenerateFails program options files input (.file cause)

variable {program : Program}

section Generating

variable {options : GenerateOptions} {text : String} {located : Source.Located}

/-- Whatever was selected can be emitted and has a place in the source. -/
theorem exists_draftOf {generation : Generation} (hcuttable : located.IsCuttable text)
    (hdecided : generation.Decided located.declaration) :
    ∃ draft, draftOf options text located generation = .ok draft := by
  rw [draftOf]
  by_cases hstage : generation.stage = .cancelled
  · exact ⟨.cancelled, by rw [if_pos hstage]⟩
  · rw [if_neg hstage, hdecided.emit_eq hstage]
    cases hdry : options.dryRun with
    | true => exact ⟨.shown _, rfl⟩
    | false =>
      let built := Generation.constructorFor located.declaration.analysis generation.selection
      obtain ⟨insertion, hinsertion⟩ := hcuttable.insertion built
      exact ⟨.insert { generation with stage := .emitted } built insertion,
        by simp [built, hinsertion]⟩

theorem generateFails_of_carryOut {files : FileMap} {input : List UInt8} {generation : Generation}
    {draft : Draft} {cause : RunError} (hread : files.readText? options.target.file = some text)
    (hdraft : draftOf options text located generation = .ok draft)
    (h : (program.carryOut options text located files draft).result = .error cause) :
    program.GenerateFails options files input cause := by
  cases draft with
  | cancelled => simp [carryOut] at h
  | shown built => simp [carryOut] at h
  | insert emitted built insertion =>
    obtain ⟨-, hemit, hdry, -⟩ := draftOf_eq_insert hdraft
    rcases happly : files.applyBy program.naming options.target.file text insertion with
      ⟨failed | ⟨⟩, after⟩
    · obtain ⟨hproper, hfailed⟩ := FileMap.applyBy_eq_error_of_read hread happly
      rw [carryOut, happly] at h
      exact Except.error.inj h ▸ .replacement hdry hproper hfailed
    · simp [carryOut, happly, concludeInsertion_fst hemit] at h

theorem isCuttable_of_findStruct (hparser : program.parser.Fits) {target : Target}
    {files : FileMap} (h : program.findStruct target files = .ok (text, located)) :
    located.IsCuttable text :=
  (readFrom_of_findStruct hparser (fun _ _ ↦ trivial) h fun _ _ ↦ trivial).isCuttable

theorem generateFails_of_runGenerate (hparser : program.parser.Fits) {verbose : Bool}
    {files : FileMap} {input : List UInt8} {cause : RunError}
    (h : (program.runGenerate options verbose files input).result = .error cause) :
    program.GenerateFails options files input cause := by
  rw [runGenerate] at h
  split at h
  · rename_i missed hmissed
    exact Except.error.inj h ▸ .target (targetFails_of_findStruct hparser hmissed)
  rename_i text located hfound
  obtain ⟨_, _, hread, -⟩ := findStruct_eq_ok hfound
  split at h
  · rename_i failed asked hfailed
    obtain ⟨hne, unselected, hunselected, rfl⟩ := selectionFails_of_selectFor hfailed
    exact Except.error.inj h ▸ .selection hfound hne hunselected
  rename_i generation asked hselect
  obtain ⟨draft, hdraft⟩ : ∃ draft, draftOf options text located generation = .ok draft :=
    exists_draftOf (isCuttable_of_findStruct hparser hfound) (decided_of_selectFor hselect)
  rw [hdraft] at h
  exact generateFails_of_carryOut hread hdraft h

end Generating

/-! ## Command lines -/

/-- How a command line fails. -/
inductive Fails (program : Program) (words : List String) (environment : Environment)
    (files : FileMap) (input : List UInt8) : Failure → Prop where
  | arguments {cause : ArgumentError} (h : program.arguments words environment = .error cause) :
      Fails program words environment files input (.arguments cause)
  | fields {options : FieldsOptions} {verbose : Bool} {cause : RunError}
      (hread : program.arguments words environment = .ok ⟨.fields options, verbose⟩)
      (h : program.TargetFails options.target files cause) :
      Fails program words environment files input (.run cause)
  | generate {options : GenerateOptions} {verbose : Bool} {cause : RunError}
      (hread : program.arguments words environment = .ok ⟨.generate options, verbose⟩)
      (h : program.GenerateFails options files input cause) :
      Fails program words environment files input (.run cause)

section Faults

variable {cause : RunError}

theorem TargetFails.isFault_eq_false {target : Target} {files : FileMap}
    (h : program.TargetFails target files cause) : cause.isFault = false := by
  cases h <;> rfl

theorem GenerateFails.isFault_eq_false {options : GenerateOptions} {files : FileMap}
    {input : List UInt8} (h : program.GenerateFails options files input cause) :
    cause.isFault = false := by
  cases h with
  | target h => exact h.isFault_eq_false
  | selection hfound hne h => exact h.isFault_eq_false
  | replacement hdry hproper h => rcases h with rfl | rfl <;> rfl

theorem Fails.isFault_eq_false {words : List String} {environment : Environment}
    {files : FileMap} {input : List UInt8} {failure : Failure}
    (h : program.Fails words environment files input failure) : failure.isFault = false := by
  cases h with
  | arguments h => rfl
  | fields hread h => exact h.isFault_eq_false
  | generate hread h => exact h.isFault_eq_false

end Faults

theorem targetFails_of_runFields (hparser : program.parser.Fits) {options : FieldsOptions}
    {verbose : Bool} {files : FileMap} {cause : RunError}
    (h : (program.runFields options verbose files).result = .error cause) :
    program.TargetFails options.target files cause := by
  rw [runFields] at h
  split at h
  · rename_i missed hmissed
    exact Except.error.inj h ▸ targetFails_of_findStruct hparser hmissed
  · simp at h

theorem fails_of_execute (hparser : program.parser.Fits) {words : List String}
    {environment : Environment} {files : FileMap} {input : List UInt8} {failure : Failure}
    (h : (program.execute words environment files input).result = .error failure) :
    program.Fails words environment files input failure := by
  rw [execute] at h
  split at h
  · rename_i cause hread
    exact Except.error.inj h ▸ .arguments hread
  rename_i invocation hread
  obtain ⟨action, verbose⟩ := invocation
  cases hrun : (program.run ⟨action, verbose⟩ files input).result with
  | ok => simp [hrun, Except.mapError] at h
  | error cause =>
    simp only [hrun, Except.mapError, Except.error.injEq] at h
    subst h
    cases action with
    | fields options => exact .fields hread (targetFails_of_runFields hparser hrun)
    | generate options => exact .generate hread (generateFails_of_runGenerate hparser hrun)

/-- If the trees of its parser fit their texts, a program fails only for what it was given, and
never by a fault of its own. The source of every struct that it finds can be cut wherever that is
asked for. A script for a struct without fields is not asked; this would be an error of the script,
but it does not fail the run. -/
theorem execute_fails (program : Program) (hparser : program.parser.Fits) (words : List String)
    (environment : Environment) (files : FileMap) (input : List UInt8) :
    (∀ failure, (program.execute words environment files input).result = .error failure →
      failure.isFault = false ∧ program.Fails words environment files input failure) ∧
    (∀ target text located, program.findStruct target files = .ok (text, located) →
      located.IsCuttable text) ∧
    (∀ (options : GenerateOptions) (script : Script) (declaration : Declaration),
      options.script = some script → declaration.analysis.candidates = [] →
      ((Generation.start declaration).select Scripted.present (.start script)).2.2.finish =
          .error .neverAsked ∧
        ∃ generation, selectFor options input (Generation.start declaration) =
            (.ok generation, .nothing) ∧
          generation.stage = .selected ∧ generation.selection = []) := by
  refine ⟨fun failure hfailure ↦ ?_, fun target text located hfound ↦ ?_,
    fun options script declaration hscript hempty ↦ ?_⟩
  · have hfails := fails_of_execute hparser hfailure
    exact ⟨hfails.isFault_eq_false, hfails⟩
  · exact isCuttable_of_findStruct hparser hfound
  · obtain ⟨hleft, generation, hselect, hselected⟩ :=
      selectByScript_of_no_candidates script hempty
    exact ⟨hleft, generation, by simp only [selectFor, hscript, hselect], hselected⟩

/-- A name that no field has, asked for in a struct with a field and in one without. -/
theorem execute_fails_of_unknown_name :
    let files : FileMap :=
      ⟨[("a.rs", "struct S \x7b é: u8 \x7d".toUTF8), ("b.rs", "struct T;".toUTF8)]⟩
    let words (file : String) : List String := ["generate", file, "--select", "b"]
    let ending (file : String) := standard.execute (words file) ⟨none, none⟩ files []
    let failure : Failure := .run (.generation (.selection (.unknownName "b")))
    let options : GenerateOptions :=
      ⟨⟨"b.rs", none, none, 1⟩, ⟨.text, false⟩, false, false, some ["b"], false⟩
    let fieldless : Source.Located :=
      ⟨⟨"T", none, .unit⟩, ⟨0, ⟨0, 0⟩⟩, ⟨9, ⟨0, 9⟩⟩, ""⟩
    standard.parser.Fits ∧ (ending "a.rs").result = .error failure ∧
      failure.isFault = false ∧ standard.Fails (words "a.rs") ⟨none, none⟩ files [] failure ∧
      (ending "b.rs").result = .ok () ∧
      standard.findStruct options.target files = .ok ("struct T;", fieldless) ∧
      fieldless.IsCuttable "struct T;" ∧
      ∃ generation, selectFor options [] (Generation.start fieldless.declaration) =
        (.ok generation, .nothing) := by
  intro files words ending failure options fieldless
  have hparser : standard.parser.Fits := Source.Parser.fits_lenient
  have hfailure : (ending "a.rs").result = .error failure := by decide +kernel
  have hfound : standard.findStruct options.target files = .ok ("struct T;", fieldless) := by
    decide +kernel
  obtain ⟨hfails, hcuttable, hunasked⟩ :=
    execute_fails standard hparser (words "a.rs") ⟨none, none⟩ files []
  obtain ⟨-, generation, hselect, -⟩ :=
    hunasked options (.names ["b"]) fieldless.declaration rfl rfl
  exact ⟨hparser, hfailure, (hfails failure hfailure).1, (hfails failure hfailure).2,
    by decide +kernel, hfound, hcuttable _ _ _ hfound, generation, hselect⟩

end Program

end Command

end Memberwise
