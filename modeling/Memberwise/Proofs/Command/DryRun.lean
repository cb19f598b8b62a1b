import Memberwise.Proofs.Command.Effect
import Memberwise.Proofs.FileMap.Directory
import Memberwise.Proofs.Insertion.Point
import Memberwise.Proofs.Source.CursorChoice

/-!
# Dry runs

A dry run stops before the file is touched, and a run does three things more: it finds the place of
the block, replaces the file and records the insertion. None of them can fail. The declaration ends
on a boundary of the text, the file still holds the text that was read, and what was emitted can be
recorded. The block is printed as it is inserted, because it is written with characters of the
source and with visible ASCII, which no output takes away.

The main statement: a dry run shows exactly what the run would insert, and both end alike.
-/

namespace Memberwise

open Text (Over)

/-! ## The selection -/

/-- What selecting for a declaration can come to when it does not fail: the selection is cancelled,
or candidates are selected. -/
structure Generation.Decided (declaration : Declaration) (generation : Generation) : Prop where
  analysis_eq : generation.analysis = declaration.analysis
  stage : generation.stage = .cancelled ∨
    generation.stage = .selected ∧ generation.selection ⊆ declaration.analysis.candidates

namespace Generation.Decided

variable {declaration : Declaration} {generation : Generation}

theorem of_select {σ : Type} {presenter : Presenter σ} {state next : σ} {stage : Stage}
    (h : (start declaration).select presenter state = (.ok stage, generation, next)) :
    Decided declaration generation := by
  rcases hrequest : Selection.request presenter declaration.analysis.candidates state with
    ⟨cause | ⟨chosen⟩ | ⟨⟩, after⟩
  · rw [select_of_error rfl hrequest] at h
    simp at h
  · rw [select_of_selected rfl hrequest] at h
    simp only [Prod.mk.injEq] at h
    obtain ⟨-, rfl, -⟩ := h
    exact ⟨rfl, Or.inr ⟨rfl, (Selection.sublist_of_request_eq_selected hrequest).subset⟩⟩
  · rw [select_of_cancelled rfl hrequest] at h
    simp only [Prod.mk.injEq] at h
    obtain ⟨-, rfl, -⟩ := h
    exact ⟨rfl, Or.inl rfl⟩

/-- What was selected can be emitted. -/
theorem emit_eq (h : Decided declaration generation) (hstage : generation.stage ≠ .cancelled) :
    generation.emit = (.ok (constructorFor declaration.analysis generation.selection),
      { generation with stage := .emitted }) := by
  obtain ⟨hselected, hsubset⟩ := h.stage.resolve_left hstage
  refine emit_of_constructor hselected ?_
  rw [h.analysis_eq]
  exact constructor?_of_subset hsubset

end Generation.Decided

namespace Command

theorem decided_of_selectByScript {script : Script} {declaration : Declaration}
    {generation : Generation}
    (h : selectByScript script (Generation.start declaration) = .ok generation) :
    generation.Decided declaration := by
  rw [selectByScript] at h
  split at h
  · simp at h
  · rename_i stage next state hselect
    have hdecided := Generation.Decided.of_select hselect
    split at h
    · exact Except.ok.inj h ▸ hdecided
    · split at h
      · simp at h
      · exact Except.ok.inj h ▸ hdecided

theorem decided_of_selectAtPrompt {input : List UInt8} {declaration : Declaration}
    {generation : Generation}
    (h : (selectAtPrompt input (Generation.start declaration)).1 = .ok generation) :
    generation.Decided declaration := by
  rw [selectAtPrompt] at h
  split at h
  rename_i result next after hselect
  split at h
  · simp at h
  · exact Except.ok.inj h ▸ Generation.Decided.of_select hselect

theorem decided_of_selectFor {options : GenerateOptions} {input : List UInt8}
    {declaration : Declaration} {generation : Generation} {asked : Printed}
    (h : selectFor options input (Generation.start declaration) = (.ok generation, asked)) :
    generation.Decided declaration := by
  rw [selectFor] at h
  split at h
  · exact decided_of_selectByScript (congrArg Prod.fst h)
  · exact decided_of_selectAtPrompt (congrArg Prod.fst h)

/-- Questions are no output. -/
theorem selectFor_output (options : GenerateOptions) (input : List UInt8)
    (generation : Generation) : (selectFor options input generation).2.output = "" := by
  rw [selectFor]
  split
  · rfl
  · rw [selectAtPrompt]
    split
    split <;> rfl

theorem found_output (verbose : Bool) (located : Source.Located) :
    (Printed.found verbose located).output = "" := by
  cases verbose <;> rfl

/-! ## The block -/

/-- Whether every output shows the character: it is no control character, or one of layout. -/
def isWritten (c : Char) : Bool :=
  !Text.ControlState.isControl c || Text.ControlState.isLayout c

/-- Every output shows the text as it is. -/
abbrev Written (text : List Char) : Prop := Over (fun c ↦ isWritten c = true) text

theorem withoutControl_eq_self_of_written {text : String} (h : Written text.toList) :
    Text.withoutControl text = text := by
  refine Text.withoutControl_eq_self fun c hc ↦ ?_
  simpa [isWritten] using h c hc

theorem isWritten_of_isGraphic {c : Char} (h : Text.isGraphic c = true) : isWritten c = true := by
  simp only [Text.isGraphic, Bool.and_eq_true, decide_eq_true_eq] at h
  have hcontrol : Text.ControlState.isControl c = false := by
    simp only [Text.ControlState.isControl, Bool.or_eq_false_iff, decide_eq_false_iff_not,
      beq_eq_false_iff_ne]
    omega
  simp [isWritten, hcontrol]

section Block

variable {text : String} {located : Source.Located}

theorem written_block (h : located.ReadFrom (fun c ↦ isWritten c = true) text.toList)
    (selected : List Candidate) :
    Written (located.block
      (Generation.constructorFor located.declaration.analysis selected)).toList := by
  have hfeed : isWritten '\n' = true := rfl
  have hblock :=
    Declaration.over_implBlock (fun _ ↦ isWritten_of_isGraphic) hfeed h.declaration selected
  rw [Source.Located.block, Insertion.indentBlock]
  split
  · exact hblock
  · rw [String.toList_ofList]
    exact Text.over_indentLines hfeed h.indent hblock

/-- Every declaration that ends on a boundary has a place for its block. -/
theorem exists_insertion? (h : located.stop.IsBoundary text.toList) :
    ∃ point before after, Insertion.point? text located.stop.offset = some point ∧
      Text.splitAt? point text.toList = some (before, after) ∧
      ∀ built, located.insertion? text built =
        some (Insertion.between before (located.block built).toList after) := by
  obtain ⟨front, back, hcut, -⟩ := h.exists_splitAt?
  obtain ⟨point, before, after, hpoint, hsplit, hsplice⟩ := Insertion.exists_splice? hcut
  refine ⟨point, before, after, hpoint, hsplit, fun built ↦ ?_⟩
  rw [Source.Located.insertion?, hpoint, Option.bind_some, hsplice]

end Block

namespace Program

variable {program : Program} {text : String} {located : Source.Located}

/-! ## The struct that is found -/

theorem readSource_eq_ok {path : String} {files : FileMap} {source : Source.SourceFile}
    (h : program.readSource path files = .ok source) :
    files.readText? path = some source.text ∧
      Source.SourceFile.parse program.parser source.text = .ok source := by
  rw [readSource] at h
  split at h
  · simp at h
  · rename_i text hread
    split at h
    · simp at h
    · rename_i parsed hparse
      obtain rfl := Except.ok.inj h
      obtain ⟨-, rfl, -⟩ := Source.SourceFile.parse_eq_ok hparse
      exact ⟨hread, hparse⟩

/-- What is found is one of the structs in the text of the file. -/
theorem findStruct_eq_ok {target : Target} {files : FileMap}
    (h : program.findStruct target files = .ok (text, located)) :
    ∃ source structs, files.readText? target.file = some text ∧
      Source.SourceFile.parse program.parser text = .ok source ∧
      source.structs? = some structs ∧ located ∈ structs := by
  rw [findStruct] at h
  split at h
  · simp at h
  · rename_i source hsource
    obtain ⟨hread, hparse⟩ := readSource_eq_ok hsource
    split at h
    · simp at h
    · simp at h
    · rename_i found hfound
      obtain ⟨rfl, rfl⟩ := Prod.mk.inj (Except.ok.inj h)
      obtain ⟨structs, hstructs, hpick⟩ := Option.map_eq_some_iff.mp hfound
      exact ⟨source, structs, hread, hparse, hstructs, Source.Locator.mem_of_pick hpick⟩

theorem readFrom_of_findStruct (hparser : program.parser.Fits) {p : Char → Prop}
    (hp : ∀ c, Text.isGraphic c = true → p c) {target : Target} {files : FileMap}
    (h : program.findStruct target files = .ok (text, located)) (htext : Over p text.toList) :
    located.ReadFrom p text.toList := by
  obtain ⟨source, structs, -, hparse, hstructs, hmem⟩ := findStruct_eq_ok h
  obtain ⟨others, hothers, hread⟩ :=
    Source.SourceFile.exists_structs?_of_over hparser hparse hp htext
  obtain rfl : structs = others := Option.some.inj (hstructs.symm.trans hothers)
  exact hread located hmem

/-! ## The two runs -/

section Runs

variable {options : GenerateOptions} {files : FileMap} {input : List UInt8}
  {generation emitted : Generation} {asked : Printed} {built : Constructor}

/-! Nothing up to the selection asks whether the run is dry. -/

theorem runGenerate_unfound {cause : RunError}
    (hfound : program.findStruct options.target files = .error cause) (dryRun verbose : Bool) :
    program.runGenerate { options with dryRun } verbose files input =
      ⟨.error cause, .nothing, files⟩ := by
  simp only [runGenerate, hfound]

theorem runGenerate_unselected {cause : RunError}
    (hfound : program.findStruct options.target files = .ok (text, located))
    (hselect : selectFor options input (Generation.start located.declaration) =
      (.error cause, asked)) (dryRun verbose : Bool) :
    program.runGenerate { options with dryRun } verbose files input =
      ⟨.error cause, Printed.found verbose located ++ asked, files⟩ := by
  change selectFor { options with dryRun } input _ = _ at hselect
  simp only [runGenerate, hfound, hselect]

theorem runGenerate_cancelled
    (hfound : program.findStruct options.target files = .ok (text, located))
    (hselect : selectFor options input (Generation.start located.declaration) =
      (.ok generation, asked))
    (hstage : generation.stage = .cancelled) (dryRun verbose : Bool) :
    program.runGenerate { options with dryRun } verbose files input =
      ⟨.ok (), Printed.found verbose located ++ asked ++ reportCancelled options, files⟩ := by
  change selectFor { options with dryRun } input _ = _ at hselect
  simp only [runGenerate, hfound, hselect, draftOf, hstage, if_true, carryOut]
  rfl

theorem runGenerate_shown
    (hfound : program.findStruct options.target files = .ok (text, located))
    (hselect : selectFor options input (Generation.start located.declaration) =
      (.ok generation, asked))
    (hstage : generation.stage ≠ .cancelled) (hemit : generation.emit = (.ok built, emitted))
    (verbose : Bool) :
    program.runGenerate { options with dryRun := true } verbose files input =
      ⟨.ok (), Printed.found verbose located ++ asked ++ reportShown options located built,
        files⟩ := by
  change selectFor { options with dryRun := true } input _ = _ at hselect
  simp only [runGenerate, hfound, hselect, draftOf, hstage, if_false, hemit, if_true, carryOut]
  rfl

/-- The file that the text was read from is replaced, and nothing can fail. -/
theorem runGenerate_inserted
    (hfound : program.findStruct options.target files = .ok (text, located))
    (hselect : selectFor options input (Generation.start located.declaration) =
      (.ok generation, asked))
    (hstage : generation.stage ≠ .cancelled) (hemit : generation.emit = (.ok built, emitted))
    {insertion : Insertion} (hinsertion : located.insertion? text built = some insertion)
    (hproper : files.Proper) (verbose : Bool) :
    let real := program.runGenerate { options with dryRun := false } verbose files input
    real.result = .ok () ∧ real.files.readText? options.target.file = some insertion.text := by
  obtain ⟨_, _, hread, -⟩ := findStruct_eq_ok hfound
  have happlication := hproper.application program.naming options.target.file text insertion
  rcases happly : files.applyBy program.naming options.target.file text insertion with
    ⟨result, after⟩
  simp only [happly] at happlication
  cases happlication with
  | written _ hresolve hafter =>
    change selectFor { options with dryRun := false } input _ = _ at hselect
    simp only [runGenerate, hfound, hselect, draftOf, hstage, if_false, hemit,
      Bool.false_eq_true, hinsertion, carryOut, happly, concludeInsertion_fst hemit, true_and]
    exact hafter.readText?_eq hresolve
  | changed hother hne => exact absurd (Option.some.inj (hother.symm.trans hread)) hne
  | unreadable hnone => simp [hread] at hnone

/-- A dry run prints the block, and nothing else goes to its output. -/
theorem output_shown (hformat : options.display.asJson = false)
    (hselect : selectFor options input (Generation.start located.declaration) =
      (.ok generation, asked))
    (hblock : Written (located.block built).toList) (verbose : Bool) :
    (Printed.found verbose located ++ asked ++ reportShown options located built).output =
      located.block built ++ "\n" := by
  have hasked : asked.output = "" := by
    have houtput := selectFor_output options input (Generation.start located.declaration)
    rwa [hselect] at houtput
  have hline : Written (located.block built ++ "\n").toList := by
    rw [String.toList_append]
    exact Text.over_append.mpr ⟨hblock, Text.over_cons.mpr ⟨rfl, Text.over_nil⟩⟩
  show (Printed.found verbose located).output ++ asked.output ++
    (reportShown options located built).output = _
  rw [found_output, hasked, reportShown, if_neg (by simp [hformat]), Printed.onOutput,
    withoutControl_eq_self_of_written hline, String.empty_append, String.empty_append]

end Runs

/-- A dry run ends like the run, and both end well once the selection is made. It shows the block
that the run inserts: behind an empty line, at the place for a block behind the declaration. -/
theorem runGenerate_dryRun (program : Program) (hparser : program.parser.Fits)
    (options : GenerateOptions) (verbose : Bool) {files : FileMap} (input : List UInt8)
    (hproper : files.Proper) (hformat : options.display.asJson = false)
    (hwritten : ∀ text, files.readText? options.target.file = some text →
      Written text.toList) :
    let dry := program.runGenerate { options with dryRun := true } verbose files input
    let real := program.runGenerate { options with dryRun := false } verbose files input
    dry.result = real.result ∧
      (∀ text located generation, program.findStruct options.target files = .ok (text, located) →
        (selectFor options input (Generation.start located.declaration)).1 = .ok generation →
        dry.result = .ok ()) ∧
      (program.Cancels { options with dryRun := true } files input ↔
        program.Cancels { options with dryRun := false } files input) ∧
      (program.Cancels options files input → dry = real) ∧
      (dry.result = .ok () → ¬ program.Cancels options files input →
        ∃ text located point before after block,
          program.findStruct options.target files = .ok (text, located) ∧
          Insertion.point? text located.stop.offset = some point ∧
          Text.splitAt? point text.toList = some (before, after) ∧
          dry.printed.output = block ++ "\n" ∧ dry.files = files ∧
          files.readText? options.target.file = some text ∧
          real.files.readText? options.target.file =
            some (String.ofList (before ++ Insertion.emptyLine ++ block.toList ++ after))) := by
  intro dry real
  cases hfound : program.findStruct options.target files with
  | error cause =>
    have hrun : ∀ dryRun, program.runGenerate { options with dryRun } verbose files input =
        ⟨.error cause, .nothing, files⟩ := fun dryRun ↦ runGenerate_unfound hfound dryRun verbose
    have heq : dry = real := (hrun true).trans (hrun false).symm
    refine ⟨congrArg Outcome.result heq, by simp, Iff.rfl, fun _ ↦ heq, fun hok ↦ ?_⟩
    simp [dry, hrun true] at hok
  | ok found =>
    obtain ⟨text, located⟩ := found
    rcases hselect : selectFor options input (Generation.start located.declaration) with
      ⟨cause | generation, asked⟩
    · have hrun := runGenerate_unselected hfound hselect
      have heq : dry = real := (hrun true verbose).trans (hrun false verbose).symm
      refine ⟨congrArg Outcome.result heq, ?_, Iff.rfl, fun _ ↦ heq, fun hok ↦ ?_⟩
      · rintro _ _ generation ⟨⟩ hselected
        simp [hselect] at hselected
      · simp [dry, hrun true verbose] at hok
    have hcancels : program.Cancels options files input ↔ generation.stage = .cancelled :=
      cancels_iff hfound (congrArg Prod.fst hselect)
    by_cases hstage : generation.stage = .cancelled
    · have hrun := runGenerate_cancelled hfound hselect hstage
      have heq : dry = real := (hrun true verbose).trans (hrun false verbose).symm
      have hok : dry.result = .ok () := congrArg Outcome.result (hrun true verbose)
      exact ⟨congrArg Outcome.result heq, fun _ _ _ _ _ ↦ hok, Iff.rfl, fun _ ↦ heq,
        fun _ hnot ↦ absurd (hcancels.mpr hstage) hnot⟩
    · have hemit := (decided_of_selectFor hselect).emit_eq hstage
      obtain ⟨_, _, hread, -⟩ := findStruct_eq_ok hfound
      have hreadFrom := readFrom_of_findStruct hparser (fun _ ↦ isWritten_of_isGraphic) hfound
        (hwritten text hread)
      obtain ⟨point, before, after, hpoint, hsplit, hinsertion⟩ := exists_insertion? hreadFrom.stop
      have hdry : dry = _ := runGenerate_shown hfound hselect hstage hemit verbose
      have hok : dry.result = .ok () := congrArg Outcome.result hdry
      obtain ⟨hresult, hafter⟩ :=
        runGenerate_inserted hfound hselect hstage hemit (hinsertion _) hproper verbose
      have hblock := written_block hreadFrom generation.selection
      refine ⟨hok.trans hresult.symm, fun _ _ _ _ _ ↦ hok, Iff.rfl,
        fun h ↦ absurd (hcancels.mp h) hstage, fun _ _ ↦ ?_⟩
      refine ⟨text, located, point, before, after, _, rfl, hpoint, hsplit, ?_,
        congrArg Outcome.files hdry, hread, hafter⟩
      rw [hdry]
      exact output_shown hformat hselect hblock verbose

/-- A struct in a module, with a comment behind it, for which the first field is chosen. -/
theorem runGenerate_dryRun_of_one_struct :
    let files : FileMap :=
      ⟨[("a.rs", "mod m \x7b\n    struct S(u8, T); // both\n\x7d\n".toUTF8)]⟩
    let options : GenerateOptions :=
      ⟨⟨"a.rs", none, none, 1⟩, ⟨.text, false⟩, false, false, none, false⟩
    let input : List UInt8 := "1\n".toUTF8.toList
    let dry := standard.runGenerate { options with dryRun := true } true files input
    let real := standard.runGenerate { options with dryRun := false } true files input
    dry.result = real.result ∧ ∃ before after block, dry.printed.output = block ++ "\n" ∧
      real.files.readText? "a.rs" =
        some (String.ofList (before ++ Insertion.emptyLine ++ block.toList ++ after)) := by
  intro files options input dry real
  have hwritten : ∀ text, files.readText? "a.rs" = some text → Written text.toList := by
    intro text htext
    have hread : files.readText? "a.rs" =
        some "mod m \x7b\n    struct S(u8, T); // both\n\x7d\n" := by decide +kernel
    rw [← Option.some.inj (hread.symm.trans htext)]
    exact List.all_eq_true.mp (by decide +kernel)
  obtain ⟨hresult, -, -, -, hshown⟩ :=
    runGenerate_dryRun standard Source.Parser.fits_lenient options true input (by decide +kernel)
      rfl hwritten
  obtain ⟨_, _, _, before, after, block, -, -, -, houtput, -, -, hafter⟩ :=
    hshown (by decide +kernel) (by decide +kernel)
  exact ⟨hresult, before, after, block, houtput, hafter⟩

end Program

end Command

end Memberwise
