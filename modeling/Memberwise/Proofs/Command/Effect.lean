import Memberwise.Command.Execution
import Memberwise.Proofs.FileMap.Replacement
import Mathlib.Data.List.Basic

/-!
# What a command line does to files

The one write of a run stands in the middle: reading, locating, selecting and emitting come before
it and may fail, and the insertion is recorded and reported after it. That nothing fails behind the
write rests on the stages: what was drafted for insertion was emitted, so it can be recorded.

The main statement: files change only if a constructor was inserted, and then one file alone, which
holds the text of the insertion.
-/

namespace Memberwise

theorem Insertion.text_ne_of_splice? {source block : String} {offset : Nat} {insertion : Insertion}
    (h : splice? source offset block = some insertion) : insertion.text ≠ source := by
  obtain ⟨⟨front, back⟩, hcut, rfl⟩ := Option.map_eq_some_iff.mp h
  have hsource : front ++ back = source.toList := (Text.append_eq_of_splitAt?_eq_some hcut).1
  intro heq
  have htext : front ++ emptyLine ++ block.toList ++ back = front ++ back := by
    rw [hsource, ← heq, between, String.toList_ofList]
  have hlength := congrArg List.length htext
  simp only [List.length_append, emptyLine, List.length_cons, List.length_nil] at hlength
  omega

namespace Command

namespace Program

/-- The selection for the struct that the options name is cancelled. -/
def Cancels (program : Program) (options : GenerateOptions) (files : FileMap)
    (input : List UInt8) : Prop :=
  ∃ text located generation,
    program.findStruct options.target files = .ok (text, located) ∧
    (selectFor options input (Generation.start located.declaration)).1 = .ok generation ∧
    generation.stage = .cancelled

/-- `after` is `before` with the constructor inserted that the options and the input ask for: in the
file that the target names, and nowhere else. -/
def Inserts (program : Program) (options : GenerateOptions) (input : List UInt8)
    (before after : FileMap) : Prop :=
  ∃ text located generation built insertion names,
    program.findStruct options.target before = .ok (text, located) ∧
    (selectFor options input (Generation.start located.declaration)).1 = .ok generation ∧
    generation.emit.1 = .ok built ∧
    located.insertion? text built = some insertion ∧
    insertion.text ≠ text ∧
    before.resolve options.target.file = some names ∧
    before.Rewrites (FileMap.pathOfNames names) insertion.text.toUTF8 after ∧
    after.readText? options.target.file = some insertion.text

/-- What a run of `generate` can come to, by its result and the files afterwards. -/
inductive Effect (program : Program) (options : GenerateOptions) (input : List UInt8)
    (files : FileMap) : Except RunError Unit → FileMap → Prop where
  | failed (cause : RunError) : Effect program options input files (.error cause) files
  | cancelled (h : program.Cancels options files input) :
      Effect program options input files (.ok ()) files
  | shown (h : options.dryRun = true) : Effect program options input files (.ok ()) files
  | inserted {after : FileMap} (hdry : options.dryRun = false)
      (hcancels : ¬ program.Cancels options files input)
      (h : program.Inserts options input files after) :
      Effect program options input files (.ok ()) after

variable {program : Program}

theorem cancels_iff {options : GenerateOptions} {files : FileMap} {input : List UInt8}
    {text : String} {located : Source.Located} {generation : Generation}
    (hfound : program.findStruct options.target files = .ok (text, located))
    (hselected :
      (selectFor options input (Generation.start located.declaration)).1 = .ok generation) :
    program.Cancels options files input ↔ generation.stage = .cancelled := by
  constructor
  · rintro ⟨otherText, otherLocated, otherGeneration, hotherFound, hotherSelected, hstage⟩
    obtain ⟨rfl, rfl⟩ : text = otherText ∧ located = otherLocated := by
      simpa using hfound.symm.trans hotherFound
    obtain rfl : generation = otherGeneration := by
      simpa using hselected.symm.trans hotherSelected
    exact hstage
  · intro hstage
    exact ⟨text, located, generation, hfound, hselected, hstage⟩

instance (program : Program) (options : GenerateOptions) (files : FileMap)
    (input : List UInt8) : Decidable (program.Cancels options files input) :=
  match hfound : program.findStruct options.target files with
  | .error _ => isFalse fun ⟨_, _, _, hother, _⟩ ↦ by simp [hfound] at hother
  | .ok (_, located) =>
    match hselected : (selectFor options input (Generation.start located.declaration)).1 with
    | .error _ => isFalse fun ⟨_, other, _, hother, hselects, _⟩ ↦ by
      obtain rfl : located = other := by simp [hfound] at hother; exact hother.2
      simp [hselected] at hselects
    | .ok _ => decidable_of_iff _ (cancels_iff hfound hselected).symm

end Program

/-! ## Drafts -/

theorem draftOf_eq_cancelled {options : GenerateOptions} {text : String}
    {located : Source.Located} {generation : Generation}
    (h : draftOf options text located generation = .ok .cancelled) :
    generation.stage = .cancelled := by
  rw [draftOf] at h
  split at h
  · assumption
  split at h
  · simp at h
  split at h
  · simp at h
  split at h <;> simp at h

theorem draftOf_eq_shown {options : GenerateOptions} {text : String} {located : Source.Located}
    {generation : Generation} {built : Constructor}
    (h : draftOf options text located generation = .ok (.shown built)) :
    options.dryRun = true := by
  rw [draftOf] at h
  split at h
  · simp at h
  split at h
  · simp at h
  split at h
  · assumption
  split at h <;> simp at h

theorem draftOf_eq_insert {options : GenerateOptions} {text : String} {located : Source.Located}
    {generation emitted : Generation} {built : Constructor} {insertion : Insertion}
    (h : draftOf options text located generation = .ok (.insert emitted built insertion)) :
    generation.stage ≠ .cancelled ∧ generation.emit = (.ok built, emitted) ∧
      options.dryRun = false ∧ located.insertion? text built = some insertion := by
  rw [draftOf] at h
  split at h
  · simp at h
  rename_i hstage
  split at h
  · simp at h
  rename_i result next hemit
  split at h
  · simp at h
  rename_i hdry
  split at h
  · simp at h
  rename_i placed hplaced
  simp only [Except.ok.injEq, Draft.insert.injEq] at h
  obtain ⟨rfl, rfl, rfl⟩ := h
  exact ⟨hstage, hemit, by simpa using hdry, hplaced⟩

/-- An emitted constructor can be recorded, so nothing fails once the file is written. -/
theorem concludeInsertion_fst {options : GenerateOptions} {generation emitted : Generation}
    {built : Constructor} {insertion : Insertion} (hemit : generation.emit = (.ok built, emitted)) :
    (concludeInsertion options emitted built insertion).1 = .ok () := by
  obtain ⟨_, _, rfl⟩ := Generation.emit_eq_ok_iff.mp hemit
  rw [concludeInsertion, Generation.markInserted_of_stage_eq rfl]

theorem splice?_of_insertion? {located : Source.Located} {text : String} {built : Constructor}
    {insertion : Insertion} (h : located.insertion? text built = some insertion) :
    ∃ offset, Insertion.splice? text offset (located.block built) = some insertion := by
  obtain ⟨offset, _, hsplice⟩ := Option.bind_eq_some_iff.mp h
  exact ⟨offset, hsplice⟩

/-! ## The parts of a run -/

namespace Program

variable {program : Program}

theorem runFields_files (program : Program) (options : FieldsOptions) (verbose : Bool)
    (files : FileMap) : (program.runFields options verbose files).files = files := by
  rw [runFields]
  split <;> rfl

/-- Drafts of an insertion are the only ones that reach the files. -/
theorem carryOut_effect {options : GenerateOptions} {input : List UInt8} {files : FileMap}
    {text : String} {located : Source.Located} {generation : Generation} {draft : Draft}
    (hfound : program.findStruct options.target files = .ok (text, located))
    (hselected :
      (selectFor options input (Generation.start located.declaration)).1 = .ok generation)
    (hdraft : draftOf options text located generation = .ok draft) :
    program.Effect options input files (program.carryOut options text located files draft).result
      (program.carryOut options text located files draft).files := by
  have hcancels := cancels_iff hfound hselected
  cases draft with
  | cancelled => exact .cancelled (hcancels.mpr (draftOf_eq_cancelled hdraft))
  | shown built => exact .shown (draftOf_eq_shown hdraft)
  | insert emitted built insertion =>
    obtain ⟨hstage, hemit, hdry, hinsertion⟩ := draftOf_eq_insert hdraft
    rw [carryOut]
    rcases happly : files.applyBy program.naming options.target.file text insertion with
      ⟨cause | ⟨⟩, after⟩
    · rw [FileMap.applyBy_eq_error happly]
      exact .failed (.file cause)
    · obtain ⟨_, names, hresolve, hrewrites⟩ := FileMap.applyBy_eq_ok happly
      obtain ⟨offset, hsplice⟩ := splice?_of_insertion? hinsertion
      have hchanged := Insertion.text_ne_of_splice? hsplice
      simp only [concludeInsertion_fst hemit]
      exact .inserted hdry (mt hcancels.mp hstage)
        ⟨text, located, generation, built, insertion, names, hfound, hselected, by rw [hemit],
          hinsertion, hchanged, hresolve, hrewrites, hrewrites.readText?_eq hresolve⟩

theorem runGenerate_effect (program : Program) (options : GenerateOptions) (verbose : Bool)
    (files : FileMap) (input : List UInt8) :
    program.Effect options input files (program.runGenerate options verbose files input).result
      (program.runGenerate options verbose files input).files := by
  rw [runGenerate]
  split
  · exact .failed _
  rename_i text located hfound
  split
  · exact .failed _
  rename_i generation asked hselect
  split
  · exact .failed _
  rename_i draft hdraft
  exact carryOut_effect hfound (congrArg Prod.fst hselect) hdraft

/-! ## Command lines -/

/-- The command line is understood as `generate` without `--dry-run`, and its execution ends well
without the selection being cancelled. -/
structure Edits (program : Program) (words : List String) (environment : Environment)
    (files : FileMap) (input : List UInt8) (options : GenerateOptions) : Prop where
  understood : ∃ verbose, program.arguments words environment = .ok ⟨.generate options, verbose⟩
  dryRun_eq : options.dryRun = false
  result_eq : (program.execute words environment files input).result = .ok ()
  not_cancels : ¬ program.Cancels options files input

theorem execute_files_of_not_generate {words : List String} {environment : Environment}
    (h : ∀ options verbose, program.arguments words environment ≠ .ok ⟨.generate options, verbose⟩)
    (files : FileMap) (input : List UInt8) :
    (program.execute words environment files input).files = files := by
  rw [execute]
  split
  · rfl
  · rename_i invocation hread
    obtain ⟨action, verbose⟩ := invocation
    cases action with
    | fields options => exact runFields_files program options verbose files
    | generate options => exact absurd hread (h options verbose)

theorem execute_effect {words : List String} {environment : Environment}
    {options : GenerateOptions} {verbose : Bool}
    (h : program.arguments words environment = .ok ⟨.generate options, verbose⟩) (files : FileMap)
    (input : List UInt8) :
    ∃ result,
      (program.execute words environment files input).result = result.mapError Failure.run ∧
      program.Effect options input files result
        (program.execute words environment files input).files := by
  rw [execute, h]
  exact ⟨_, rfl, runGenerate_effect program options verbose files input⟩

/-- Files change only if a constructor was inserted, and then the file of the target alone. Every
error leaves all files as they were. -/
theorem execute_files (program : Program) (words : List String) (environment : Environment)
    (files : FileMap) (input : List UInt8) :
    ((¬ ∃ options, program.Edits words environment files input options) →
      (program.execute words environment files input).files = files) ∧
    (∀ options, program.Edits words environment files input options →
      program.Inserts options input files (program.execute words environment files input).files) ∧
    ∀ failure, (program.execute words environment files input).result = .error failure →
      (program.execute words environment files input).files = files := by
  by_cases hgenerate : ∃ options verbose,
      program.arguments words environment = .ok ⟨.generate options, verbose⟩
  · obtain ⟨options, verbose, hread⟩ := hgenerate
    have hsame (others : GenerateOptions)
        (h : program.Edits words environment files input others) : others = options := by
      obtain ⟨_, hothers⟩ := h.understood
      have heq := hothers.symm.trans hread
      simp only [Except.ok.injEq, Invocation.mk.injEq, Action.generate.injEq] at heq
      exact heq.1
    obtain ⟨result, hresult, heffect⟩ := execute_effect hread files input
    generalize (program.execute words environment files input).files = after at heffect ⊢
    cases heffect with
    | failed cause =>
      refine ⟨fun _ ↦ rfl, fun others h ↦ ?_, fun _ _ ↦ rfl⟩
      rw [h.result_eq] at hresult
      simp [Except.mapError] at hresult
    | cancelled hcancels =>
      refine ⟨fun _ ↦ rfl, fun others h ↦ ?_, fun _ _ ↦ rfl⟩
      obtain rfl := hsame others h
      exact absurd hcancels h.not_cancels
    | shown hdry =>
      refine ⟨fun _ ↦ rfl, fun others h ↦ ?_, fun _ _ ↦ rfl⟩
      obtain rfl := hsame others h
      simp [h.dryRun_eq] at hdry
    | inserted hdry hcancels hinserts =>
      refine ⟨fun h ↦ ?_, fun others h ↦ ?_, fun failure hfailure ↦ ?_⟩
      · exact absurd ⟨options, ⟨verbose, hread⟩, hdry, hresult, hcancels⟩ h
      · exact hsame others h ▸ hinserts
      · rw [hresult] at hfailure
        simp [Except.mapError] at hfailure
  · have hfiles := execute_files_of_not_generate
      (fun options verbose h ↦ hgenerate ⟨options, verbose, h⟩) files input
    exact ⟨fun _ ↦ hfiles, fun options h ↦ absurd ⟨options, h.understood⟩ hgenerate,
      fun _ _ ↦ hfiles⟩

/-- A run on two files that inserts into one of them, and a run that fails. -/
theorem execute_files_of_one_struct :
    let files : FileMap :=
      ⟨[("a.rs", "struct S;".toUTF8), ("b.rs", "struct T(u8);".toUTF8)]⟩
    let ending (file : String) :=
      standard.execute ["generate", file, "--all"] ⟨none, none⟩ files []
    (∃ options, standard.Inserts options [] files (ending "./b.rs").files) ∧
      (ending "c.rs").files = files := by
  intro files ending
  constructor
  · let options : GenerateOptions :=
      ⟨⟨"./b.rs", none, none, 1⟩, ⟨.text, false⟩, true, false, none, false⟩
    refine ⟨options, (execute_files standard _ _ _ _).2.1 options ⟨⟨false, ?_⟩, rfl, ?_, ?_⟩⟩
    · rfl
    · decide +kernel
    · decide +kernel
  · refine (execute_files standard _ _ _ _).2.2 (.run (.file (.unreadable "c.rs"))) ?_
    decide +kernel

end Program

end Command

end Memberwise
