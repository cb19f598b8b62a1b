import Memberwise.Command.Report
import Memberwise.Proofs.Generation.Naming

/-!
# Numbers of candidates

A candidate is numbered in the report of its struct and once more at the prompt, and chosen by a
number there. The report counts its position, the prompt its place in the list that is shown, and an
answer is counted back to a place in the list that was given. All these are the same, because the
position of every candidate is its index.
-/

namespace Memberwise

/-! ## Numbered lines -/

/-- The line for a candidate: its number, aligned to the right in three places or more, and its
label. -/
def Candidate.numberedLine (index : Nat) (candidate : Candidate) : List Char :=
  let number := Text.decimal (index + 1)
  List.replicate (3 - number.length) ' ' ++ number ++ ['.', ' '] ++ candidate.label.toList ++ ['\n']

theorem Prompt.listing_eq_numberedLines (structName : String) (candidates : List Candidate) :
    listing structName false candidates =
      titleLine structName false ++ (candidates.mapIdx Candidate.numberedLine).flatten := by
  have hline : candidateLine false = Candidate.numberedLine := by
    funext index candidate
    simp [candidateLine, numberText, Text.alignRight, Candidate.numberedLine, Text.decimal]
  rw [listing, hline]

namespace Command.Report

theorem toList_candidateLine (candidate : Candidate) :
    (candidateLine candidate).toList = candidate.numberedLine candidate.position := by
  simp [candidateLine, Text.alignRight, Candidate.numberedLine, Text.decimal]

/-- Where the position of every candidate is its index, either can be counted. -/
theorem toList_candidatesText (file : String) (line : Nat) {analysis : Analysis}
    (h : Selection.Positioned analysis.candidates) :
    (candidatesText file line analysis).toList =
      (candidatesHeader file line analysis).toList ++
        (analysis.candidates.mapIdx Candidate.numberedLine).flatten := by
  have hlines : (analysis.candidates.map candidateLine).map String.toList =
      analysis.candidates.mapIdx Candidate.numberedLine := by
    apply List.ext_getElem
    · simp
    · intro i hleft hright
      have hi : i < analysis.candidates.length := by simpa using hleft
      have hposition : analysis.candidates[i].position = i := h ⟨i, hi⟩
      rw [List.getElem_map, List.getElem_map, List.getElem_mapIdx, toList_candidateLine, hposition]
  rw [candidatesText, String.toList_append, String.toList_join, List.flatMap_def, hlines]

end Command.Report

/-! ## Numbers as answers -/

theorem Selection.atPositions_singleton {candidates : List Candidate} (i : Fin candidates.length) :
    atPositions candidates [i.val] = [candidates.get i] := by
  have hindex : (fun j : Fin candidates.length ↦ decide (j.val ∈ [i.val])) =
      fun j ↦ decide (j = i) := by
    funext j
    simp [Fin.ext_iff]
  rw [atPositions, hindex, List.filter_eq,
    List.count_eq_one_of_mem (List.nodup_finRange _) (List.mem_finRange i)]
  rfl

/-- A number alone is read, whatever blanks are around it. -/
theorem Answer.read_of_number {candidates : List Candidate} {before behind : List Char}
    (hcount : candidates.length < Text.numeralLimit) (i : Fin candidates.length)
    (hbefore : ∀ c ∈ before, Text.isBlank c = true) (hbehind : ∀ c ∈ behind, Text.isBlank c = true)
    (hnumber : ∀ candidate ∈ candidates, candidate.binding ≠ toString (i.val + 1)) :
    read (String.ofList (before ++ Text.decimal (i.val + 1) ++ behind)) candidates =
      .ok (.chosen [i.val]) := by
  let digits := Text.decimal (i.val + 1)
  have hne : digits ≠ [] := Text.decimal_ne_nil (i.val + 1)
  have hfree : ∀ c ∈ digits, isSeparator c = false :=
    fun c hc ↦ isSeparator_of_isDigit (Text.isDigit_of_mem_decimal hc)
  have hvisible : ∀ c ∈ digits, Text.isBlank c = false :=
    fun c hc ↦ (Bool.or_eq_false_iff.mp (hfree c hc)).2
  have htrim : Text.trim (before ++ digits ++ behind) = digits :=
    (Text.IsTrimmed.of_visible hbefore hvisible hbehind).trim_eq
  have hindices : indices candidates [digits] = .ok [i.val] := by
    rw [indices, index_decimal hcount i hnumber]
    rfl
  rw [read, String.toList_ofList, htrim]
  simp only [digits, indexOfName?_decimal hnumber, keyword?_decimal]
  rw [Text.runsBetween_eq_singleton hne hfree, hindices]
  rfl

/-- The input goes on with a line that holds this number and nothing else but blanks. -/
def Prompt.NextNumber (prompt : Prompt) (number : Nat) : Prop :=
  ∃ before behind, (∀ c ∈ before ++ behind, Text.isBlank c = true ∧ c ≠ '\n') ∧
    prompt.NextLine (before ++ Text.decimal number ++ behind)

/-- A number on the next line chooses the candidate that it counts to. -/
theorem Prompt.present_of_nextNumber {prompt : Prompt} {candidates : List Candidate}
    (hcount : candidates.length < Text.numeralLimit) (i : Fin candidates.length)
    (hfree : ∀ candidate ∈ candidates, candidate.binding ≠ toString (i.val + 1))
    (htakes : prompt.Takes candidates) (hnumber : prompt.NextNumber (i.val + 1)) :
    (present candidates prompt).1 = .ok (.chosen [i.val]) := by
  obtain ⟨before, behind, hblank, hline⟩ := hnumber
  have hbefore := fun c hc ↦ hblank c (List.mem_append_left behind hc)
  have hbehind := fun c hc ↦ hblank c (List.mem_append_right before hc)
  have hne : before ++ Text.decimal (i.val + 1) ++ behind ≠ [] := by
    simp [Text.decimal_ne_nil]
  have hfeed : '\n' ∉ before ++ Text.decimal (i.val + 1) ++ behind := by
    simp only [List.mem_append, not_or]
    refine ⟨⟨fun hc ↦ (hbefore _ hc).2 rfl, fun hc ↦ ?_⟩, fun hc ↦ (hbehind _ hc).2 rfl⟩
    exact absurd (Text.isDigit_of_mem_decimal hc) (by decide)
  apply present_of_nextLine htakes hline hne hfeed
  intro blanks hblanks
  rw [List.append_assoc]
  apply Answer.read_of_number hcount i (fun c hc ↦ (hbefore c hc).1) _ hfree
  intro c hc
  rcases List.mem_append.mp hc with hc | hc
  · exact (hbehind c hc).1
  · exact hblanks c hc

/-- Every candidate has one number: the report of its struct and the prompt show it in the same
line, and this number as an answer at the prompt makes the candidate the only parameter, unless the
number is the name of a field. -/
theorem Declaration.generate_of_shown_number (declaration : Declaration)
    (hcount : declaration.body.fields.length < 2 ^ 64) :
    (∀ file line, (Command.Report.candidatesText file line declaration.analysis).toList =
      (Command.Report.candidatesHeader file line declaration.analysis).toList ++
        (declaration.analysis.candidates.mapIdx Candidate.numberedLine).flatten) ∧
    (∀ structName, Prompt.listing structName false declaration.analysis.candidates =
      Prompt.titleLine structName false ++
        (declaration.analysis.candidates.mapIdx Candidate.numberedLine).flatten) ∧
    ∀ i : Fin declaration.analysis.candidates.length,
      (declaration.analysis.candidates.get i).position = i.val ∧
      ((∀ candidate ∈ declaration.analysis.candidates, candidate.binding ≠ toString (i.val + 1)) →
        ∀ prompt : Prompt, prompt.Takes declaration.analysis.candidates →
        prompt.NextNumber (i.val + 1) →
        ∃ built, (declaration.generate Prompt.present prompt).1 = .ok (.emitted built) ∧
          built.parameters = [declaration.analysis.candidates.get i]) := by
  have hpositioned : Selection.Positioned declaration.analysis.candidates :=
    Selection.positioned_candidates declaration.body
  have hlimit : declaration.analysis.candidates.length < Text.numeralLimit :=
    declaration.length_candidates ▸ hcount
  refine ⟨fun file line ↦ Command.Report.toList_candidatesText file line hpositioned,
    fun structName ↦ Prompt.listing_eq_numberedLines structName _,
    fun i ↦ ⟨hpositioned i, fun hfree prompt htakes hnumber ↦ ?_⟩⟩
  have hanswer : (Prompt.present declaration.analysis.candidates prompt).1 =
      .ok (.chosen ([i].map Fin.val)) :=
    Prompt.present_of_nextNumber hlimit i hfree htakes hnumber
  exact ⟨_, generate_fst_of_chosen (List.cons_ne_nil i []) hanswer,
    Selection.atPositions_singleton i⟩

/-- The third of three fields, two of which agree, is named like the number of the first. -/
theorem Declaration.generate_of_shown_number_of_equal_fields :
    let field (name : String) : Field := ⟨some name, some "u8"⟩
    let declaration : Declaration := ⟨"S", none, .named [field "a", field "a", field "1"]⟩
    let lines := "  1. a : u8\n  2. a : u8\n  3. 1 : u8\n".toList
    let typed : Prompt := Prompt.start "S" false none (Prompt.encode " 3\t\r".toList ++ [10])
    (Command.Report.candidatesText "s.rs" 7 declaration.analysis).toList =
        "S (named, 3 fields) s.rs:7\n".toList ++ lines ∧
      Prompt.listing "S" false declaration.analysis.candidates =
        "Generate constructor for S\n".toList ++ lines ∧
      ∃ built, (declaration.generate Prompt.present typed).1 = .ok (.emitted built) ∧
        built.parameters = [⟨2, "1", "1", "u8"⟩] := by
  intro field declaration lines typed
  have hlines :
      (declaration.analysis.candidates.mapIdx Candidate.numberedLine).flatten = lines := by
    decide +kernel
  have hheader : Command.Report.candidatesHeader "s.rs" 7 declaration.analysis =
      "S (named, 3 fields) s.rs:7\n" := by
    decide +kernel
  have htitle : Prompt.titleLine "S" false = "Generate constructor for S\n".toList := by
    decide +kernel
  let third : Fin declaration.analysis.candidates.length := ⟨2, by decide⟩
  have hfree : ∀ candidate ∈ declaration.analysis.candidates,
      candidate.binding ≠ toString (third.val + 1) := by
    decide +kernel
  have htakes : typed.Takes declaration.analysis.candidates := rfl
  have hdigits : [' '] ++ Text.decimal (third.val + 1) ++ ['\t', '\r'] = " 3\t\r".toList := by
    decide +kernel
  have hblank : ([' ', '\t', '\r'].all fun c ↦ Text.isBlank c && c != '\n') = true := by decide
  have htyped : typed.NextNumber (third.val + 1) := by
    refine ⟨[' '], ['\t', '\r'], fun c hc ↦ ?_, ?_⟩
    · simpa using List.all_eq_true.mp hblank c hc
    · rw [hdigits]
      exact ⟨[10], Or.inr rfl, rfl⟩
  obtain ⟨hreport, hlisting, hnumber⟩ := generate_of_shown_number declaration (by decide)
  obtain ⟨built, hbuilt, hparameters⟩ := (hnumber third).2 hfree typed htakes htyped
  refine ⟨?_, ?_, built, hbuilt, hparameters.trans ?_⟩
  · rw [hreport, hlines, hheader]
  · rw [hlisting, hlines, htitle]
  · decide +kernel

end Memberwise
