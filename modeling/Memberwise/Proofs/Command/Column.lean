import Memberwise.Proofs.Command.Reading

/-!
# Columns given on a command line

A column says where on a line the cursor is, so it requires the line. But a name excludes the line,
and a conflict takes precedence: beside a name the column is accepted without a line. Then nothing
looks at it any more, and the name alone picks the struct. This follows from what every parser of
command lines promises, and the reader keeps these promises.
-/

namespace Memberwise.Command

/-! ## The words before a command -/

theorem gives_cons_iff {word : String} {words : List String} (hseparator : word ≠ "--")
    (hword : ∀ (which : Setting) value, word ≠ spelling which.label value) {which : Setting}
    {value : String} : Gives (word :: words) which value ↔ Gives words which value := by
  have hwords : optionWords (word :: words) = word :: optionWords words := by
    simp [optionWords, hseparator]
  constructor
  · rintro (hmem | happart)
    · rw [hwords, List.mem_cons] at hmem
      exact .joined (hmem.resolve_left (hword which _).symm)
    · rw [hwords, List.infix_cons_iff, List.cons_prefix_cons] at happart
      exact .apart (happart.resolve_left fun hprefix ↦ hword which _ hprefix.1.symm)
  · rintro (hmem | happart)
    · exact .joined (hwords ▸ List.mem_cons_of_mem word hmem)
    · exact .apart (hwords ▸ happart.trans (List.suffix_cons word _).isInfix)

theorem names_cons_iff {word : String} {words : List String} (hseparator : word ≠ "--")
    (hword : ∀ (which : Setting) value, word ≠ spelling which.label value) {which : Setting} :
    Names (word :: words) which ↔ Names words which := by
  have hwords : optionWords (word :: words) = word :: optionWords words := by
    simp [optionWords, hseparator]
  simp [Names, hwords, (hword which _).symm]

/-- A command line that is understood begins with a command, or with the switch that may stand
before it. -/
theorem readWords_cases {verbose : Bool} {environment : Environment} {word : String}
    {words : List String} {invocation : Invocation}
    (h : readWords verbose environment (word :: words) = .ok invocation) :
    (∃ command, CommandName.ofString? word = some command ∧
      readCommand verbose command environment words = .ok invocation) ∨
    (Word.ofString word = .long "verbose" none ∧
      readWords true environment words = .ok invocation) := by
  unfold readWords at h
  split at h
  · rename_i command hcommand
    exact .inl ⟨command, hcommand, h⟩
  · split at h
    case h_1 =>
      split at h
      · simp at h
      · split at h <;> simp at h
    case h_5 hform =>
      split at h
      · simp at h
      · exact .inr ⟨hform, h⟩
    all_goals simp at h

theorem ofString_of_ofString? {word : String} {command : CommandName}
    (h : CommandName.ofString? word = some command) : Word.ofString word = .plain word := by
  unfold CommandName.ofString? at h
  split at h
  · rfl
  · rfl
  · simp at h

/-- A command is read from words that give the same options as the whole command line. -/
theorem exists_readCommand {verbose : Bool} {environment : Environment} {words : List String}
    {invocation : Invocation} (h : readWords verbose environment words = .ok invocation) :
    ∃ flag command rest, readCommand flag command environment rest = .ok invocation ∧
      (∀ which value, Gives words which value ↔ Gives rest which value) ∧
      ∀ which, Names words which ↔ Names rest which := by
  induction words generalizing verbose with
  | nil => simp [readWords] at h
  | cons word words ih =>
    rcases readWords_cases h with ⟨command, hcommand, hread⟩ | ⟨hform, hread⟩
    · have hword := Given.ne_of_ofString (ofString_of_ofString? hcommand) (by simp) (by simp)
      exact ⟨verbose, command, words, hread, fun which value ↦ gives_cons_iff hword.1 hword.2,
        fun which ↦ names_cons_iff hword.1 hword.2⟩
    · have hword := Given.ne_of_ofString hform (by simp) fun which value ↦ by
        cases which <;> simp [Setting.label]
      obtain ⟨flag, command, rest, hcommand, hgives, hnames⟩ := ih hread
      exact ⟨flag, command, rest, hcommand,
        fun which value ↦ (gives_cons_iff hword.1 hword.2).trans (hgives which value),
        fun which ↦ (names_cons_iff hword.1 hword.2).trans (hnames which)⟩

/-! ## The target of a command -/

/-- The target is what the words gave, and they break no rule for options. -/
theorem Given.target_of_action {given : Given} {command : CommandName} {environment : Environment}
    {action : Action} (h : given.action command environment = .ok action) :
    given.hasConflict = false ∧ given.lacksRequired = false ∧
      given.target? = some action.target := by
  simp only [Given.action, bind, Except.bind, pure, Except.pure, throw, throwThe,
    MonadExceptOf.throw] at h
  -- Only the environment is left to branch on when the rules are decided.
  cases hconflict : given.hasConflict with
  | true =>
    simp only [hconflict, if_true] at h
    repeat' split at h
    all_goals simp at h
  | false =>
    cases htarget : given.target? with
    | none =>
      simp only [hconflict, htarget] at h
      repeat' split at h
      all_goals simp at h
    | some target =>
      simp only [hconflict, htarget, Bool.false_eq_true, if_false] at h
      repeat' split at h
      all_goals simp at h
      all_goals
        subst h
        simp_all [Action.target]

theorem exists_action_of_readCommand {verbose : Bool} {command : CommandName}
    {environment : Environment} {words : List String} {invocation : Invocation}
    (h : readCommand verbose command environment words = .ok invocation) :
    ∃ given, Given.nothing.readAll command words = .ok given ∧
      given.action command environment = .ok invocation.action := by
  simp only [readCommand, bind, Except.bind, pure, Except.pure] at h
  split at h
  · simp at h
  · rename_i given hgiven
    split at h
    · simp at h
    · rename_i action haction
      repeat' split at h
      all_goals simp at h
      all_goals exact ⟨given, hgiven, by rw [← h]; exact haction⟩

/-- What an understood command line has taken in: its options, and the target from them. -/
theorem exists_records {words : List String} {environment : Environment} {invocation : Invocation}
    (h : read words environment = .ok invocation) :
    ∃ given : Given, given.Records words ∧ given.hasConflict = false ∧ given.lacksRequired = false ∧
      given.target? = some invocation.action.target := by
  obtain ⟨flag, command, rest, hcommand, hgives, hnames⟩ := exists_readCommand h
  obtain ⟨given, hread, haction⟩ := exists_action_of_readCommand hcommand
  have hrecords : given.Records rest := Given.reads_nothing.readAll hread
  refine ⟨given, ⟨?_, ?_, ?_⟩, Given.target_of_action haction⟩
  · intro which value hwritten
    exact hrecords.complete which value ((hgives which value).mp hwritten)
  · intro which hhas
    obtain ⟨value, hwritten, hkeeps⟩ := hrecords.sound which hhas
    exact ⟨value, (hgives which value).mpr hwritten, hkeeps⟩
  · intro which hwritten
    obtain ⟨value, hwritten⟩ := hrecords.named which ((hnames which).mp hwritten)
    exact ⟨value, (hgives which value).mpr hwritten⟩

/-! ## The promises of the reader -/

namespace Given

variable {words : List String} {given : Given}

theorem mem_all (option : OptionName) : option ∈ OptionName.all := by
  cases option with
  | switch which => cases which <;> decide
  | setting which => cases which <;> decide

theorem excludes_eq_false_of_hasConflict (h : given.hasConflict = false)
    {option other : OptionName} (hoption : given.has option = true)
    (hother : given.has other = true) : option.excludes other = false := by
  have hfree : ∀ first second : OptionName, given.has first = true → given.has second = true →
      second ∉ first.conflictsWith := by
    intro first second hfirst hsecond hmem
    have hnone := List.any_eq_false.mp h first (mem_all first)
    rw [hfirst, Bool.true_and, List.any_eq_true] at hnone
    exact hnone ⟨second, hmem, hsecond⟩
  simp [OptionName.excludes, hfree option other hoption hother, hfree other option hother hoption]

/-- Where nothing is missing, what is required is given, or else something that excludes it. -/
theorem has_of_lacksRequired (h : given.lacksRequired = false) {option needed : OptionName}
    (hoption : given.has option = true) (hneeded : needed ∈ option.requires) :
    given.has needed = true ∨
      ∃ other : OptionName, other.excludes needed = true ∧ given.has other = true := by
  have hnone := List.any_eq_false.mp h option (mem_all option)
  rw [hoption, Bool.true_and, List.any_eq_true] at hnone
  by_contra hmissing
  rw [not_or, not_exists] at hmissing
  refine hnone ⟨needed, hneeded, ?_⟩
  rw [Bool.and_eq_true, Bool.not_eq_true', Bool.not_eq_true', List.any_eq_false]
  refine ⟨Bool.not_eq_true _ ▸ hmissing.1, fun other _ ↦ ?_⟩
  rw [Bool.and_eq_true]
  exact hmissing.2 other

theorem numberOf_eq_ok_iff {value : String} {number : Nat} :
    numberOf value = .ok number ↔ Text.numeral? value.toList = some number := by
  rw [numberOf]
  split <;> simp_all

theorem Records.has_iff (h : given.Records words) {which : Setting} :
    given.Has which ↔ Names words which := by
  constructor
  · intro hhas
    obtain ⟨value, hgives, -⟩ := h.sound which hhas
    exact hgives.names
  · intro hnames
    obtain ⟨value, hgives⟩ := h.named which hnames
    exact (h.complete which value hgives).has

theorem Records.follows (h : given.Records words) (hconflict : given.hasConflict = false)
    (hlacks : given.lacksRequired = false) {target : Target}
    (htarget : given.target? = some target) : Follows words target := by
  obtain ⟨file, -, rfl⟩ := Option.map_eq_some_iff.mp htarget
  constructor
  case valued => exact h.named
  case exclusive =>
    intro which other hwhich hother
    exact excludes_eq_false_of_hasConflict hconflict (h.has_iff.mpr hwhich) (h.has_iff.mpr hother)
  case required =>
    intro which needed hwhich hneeded
    rcases has_of_lacksRequired hlacks (h.has_iff.mpr hwhich) hneeded with
      hhas | ⟨other, hexcludes, hother⟩
    · exact .inl (h.has_iff.mp hhas)
    · cases other with
      | setting other => exact .inr ⟨other, hexcludes, h.has_iff.mp hother⟩
      | switch other =>
        -- a switch excludes no option that is required
        cases which <;> simp [OptionName.requires] at hneeded
        subst hneeded
        cases other <;> simp [OptionName.excludes, OptionName.conflictsWith] at hexcludes
  case name_eq => exact fun value hgives ↦ h.complete .name value hgives
  case line_eq =>
    intro value hgives
    obtain ⟨number, hnumber, hline⟩ := h.complete .line value hgives
    exact ⟨number, numberOf_eq_ok_iff.mp hnumber, hline⟩
  case column_eq =>
    intro value hgives
    obtain ⟨number, hnumber, hcolumn⟩ := h.complete .column value hgives
    rw [numberOf_eq_ok_iff.mp hnumber, hcolumn]
    rfl
  case name_eq_none => exact fun hnames ↦ by simpa [Has, has] using mt h.has_iff.mp hnames
  case line_eq_none => exact fun hnames ↦ by simpa [Has, has] using mt h.has_iff.mp hnames
  case column_eq_default =>
    intro hnames
    have hnone : given.column = Option.none := by simpa [Has, has] using mt h.has_iff.mp hnames
    rw [hnone]
    rfl

end Given

theorem lawful_read : ArgumentParser.Lawful read := by
  intro words environment invocation h
  obtain ⟨given, hrecords, hconflict, hlacks, htarget⟩ := exists_records h
  exact hrecords.follows hconflict hlacks htarget

/-! ## Columns -/

/-- What a command line that gives a column can look for: the struct at a line and this column, or
one by its name, where the column says nothing. -/
inductive ColumnUse (words : List String) (column : Nat) : Source.Locator → Prop where
  | cursor {line : Nat} (hline : GivesNumber words .line line) (hname : ¬ Names words .name) :
      ColumnUse words column (.cursor line column)
  | name {name : String} (hname : Gives words .name name) (hline : ¬ Names words .line) :
      ColumnUse words column (.name name)

/-- Whatever parser is used, a column that is given has a number. A line is given with it, and the
cursor is on both exactly; or a name is given and no line, and the column is not looked at. -/
theorem locator_of_column {parser : ArgumentParser} (hparser : parser.Lawful)
    {words : List String} {environment : Environment} {invocation : Invocation}
    (h : parser words environment = .ok invocation) (hcolumn : Names words .column) :
    ∃ column, GivesNumber words .column column ∧ invocation.action.target.column = column ∧
      ColumnUse words column invocation.action.target.locator := by
  have hfollows := hparser words environment invocation h
  refine ⟨_, hfollows.givesNumber_column hcolumn, rfl, ?_⟩
  by_cases hline : Names words .line
  · -- a name would exclude the line
    have hname : ¬ Names words .name :=
      fun hname ↦ absurd (hfollows.exclusive .name .line hname hline) (by decide)
    obtain ⟨line, hnumber, hkept⟩ := hfollows.givesNumber_line hline
    rw [Target.locator, hfollows.name_eq_none hname, hkept]
    exact .cursor hnumber hname
  · -- nothing but a name excuses the missing line
    obtain ⟨other, hexcludes, hother⟩ :=
      (hfollows.required .column .line hcolumn List.mem_cons_self).resolve_left hline
    obtain rfl : other = .name := by
      cases other <;> simp [OptionName.excludes, OptionName.conflictsWith] at hexcludes
      rfl
    obtain ⟨name, hname⟩ := hfollows.valued .name hother
    rw [Target.locator, hfollows.name_eq name hname]
    exact .name hname hline

/-- A column in one word and a line in two, behind the file and before a switch. -/
theorem locator_of_column_of_line :
    let words := ["--verbose", "generate", "lib.rs", "--column=+03", "--line", "4", "--all"]
    ArgumentParser.Lawful read ∧
      ∃ invocation, read words ⟨none, none⟩ = .ok invocation ∧ Names words .column ∧
        invocation.action.target.locator = .cursor 4 3 ∧
        ColumnUse words 3 invocation.action.target.locator := by
  intro words
  have hread : read words ⟨none, none⟩ =
      .ok ⟨.generate
        ⟨⟨"lib.rs", none, some 4, 3⟩, ⟨.text, false⟩, true, false, none, false⟩, true⟩ := by
    decide +kernel
  have hcolumn : Names words .column := ⟨some "+03", by decide⟩
  obtain ⟨column, -, hvalue, huse⟩ := locator_of_column lawful_read hread hcolumn
  obtain rfl : 3 = column := hvalue
  exact ⟨lawful_read, _, hread, hcolumn, rfl, huse⟩

/-- Beside a name a column is accepted without a line, and the name alone is looked for. -/
theorem locator_of_column_misses :
    let words := ["fields", "lib.rs", "--name", "S", "--column", "3"]
    ArgumentParser.Lawful read ∧ Names words .column ∧ ¬ Names words .line ∧
      ∃ invocation, read words ⟨none, none⟩ = .ok invocation ∧
        invocation.action.target.column = 3 ∧
        invocation.action.target.locator = .name "S" := by
  intro words
  have hread : read words ⟨none, none⟩ =
      .ok ⟨.fields ⟨⟨"lib.rs", some "S", none, 3⟩, ⟨.text, false⟩⟩, false⟩ := by
    decide +kernel
  have hline : ¬ Names words .line := by
    intro hline
    obtain ⟨line, -, htarget⟩ := (lawful_read words _ _ hread).givesNumber_line hline
    simp [Action.target] at htarget
  exact ⟨lawful_read, ⟨none, by decide⟩, hline, _, hread, rfl, rfl⟩

end Memberwise.Command
