import Memberwise.Proofs.Command.Given

/-!
# What the words behind a command say

The value of an option is examined only when the next option or argument comes, or at the end. All
the same, the outcome follows from the words as a whole: every option that is written before the
separator has a value and is taken in, and nothing is taken in that is not written there.

The invariant relates the words read so far to what they have said so far. An option that still
waits for its value, and a value that was not examined yet, are pending in it.
-/

namespace Memberwise.Command.Given

/-- What the words before have said so far: the options in them are taken in, but for one that
waits for its value, or whose value was not examined yet. -/
structure Reads (words : List String) (given : Given) : Prop where
  argumentsOnly_iff : given.argumentsOnly = true ↔ "--" ∈ words
  complete : ∀ which value, Gives words which value →
    given.Keeps which value ∨ given.pending = .setting which (some value)
  sound : ∀ which, given.Has which → ∃ value, Gives words which value ∧ given.Keeps which value
  pending : ∀ which value, given.pending = .setting which (some value) → Gives words which value
  waiting_iff : given.argumentsOnly = false → ∀ which, given.pending = .setting which Option.none ↔
    ∃ before, words = before ++ [spelling which.label Option.none]
  named : ∀ which, Names words which →
    (∃ value, Gives words which value) ∨ given.pending = .setting which Option.none

/-- All options in the words are taken in, and nothing else. -/
structure Records (words : List String) (given : Given) : Prop where
  complete : ∀ which value, Gives words which value → given.Keeps which value
  sound : ∀ which, given.Has which → ∃ value, Gives words which value ∧ given.Keeps which value
  named : ∀ which, Names words which → ∃ value, Gives words which value

variable {words : List String} {given settled next : Given}

theorem Reads.records (h : given.Reads words) (hsettled : Settled given settled) :
    settled.Records words where
  complete which value hgives := by
    rcases h.complete which value hgives with hkeeps | hpending
    · exact hsettled.kept which value hkeeps
    · exact hsettled.keeps which value hpending
  sound which hhas := by
    rcases hsettled.has which hhas with hgiven | ⟨value, hpending⟩
    · obtain ⟨value, hgives, hkeeps⟩ := h.sound which hgiven
      exact ⟨value, hgives, hsettled.kept which value hkeeps⟩
    · exact ⟨value, h.pending which value hpending, hsettled.keeps which value hpending⟩
  named which hnames := by
    rcases h.named which hnames with hgives | hpending
    · exact hgives
    · exact absurd hpending (hsettled.ne_waiting which)

theorem Reads.not_mem (h : given.Reads words) (hargs : given.argumentsOnly = false) :
    "--" ∉ words := by
  rw [← h.argumentsOnly_iff, hargs]
  simp

/-- Where no option waits for its value, a word gives an option only by itself. -/
theorem Reads.gives_concat_iff (h : given.Reads words) (hargs : given.argumentsOnly = false)
    (hwaits : ∀ which, given.pending ≠ .setting which Option.none) {word : String}
    (hword : word ≠ "--") {which : Setting} {value : String} :
    Gives (words ++ [word]) which value ↔
      Gives words which value ∨ word = spelling which.label (some value) := by
  rw [Command.gives_concat_iff (h.not_mem hargs) hword, ← h.waiting_iff hargs]
  simp [hwaits]

/-- What is said after a word that what was pending is settled before: `fresh` are the options that
the word gives, with their values. -/
theorem Records.reads (fresh : Setting → String → Prop) {extended : List String}
    (h : settled.Records words)
    (hgives : ∀ which value, Gives extended which value ↔
      Gives words which value ∨ fresh which value)
    (hnames : ∀ which, Names extended which → Names words which ∨ (∃ value, fresh which value) ∨
      next.pending = .setting which Option.none)
    (hfresh : ∀ which value, fresh which value → next.Keeps which value)
    (hkept : ∀ which value, settled.Keeps which value → next.Keeps which value)
    (hhas : ∀ which, next.Has which → settled.Has which ∨ ∃ value, fresh which value)
    (hargs : next.argumentsOnly = true ↔ "--" ∈ extended)
    (hpending : ∀ which value, next.pending ≠ .setting which (some value))
    (hwaiting : next.argumentsOnly = false → ∀ which, next.pending = .setting which Option.none ↔
      ∃ before, extended = before ++ [spelling which.label Option.none]) :
    next.Reads extended where
  argumentsOnly_iff := hargs
  complete which value hvalue := by
    rcases (hgives which value).mp hvalue with hbefore | hvalue
    · exact .inl (hkept which value (h.complete which value hbefore))
    · exact .inl (hfresh which value hvalue)
  sound which hnext := by
    rcases hhas which hnext with hsettled | ⟨value, hvalue⟩
    · obtain ⟨value, hbefore, hkeeps⟩ := h.sound which hsettled
      exact ⟨value, (hgives which value).mpr (.inl hbefore), hkept which value hkeeps⟩
    · exact ⟨value, (hgives which value).mpr (.inr hvalue), hfresh which value hvalue⟩
  pending which value hvalue := absurd hvalue (hpending which value)
  waiting_iff := hwaiting
  named which hextended := by
    rcases hnames which hextended with hbefore | ⟨value, hvalue⟩ | hnext
    · obtain ⟨value, hvalue⟩ := h.named which hbefore
      exact .inl ⟨value, (hgives which value).mpr (.inl hvalue)⟩
    · exact .inl ⟨value, (hgives which value).mpr (.inr hvalue)⟩
    · exact .inr hnext

theorem reads_nothing : nothing.Reads [] where
  argumentsOnly_iff := by simp [nothing]
  complete which value := by
    rintro (hmem | happart)
    · simp [optionWords] at hmem
    · simp [optionWords] at happart
  sound which hhas := by cases which <;> simp [nothing, Has, has] at hhas
  pending which value hpending := by simp [nothing] at hpending
  waiting_iff _ which := by simp [nothing]
  named which hnames := by
    obtain ⟨value, hmem⟩ := hnames
    simp [optionWords] at hmem

theorem Reads.separator (h : given.Reads words) :
    { given with argumentsOnly := true }.Reads (words ++ ["--"]) := by
  have hwords := optionWords_concat_separator words
  have hsame : SameValues { given with argumentsOnly := true } given := ⟨rfl, rfl, rfl, rfl, rfl⟩
  refine ⟨by simp, fun which value hgives ↦ ?_, fun which hhas ↦ ?_, fun which value hpending ↦ ?_,
    by simp, fun which hnames ↦ ?_⟩
  · rw [gives_congr hwords] at hgives
    rw [hsame.keeps_iff]
    exact h.complete which value hgives
  · obtain ⟨value, hgives, hkeeps⟩ := h.sound which (hsame.has_iff.mp hhas)
    exact ⟨value, (gives_congr hwords).mpr hgives, hsame.keeps_iff.mpr hkeeps⟩
  · exact (gives_congr hwords).mpr (h.pending which value hpending)
  · simp only [Names, hwords] at hnames
    simp only [gives_congr hwords]
    exact h.named which hnames

theorem Reads.value (h : given.Reads words) (hargs : given.argumentsOnly = false)
    {which : Setting} (hpending : given.pending = .setting which Option.none) {word : String}
    (hword : word ≠ "--")
    (hplain : ∀ (which : Setting) value, word ≠ spelling which.label value) :
    { given with pending := .setting which (some word) }.Reads (words ++ [word]) := by
  have hseparator := h.not_mem hargs
  have hsame : SameValues { given with pending := .setting which (some word) } given :=
    ⟨rfl, rfl, rfl, rfl, rfl⟩
  have hgives : ∀ other text, Gives (words ++ [word]) other text ↔
      Gives words other text ∨ which = other ∧ word = text := by
    intro other text
    rw [Command.gives_concat_iff hseparator hword, ← h.waiting_iff hargs, hpending]
    simp [hplain, and_comm]
  refine ⟨?_, fun other text hother ↦ ?_, fun other hhas ↦ ?_, fun other text hother ↦ ?_, ?_,
    fun other hnames ↦ ?_⟩
  · simp [hargs, hseparator, hword.symm]
  · rcases (hgives other text).mp hother with hbefore | ⟨rfl, rfl⟩
    · rcases h.complete other text hbefore with hkeeps | hother
      · exact .inl (hsame.keeps_iff.mpr hkeeps)
      · simp [hpending] at hother
    · exact .inr rfl
  · obtain ⟨text, hbefore, hkeeps⟩ := h.sound other (hsame.has_iff.mp hhas)
    exact ⟨text, (hgives other text).mpr (.inl hbefore), hsame.keeps_iff.mpr hkeeps⟩
  · exact (hgives other text).mpr (.inr (by simpa using hother))
  · intro _ other
    constructor
    · simp
    · rintro ⟨before, hbefore⟩
      exact absurd (List.singleton_inj.mp (List.append_inj' hbefore rfl).2) (hplain other _)
  · rw [names_concat_iff hseparator hword] at hnames
    refine .inl ?_
    rcases hnames with hnames | ⟨text, hspelled⟩
    · rcases h.named other hnames with ⟨text, hbefore⟩ | hother
      · exact ⟨text, (hgives other text).mpr (.inl hbefore)⟩
      · obtain rfl : which = other := by simpa [hpending] using hother
        exact ⟨word, (hgives which word).mpr (.inr ⟨rfl, rfl⟩)⟩
    · exact absurd hspelled (hplain other text)

theorem Reads.joined (h : given.Reads words) (hargs : given.argumentsOnly = false)
    (hsettled : Settled given settled) {which : Setting} {value : String}
    (hadds : settled.Adds which value next) :
    next.Reads (words ++ [spelling which.label (some value)]) := by
  have hseparator := h.not_mem hargs
  have hword := which.spelling_ne_separator (some value)
  have hnext : next.argumentsOnly = false := by
    rw [hadds.argumentsOnly_eq, hsettled.argumentsOnly_eq, hargs]
  have hpending : next.pending = .nothing := by rw [hadds.pending_eq, hsettled.pending_eq]
  apply (h.records hsettled).reads fun other text ↦ which = other ∧ value = text
  · intro other text
    rw [h.gives_concat_iff hargs hsettled.ne_waiting hword, Setting.spelling_inj_iff,
      Option.some.injEq]
  · intro other hnames
    rw [names_concat_iff hseparator hword] at hnames
    simp only [Setting.spelling_inj_iff] at hnames
    rcases hnames with hbefore | ⟨text, rfl, -⟩
    · exact .inl hbefore
    · exact .inr (.inl ⟨value, rfl, rfl⟩)
  · rintro _ _ ⟨rfl, rfl⟩
    exact hadds.keeps
  · exact hadds.kept
  · intro other hhas
    rcases hadds.has other hhas with rfl | hhas
    · exact .inr ⟨value, rfl, rfl⟩
    · exact .inl hhas
  · simp [hnext, hseparator, hword.symm]
  · simp [hpending]
  · intro _ other
    simp [hpending, Setting.spelling_inj_iff]

theorem Reads.waiting (h : given.Reads words) (hargs : given.argumentsOnly = false)
    (hsettled : Settled given settled) (which : Setting) :
    { settled with pending := .setting which Option.none }.Reads
      (words ++ [spelling which.label Option.none]) := by
  have hseparator := h.not_mem hargs
  have hword := which.spelling_ne_separator Option.none
  have hsame : SameValues { settled with pending := .setting which Option.none } settled :=
    ⟨rfl, rfl, rfl, rfl, rfl⟩
  have hnext := hsettled.argumentsOnly_eq.trans hargs
  apply (h.records hsettled).reads fun _ _ ↦ False
  · intro other text
    rw [h.gives_concat_iff hargs hsettled.ne_waiting hword, Setting.spelling_inj_iff]
    simp
  · intro other hnames
    rw [names_concat_iff hseparator hword] at hnames
    simp only [Setting.spelling_inj_iff] at hnames
    rcases hnames with hbefore | ⟨text, rfl, -⟩
    · exact .inl hbefore
    · exact .inr (.inr rfl)
  · simp
  · exact fun other text ↦ hsame.keeps_iff.mpr
  · exact fun other hhas ↦ .inl (hsame.has_iff.mp hhas)
  · simp [hnext, hseparator, hword.symm]
  · simp
  · intro _ other
    simp [Setting.spelling_inj_iff]

/-- A word that is no option and no value gives nothing. -/
theorem Reads.gives_concat_of_other (h : given.Reads words)
    (hwaits : ∀ which, given.pending ≠ .setting which Option.none) {word : String}
    (hword : given.argumentsOnly = false →
      word ≠ "--" ∧ ∀ (which : Setting) value, word ≠ spelling which.label value) :
    (∀ which value, Gives (words ++ [word]) which value ↔ Gives words which value) ∧
      ∀ which, Names (words ++ [word]) which ↔ Names words which := by
  cases hargs : given.argumentsOnly with
  | false =>
    obtain ⟨hne, hspelling⟩ := hword hargs
    constructor
    · intro which value
      rw [h.gives_concat_iff hargs hwaits hne]
      simp [hspelling]
    · intro which
      rw [names_concat_iff (h.not_mem hargs) hne]
      simp [hspelling]
  | true =>
    have hwords := optionWords_append_of_mem (h.argumentsOnly_iff.mp hargs) [word]
    exact ⟨fun which value ↦ gives_congr hwords, fun which ↦ by rw [Names, Names, hwords]⟩

theorem Reads.other (h : given.Reads words) (hsettled : Settled given settled)
    (hsame : SameValues next settled) (hargs : next.argumentsOnly = given.argumentsOnly)
    (hpending : ∀ which value, next.pending ≠ .setting which value) {word : String}
    (hword : given.argumentsOnly = false →
      word ≠ "--" ∧ ∀ (which : Setting) value, word ≠ spelling which.label value) :
    next.Reads (words ++ [word]) := by
  obtain ⟨hgives, hnames⟩ := h.gives_concat_of_other hsettled.ne_waiting hword
  apply (h.records hsettled).reads fun _ _ ↦ False
  · simp [hgives]
  · exact fun other hother ↦ .inl ((hnames other).mp hother)
  · simp
  · exact fun other text ↦ hsame.keeps_iff.mpr
  · exact fun other hhas ↦ .inl (hsame.has_iff.mp hhas)
  · rw [hargs, h.argumentsOnly_iff, List.mem_append, List.mem_singleton, iff_self_or]
    rintro rfl
    by_contra hmem
    rw [← h.argumentsOnly_iff, Bool.not_eq_true] at hmem
    exact (hword hmem).1 rfl
  · exact fun other text ↦ hpending other _
  · intro hfalse other
    constructor
    · exact fun hother ↦ absurd hother (hpending other _)
    · rintro ⟨before, hbefore⟩
      have hspelled := List.singleton_inj.mp (List.append_inj' hbefore rfl).2
      exact absurd hspelled ((hword (hargs ▸ hfalse)).2 other _)

theorem Reads.took (h : given.Reads words) {word : String} (htook : given.Took word next) :
    next.Reads (words ++ [word]) := by
  cases htook with
  | separator hargs hword => exact hword ▸ h.separator
  | value hargs hpending hword hplain => exact h.value hargs hpending hword hplain
  | joined hargs hsettled hword hadds => exact hword ▸ h.joined hargs hsettled hadds
  | waiting hargs hsettled hword => exact hword ▸ h.waiting hargs hsettled _
  | other hsettled hsame hargs hpending hword => exact h.other hsettled hsame hargs hpending hword

/-- Whatever the words behind a command say: the options written before the separator are taken in,
and nothing else. -/
theorem Reads.readAll {command : CommandName} (h : given.Reads words) {more : List String}
    {last : Given} (hread : given.readAll command more = .ok last) :
    last.Records (words ++ more) := by
  induction more generalizing words given with
  | nil =>
    rw [List.append_nil]
    exact h.records (settled_of_settle hread)
  | cons word more ih =>
    rw [Given.readAll] at hread
    split at hread
    · simp at hread
    · rename_i next hnext
      rw [List.append_cons]
      exact ih (h.took (took_of_read hnext)) hread

end Memberwise.Command.Given
