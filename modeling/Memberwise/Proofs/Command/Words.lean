import Memberwise.Command.Reader
import Memberwise.Proofs.Command.Laws

/-!
# Words of options

The reader of command lines tells a word by its form, and it takes exactly those for options that
are written like one. What the words before the separator give can be followed word by word.
-/

namespace Memberwise.Command

/-! ## How options are written -/

namespace Word

theorem toList_spelling (name : String) (value : Option String) :
    (spelling name value).toList =
      '-' :: '-' :: (name.toList ++ (value.map String.toList).elim [] ('=' :: ·)) := by
  cases value <;> simp [spelling]

theorem splitAtEquals_append {name : List Char} (h : '=' ∉ name) (value : Option (List Char)) :
    splitAtEquals (name ++ value.elim [] ('=' :: ·)) = (name, value) := by
  induction name with
  | nil => cases value <;> simp [splitAtEquals]
  | cons c rest ih =>
    rw [List.mem_cons, not_or] at h
    rw [List.cons_append, splitAtEquals, if_neg (Ne.symm h.1), ih h.2]

theorem append_of_splitAtEquals (text : List Char) :
    (splitAtEquals text).1 ++ (splitAtEquals text).2.elim [] ('=' :: ·) = text := by
  induction text with
  | nil => rfl
  | cons c rest ih =>
    rw [splitAtEquals]
    split
    · rename_i hc
      simp [hc]
    · exact congrArg (c :: ·) ih

theorem ofString_spelling {name : String} (hname : name ≠ "") (hequals : '=' ∉ name.toList)
    (value : Option String) : ofString (spelling name value) = long name value := by
  have hne : name.toList ≠ [] := fun hnil ↦ hname (String.toList_eq_nil_iff.mp hnil)
  have hvalue : (value.map String.toList).map String.ofList = value := by
    cases value <;> simp
  unfold ofString
  rw [toList_spelling]
  split
  · rename_i hnil
    simp [hne] at hnil
  · rename_i rest _ hrest
    obtain rfl : name.toList ++ (value.map String.toList).elim [] ('=' :: ·) = rest := by
      simpa using hrest
    rw [splitAtEquals_append hequals]
    simp [hvalue]
  · rename_i hfirst hcons
    exact absurd (List.cons.inj (List.cons.inj hcons).2).1.symm hfirst
  · rename_i hlong _
    exact absurd rfl (hlong _)

theorem eq_spelling_of_ofString {word name : String} {value : Option String}
    (h : ofString word = long name value) : word = spelling name value := by
  unfold ofString at h
  split at h
  · simp at h
  · rename_i rest _ hword
    have hrest := append_of_splitAtEquals rest
    generalize splitAtEquals rest = parts at h hrest
    obtain ⟨rfl, rfl⟩ := (long.injEq ..).mp h
    rw [← String.toList_inj, toList_spelling, hword, ← hrest]
    simp [Function.comp_def]
  · simp at h
  · simp at h

theorem ofString_eq_separator_iff {word : String} : ofString word = separator ↔ word = "--" := by
  constructor
  · intro h
    unfold ofString at h
    split at h
    · rename_i hword
      rw [← String.toList_inj, hword]
      rfl
    · simp at h
    · simp at h
    · simp at h
  · rintro rfl
    rfl

theorem eq_of_ofString_eq_plain {word text : String} (h : ofString word = plain text) :
    word = text := by
  unfold ofString at h
  split at h
  · simp at h
  · simp at h
  · simp at h
  · exact (plain.injEq ..).mp h

end Word

namespace Setting

theorem label_of_option? {command : CommandName} {text : String} {which : Setting}
    (h : command.option? text = some (.setting which)) : text = which.label := by
  unfold CommandName.option? at h
  split at h
  all_goals simp_all [label]
  all_goals (obtain ⟨-, rfl⟩ := h; rfl)

theorem option?_label_ne_switch (which : Setting) {command : CommandName} {other : Switch} :
    command.option? which.label ≠ some (.switch other) := by
  cases which <;> cases command <;> simp [label, CommandName.option?]

theorem ofString_spelling (which : Setting) (value : Option String) :
    Word.ofString (spelling which.label value) = .long which.label value := by
  apply Word.ofString_spelling
  · cases which <;> decide
  · cases which <;> decide

theorem label_injective {which other : Setting} (h : which.label = other.label) :
    which = other := by
  cases which <;> cases other <;> first | rfl | exact absurd h (by decide)

theorem spelling_ne_separator (which : Setting) (value : Option String) :
    spelling which.label value ≠ "--" := by
  intro h
  have hlong := which.ofString_spelling value
  rw [h, Word.ofString_eq_separator_iff.mpr rfl] at hlong
  simp at hlong

theorem spelling_inj_iff {which other : Setting} {value text : Option String} :
    spelling which.label value = spelling other.label text ↔
      which = other ∧ value = text := by
  constructor
  · intro h
    have hlong := which.ofString_spelling value
    rw [h, other.ofString_spelling, Word.long.injEq] at hlong
    exact ⟨label_injective hlong.1.symm, hlong.2.symm⟩
  · rintro ⟨rfl, rfl⟩
    rfl

end Setting

/-! ## What is written -/

theorem optionWords_of_not_mem {words : List String} (h : "--" ∉ words) :
    optionWords words = words := by
  rw [optionWords, List.takeWhile_eq_self_iff]
  intro word hword
  simpa using ne_of_mem_of_not_mem hword h

theorem optionWords_append_of_mem {words : List String} (h : "--" ∈ words) (more : List String) :
    optionWords (words ++ more) = optionWords words := by
  obtain ⟨front, back, rfl, hfront⟩ := List.eq_append_cons_of_mem h
  have hall : ∀ word ∈ front, decide (word ≠ "--") = true := by
    intro word hword
    simpa using ne_of_mem_of_not_mem hword hfront
  simp only [optionWords, List.append_assoc, List.takeWhile_append_of_pos hall]
  simp

theorem optionWords_concat_separator (words : List String) :
    optionWords (words ++ ["--"]) = optionWords words := by
  by_cases h : "--" ∈ words
  · exact optionWords_append_of_mem h _
  · have hall : ∀ word ∈ words, decide (word ≠ "--") = true := by
      intro word hword
      simpa using ne_of_mem_of_not_mem hword h
    rw [optionWords_of_not_mem h, optionWords, List.takeWhile_append_of_pos hall]
    simp

/-- Before the separator, one more word gives an option if it is one with a value, or the value of
the one before. -/
theorem gives_concat_iff {words : List String} (h : "--" ∉ words) {word : String}
    (hword : word ≠ "--") {which : Setting} {value : String} :
    Gives (words ++ [word]) which value ↔
      Gives words which value ∨ word = spelling which.label (some value) ∨
        (word = value ∧ ∃ before, words = before ++ [spelling which.label none]) := by
  have hall : "--" ∉ words ++ [word] := by simp [h, hword.symm]
  constructor
  · rintro (hmem | happart)
    · rw [optionWords_of_not_mem hall, List.mem_append, List.mem_singleton] at hmem
      rcases hmem with hmem | heq
      · exact .inl (.joined (by rwa [optionWords_of_not_mem h]))
      · exact .inr (.inl heq.symm)
    · rw [optionWords_of_not_mem hall, List.infix_concat_iff] at happart
      rcases happart with ⟨before, hbefore⟩ | happart
      · have hparts : before ++ [spelling which.label none] ++ [value] = words ++ [word] := by
          simpa using hbefore
        have hends := List.append_inj' hparts rfl
        exact .inr (.inr ⟨(List.singleton_inj.mp hends.2).symm, before, hends.1.symm⟩)
      · exact .inl (.apart (by rwa [optionWords_of_not_mem h]))
  · rintro (hgives | heq | ⟨rfl, before, rfl⟩)
    · rcases hgives with hmem | happart
      · rw [optionWords_of_not_mem h] at hmem
        exact .joined (by rw [optionWords_of_not_mem hall]; exact List.mem_append_left _ hmem)
      · rw [optionWords_of_not_mem h] at happart
        apply Gives.apart
        rw [optionWords_of_not_mem hall]
        exact happart.trans (List.prefix_append _ _).isInfix
    · exact .joined (by rw [optionWords_of_not_mem hall, heq]; simp)
    · apply Gives.apart
      rw [optionWords_of_not_mem hall]
      exact ⟨before, [], by simp⟩

theorem names_concat_iff {words : List String} (h : "--" ∉ words) {word : String}
    (hword : word ≠ "--") {which : Setting} :
    Names (words ++ [word]) which ↔
      Names words which ∨ ∃ value, word = spelling which.label value := by
  have hall : "--" ∉ words ++ [word] := by simp [h, hword.symm]
  simp only [Names, optionWords_of_not_mem hall, optionWords_of_not_mem h, List.mem_append,
    List.mem_singleton, exists_or, eq_comm]

theorem gives_congr {words other : List String} (h : optionWords words = optionWords other)
    {which : Setting} {value : String} : Gives words which value ↔ Gives other which value := by
  constructor
  · rintro (hmem | happart)
    · exact .joined (h ▸ hmem)
    · exact .apart (h ▸ happart)
  · rintro (hmem | happart)
    · exact .joined (h ▸ hmem)
    · exact .apart (h ▸ happart)

end Memberwise.Command
