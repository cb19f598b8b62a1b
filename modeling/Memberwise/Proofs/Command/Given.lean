import Memberwise.Proofs.Command.Words
import Memberwise.Proofs.Selection.Range

/-!
# What one word does

A word is a separator, the value of the option before, an option, a switch or an argument. Each but
the first two settles what is pending, and none changes the value of an option that was taken in.
-/

namespace Memberwise.Command.Given

/-! ## Values taken in -/

/-- A value was taken in for an option. -/
def Has (given : Given) (which : Setting) : Prop := given.has (.setting which) = true

/-- What was taken in for an option is what this value says. Names may stand among others. -/
def Keeps (given : Given) (which : Setting) (value : String) : Prop :=
  match which with
  | .name => given.name = some value
  | .line => ∃ number, numberOf value = .ok number ∧ given.line = some number
  | .column => ∃ number, numberOf value = .ok number ∧ given.column = some number
  | .output => ∃ format, formatOf value = .ok format ∧ given.output = some format
  | .select => ∃ names, given.select = some names ∧ namesOf value <:+: names

theorem Keeps.has {given : Given} {which : Setting} {value : String}
    (h : given.Keeps which value) : given.Has which := by
  cases which
  case name => simpa [Has, Given.has] using Option.isSome_iff_exists.mpr ⟨value, h⟩
  case line | column | output =>
    obtain ⟨read, -, hread⟩ := h
    exact Option.isSome_iff_exists.mpr ⟨read, hread⟩
  case select =>
    obtain ⟨names, hnames, -⟩ := h
    exact Option.isSome_iff_exists.mpr ⟨names, hnames⟩

/-- The values of all options agree. -/
structure SameValues (given other : Given) : Prop where
  name_eq : given.name = other.name
  line_eq : given.line = other.line
  column_eq : given.column = other.column
  output_eq : given.output = other.output
  select_eq : given.select = other.select

namespace SameValues

variable {given other : Given}

theorem has_iff (h : SameValues given other) {which : Setting} :
    given.Has which ↔ other.Has which := by
  cases which <;> simp only [Has, has, h.name_eq, h.line_eq, h.column_eq, h.output_eq, h.select_eq]

theorem keeps_iff (h : SameValues given other) {which : Setting} {value : String} :
    given.Keeps which value ↔ other.Keeps which value := by
  cases which <;> simp only [Keeps, h.name_eq, h.line_eq, h.column_eq, h.output_eq, h.select_eq]

end SameValues

/-- `next` has the values of `given` and one more. -/
structure Adds (given : Given) (which : Setting) (value : String) (next : Given) : Prop where
  pending_eq : next.pending = given.pending
  argumentsOnly_eq : next.argumentsOnly = given.argumentsOnly
  keeps : next.Keeps which value
  kept : ∀ other text, given.Keeps other text → next.Keeps other text
  has : ∀ other, next.Has other → other = which ∨ given.Has other

theorem adds_of_set {given next : Given} {which : Setting} {value : String}
    (h : given.set which value = .ok next) : given.Adds which value next := by
  cases which
  case name =>
    simp only [set] at h
    split at h
    · simp at h
    · rename_i hnone
      obtain rfl := Except.ok.inj h
      refine ⟨rfl, rfl, rfl, fun other text hkeeps ↦ ?_, fun other hhas ↦ ?_⟩
      · cases other <;> simp_all [Keeps]
      · cases other <;> simp_all [Has, has]
  case line | column | output =>
    simp only [set] at h
    split at h
    · simp at h
    · rename_i hnone
      obtain ⟨read, hread, rfl⟩ := exists_of_map_eq_ok h
      refine ⟨rfl, rfl, ⟨read, hread, rfl⟩, fun other text hkeeps ↦ ?_, fun other hhas ↦ ?_⟩
      · cases other <;> simp_all [Keeps]
      · cases other <;> simp_all [Has, has]
  case select =>
    obtain rfl := Except.ok.inj h
    refine ⟨rfl, rfl, ⟨_, rfl, (List.suffix_append _ _).isInfix⟩, fun other text hkeeps ↦ ?_,
      fun other hhas ↦ ?_⟩
    · cases other
      case select =>
        obtain ⟨names, hnames, happart⟩ := hkeeps
        refine ⟨_, rfl, ?_⟩
        rw [hnames]
        exact happart.trans (List.prefix_append _ _).isInfix
      all_goals exact hkeeps
    · cases other <;> simp_all [Has, has]

/-- What is pending was examined: nothing waits for a value any more, and a value that was pending
is taken in. -/
structure Settled (given settled : Given) : Prop where
  pending_eq : settled.pending = .nothing
  argumentsOnly_eq : settled.argumentsOnly = given.argumentsOnly
  ne_waiting : ∀ which, given.pending ≠ .setting which Option.none
  keeps : ∀ which value, given.pending = .setting which (some value) → settled.Keeps which value
  kept : ∀ which value, given.Keeps which value → settled.Keeps which value
  has : ∀ which, settled.Has which →
    given.Has which ∨ ∃ value, given.pending = .setting which (some value)

theorem Settled.of_sameValues {given settled : Given} (h : SameValues settled given)
    (hnothing : settled.pending = .nothing) (hargs : settled.argumentsOnly = given.argumentsOnly)
    (hpending : ∀ which value, given.pending ≠ .setting which value) : Settled given settled where
  pending_eq := hnothing
  argumentsOnly_eq := hargs
  ne_waiting which := hpending which Option.none
  keeps which _ hvalue := absurd hvalue (hpending which _)
  kept _ _ hkeeps := h.keeps_iff.mpr hkeeps
  has _ hhas := .inl (h.has_iff.mp hhas)

theorem settled_of_settle {given settled : Given} (h : given.settle = .ok settled) :
    Settled given settled := by
  unfold settle at h
  split at h
  · rename_i hpending
    obtain rfl := Except.ok.inj h
    exact .of_sameValues ⟨rfl, rfl, rfl, rfl, rfl⟩ rfl rfl (by simp [hpending])
  · rename_i path hpending
    split at h
    · simp at h
    · obtain rfl := Except.ok.inj h
      exact .of_sameValues ⟨rfl, rfl, rfl, rfl, rfl⟩ rfl rfl (by simp [hpending])
  · rename_i which value hpending
    have hadds := adds_of_set h
    have hsame : SameValues { given with pending := .nothing } given := ⟨rfl, rfl, rfl, rfl, rfl⟩
    refine ⟨hadds.pending_eq, hadds.argumentsOnly_eq, by simp [hpending], ?_, ?_, ?_⟩
    · intro other text hother
      obtain ⟨rfl, rfl⟩ : which = other ∧ value = text := by simpa [hpending] using hother
      exact hadds.keeps
    · intro other text hkeeps
      exact hadds.kept other text (hsame.keeps_iff.mpr hkeeps)
    · intro other hhas
      rcases hadds.has other hhas with rfl | hgiven
      · exact .inr ⟨value, hpending⟩
      · exact .inl (hsame.has_iff.mp hgiven)
  · simp at h

/-! ## One word -/

/-- What a word can come to. -/
inductive Took (given : Given) (word : String) : Given → Prop where
  | separator (hargs : given.argumentsOnly = false) (hword : word = "--") :
      Took given word { given with argumentsOnly := true }
  /-- The word is the value of the option before. -/
  | value {which : Setting} (hargs : given.argumentsOnly = false)
      (hpending : given.pending = .setting which Option.none) (hword : word ≠ "--")
      (hplain : ∀ (which : Setting) value, word ≠ spelling which.label value) :
      Took given word { given with pending := .setting which (some word) }
  /-- An option with its value. -/
  | joined {settled next : Given} {which : Setting} {value : String}
      (hargs : given.argumentsOnly = false) (hsettled : Settled given settled)
      (hword : word = spelling which.label (some value))
      (hadds : settled.Adds which value next) : Took given word next
  /-- An option that waits for its value. -/
  | waiting {settled : Given} {which : Setting} (hargs : given.argumentsOnly = false)
      (hsettled : Settled given settled) (hword : word = spelling which.label Option.none) :
      Took given word { settled with pending := .setting which Option.none }
  /-- A switch or an argument. -/
  | other {settled next : Given} (hsettled : Settled given settled)
      (hsame : SameValues next settled) (hargs : next.argumentsOnly = given.argumentsOnly)
      (hpending : ∀ which value, next.pending ≠ .setting which value)
      (hword : given.argumentsOnly = false →
        word ≠ "--" ∧ ∀ (which : Setting) value, word ≠ spelling which.label value) :
      Took given word next

theorem exists_settle_of_argument {given next : Given} {text : String}
    (h : given.argument text = .ok next) :
    ∃ settled, given.settle = .ok settled ∧
      next = { settled with pending := .file text, hasArgument := true } := by
  unfold argument at h
  split at h
  · simp at h
  · split at h
    · simp at h
    · rename_i settled hsettle
      exact ⟨settled, hsettle, (Except.ok.inj h).symm⟩

theorem exists_settle_of_switch {given next : Given} {which : Switch}
    (h : given.switch which = .ok next) :
    ∃ settled, given.settle = .ok settled ∧ next = settled.turnOn which := by
  unfold switch at h
  split at h
  · simp at h
  · rename_i settled hsettle
    split at h
    · simp at h
    · split at h
      · simp at h
      · exact ⟨settled, hsettle, (Except.ok.inj h).symm⟩

theorem took_of_argument {given next : Given} {word : String} (h : given.argument word = .ok next)
    (hword : given.argumentsOnly = false →
      word ≠ "--" ∧ ∀ (which : Setting) value, word ≠ spelling which.label value) :
    given.Took word next := by
  obtain ⟨settled, hsettle, rfl⟩ := exists_settle_of_argument h
  have hsettled := settled_of_settle hsettle
  exact .other hsettled ⟨rfl, rfl, rfl, rfl, rfl⟩ hsettled.argumentsOnly_eq (by simp) hword

theorem took_of_switch {given next : Given} {word : String} {which : Switch}
    (h : given.switch which = .ok next)
    (hword : word ≠ "--" ∧ ∀ (which : Setting) value, word ≠ spelling which.label value) :
    given.Took word next := by
  obtain ⟨settled, hsettle, rfl⟩ := exists_settle_of_switch h
  have hsettled := settled_of_settle hsettle
  have hsame : SameValues (settled.turnOn which) settled := by
    cases which <;> exact ⟨rfl, rfl, rfl, rfl, rfl⟩
  have hpending : (settled.turnOn which).pending = .nothing := by
    cases which <;> exact hsettled.pending_eq
  have hargs : (settled.turnOn which).argumentsOnly = given.argumentsOnly := by
    cases which <;> exact hsettled.argumentsOnly_eq
  exact .other hsettled hsame hargs (by simp [hpending]) fun _ ↦ hword

/-- A word that is no separator and no option with a value. -/
theorem ne_of_ofString {word : String} {form : Word} (h : Word.ofString word = form)
    (hseparator : form ≠ .separator)
    (hlong : ∀ (which : Setting) value, form ≠ .long which.label value) :
    word ≠ "--" ∧ ∀ (which : Setting) value, word ≠ spelling which.label value := by
  constructor
  · rintro rfl
    exact hseparator (h.symm.trans (Word.ofString_eq_separator_iff.mpr rfl))
  · rintro which value rfl
    exact hlong which value (h.symm.trans (which.ofString_spelling value))

theorem took_of_option {given next : Given} {command : CommandName} {word name : String}
    {value : Option String} (hargs : given.argumentsOnly = false)
    (hform : Word.ofString word = .long name value)
    (h : given.option command name value = .ok next) : given.Took word next := by
  have hword := Word.eq_spelling_of_ofString hform
  unfold option at h
  split at h
  · simp at h
  · simp at h
  · rename_i which hname
    refine took_of_switch h (ne_of_ofString hform (by simp) fun other text heq ↦ ?_)
    have hlabel : name = other.label := (Word.long.inj heq).1
    exact other.option?_label_ne_switch (hlabel ▸ hname)
  · rename_i which text hname
    obtain rfl := Setting.label_of_option? hname
    split at h
    · simp at h
    · rename_i settled hsettle
      exact .joined hargs (settled_of_settle hsettle) hword (adds_of_set h)
  · rename_i which hname
    obtain rfl := Setting.label_of_option? hname
    split at h
    · simp at h
    · rename_i settled hsettle
      obtain rfl := Except.ok.inj h
      exact .waiting hargs (settled_of_settle hsettle) hword

theorem took_of_read {given next : Given} {command : CommandName} {word : String}
    (h : given.read command word = .ok next) : given.Took word next := by
  unfold read at h
  split at h
  · rename_i hargs
    exact took_of_argument h fun hfalse ↦ absurd hargs (by simp [hfalse])
  · rename_i hargs
    have hargs : given.argumentsOnly = false := by simpa using hargs
    split at h
    · rename_i hform
      obtain rfl := Except.ok.inj h
      exact .separator hargs (Word.ofString_eq_separator_iff.mp hform)
    · rename_i name value hform
      exact took_of_option hargs hform h
    · rename_i first hform
      split at h
      · exact took_of_switch h (ne_of_ofString hform (by simp) (by simp))
      · simp at h
    · rename_i text hform
      have hword := ne_of_ofString hform (by simp) (by simp)
      obtain rfl := Word.eq_of_ofString_eq_plain hform
      split at h
      · rename_i which hpending
        obtain rfl := Except.ok.inj h
        exact .value hargs hpending hword.1 hword.2
      · exact took_of_argument h fun _ ↦ hword

end Memberwise.Command.Given
