import Memberwise.Proofs.Selection.Dialogue
import Memberwise.Proofs.Text.Ascii
import Memberwise.Proofs.Text.Decimal
import Memberwise.Proofs.Text.Pieces
import Mathlib.Data.List.Nodup

/-!
# Naming a selection

A selection can be given by positions, by names in a script, and by names or numbers on a line at
the prompt. Where the names can be told apart and typed, a list of positions can be said in each of
these ways, and every way answers with the same positions in the same order: also where a field has
the name of a keyword, as a name is looked for before a keyword is.
-/

namespace Memberwise

/-- The names of the candidates can be told apart, and each one can be typed as a piece of an
answer. -/
structure Nameable (candidates : List Candidate) : Prop where
  nodup : (candidates.map Candidate.binding).Nodup
  ne_empty : ∀ candidate ∈ candidates, candidate.binding ≠ ""
  not_isSeparator : ∀ candidate ∈ candidates, ∀ c ∈ candidate.binding.toList,
    Answer.isSeparator c = false

/-! ## Characters of an answer -/

namespace Answer

theorem isSeparator_of_isBlank {c : Char} (h : Text.isBlank c = true) : isSeparator c = true := by
  rw [isSeparator, h, Bool.or_true]

theorem isAlphanum_of_isSeparator {c : Char} (h : isSeparator c = true) :
    c.isAlphanum = false := by
  rw [Bool.eq_false_iff]
  intro halphanum
  rw [isSeparator, Bool.or_eq_true, beq_iff_eq] at h
  rcases h with rfl | h
  · exact absurd halphanum (by decide)
  · rw [Text.isBlank_of_isAlphanum halphanum] at h
    exact absurd h (by decide)

theorem isSeparator_of_isDigit {c : Char} (h : c.isDigit = true) : isSeparator c = false := by
  rw [Bool.eq_false_iff]
  intro hseparator
  have halphanum := isAlphanum_of_isSeparator hseparator
  rw [Char.isAlphanum, h, Bool.or_true] at halphanum
  exact absurd halphanum (by decide)

/-- A keyword consists of letters. -/
theorem keyword?_eq_none {answer : List Char} {c : Char} (hc : c ∈ answer)
    (hletter : c.isAlpha = false) : keyword? answer = none := by
  have hlower : c.toLower = c := by
    have hupper : c.isUpper = false := (Bool.or_eq_false_iff.mp hletter).1
    exact dif_neg (of_decide_eq_false hupper)
  have hsmall : ∀ word : String, word.toList.all Char.isAlpha = true →
      String.ofList (answer.map Char.toLower) ≠ word := by
    rintro _ hword rfl
    rw [String.toList_ofList, List.all_map] at hword
    have halpha : c.toLower.isAlpha = true := List.all_eq_true.mp hword c hc
    rw [hlower, hletter] at halpha
    exact absurd halpha (by decide)
  rw [keyword?, if_neg, if_neg, if_neg]
  · simp only [not_or]
    exact ⟨hsmall "q" (by decide), hsmall "quit" (by decide), hsmall "cancel" (by decide)⟩
  · exact hsmall "none" (by decide)
  · simp only [not_or]
    exact ⟨hsmall "" (by decide), hsmall "all" (by decide)⟩

end Answer

/-! ## Names -/

namespace Candidate

theorem indexOfName?_eq_none_iff {candidates : List Candidate} {name : String} :
    indexOfName? candidates name = none ↔ ∀ candidate ∈ candidates, candidate.binding ≠ name := by
  simp [indexOfName?]

/-- The candidate at this position is the first one with the name. -/
def IsFirstNamed (candidates : List Candidate) (name : String) (i : Fin candidates.length) :
    Prop :=
  (candidates.get i).binding = name ∧ ∀ j < i, (candidates.get j).binding ≠ name

theorem indexOfName?_eq_some_iff {candidates : List Candidate} {name : String}
    {i : Fin candidates.length} :
    indexOfName? candidates name = some i.val ↔ IsFirstNamed candidates name i := by
  rw [indexOfName?, List.findIdx?_eq_some_iff_getElem]
  constructor
  · rintro ⟨_, hname, hfirst⟩
    exact ⟨by simpa using hname, fun j hj ↦ by simpa using hfirst j.val hj⟩
  · rintro ⟨hname, hfirst⟩
    exact ⟨i.isLt, by simpa using hname, fun j hj ↦ by
      simpa using hfirst ⟨j, Nat.lt_trans hj i.isLt⟩ hj⟩

theorem exists_of_indexOfName? {candidates : List Candidate} {name : String} {index : Nat}
    (h : indexOfName? candidates name = some index) :
    ∃ candidate ∈ candidates, candidate.binding = name := by
  obtain ⟨hindex, hname, _⟩ := List.findIdx?_eq_some_iff_getElem.mp h
  exact ⟨candidates[index], List.getElem_mem hindex, by simpa using hname⟩

end Candidate

theorem Nameable.indexOfName?_get {candidates : List Candidate} (h : Nameable candidates)
    (i : Fin candidates.length) :
    Candidate.indexOfName? candidates (candidates.get i).binding = some i.val := by
  refine Candidate.indexOfName?_eq_some_iff.mpr ⟨rfl, fun j hj heq ↦ ?_⟩
  have hi : i.val < (candidates.map Candidate.binding).length := by simp
  have hlt : j.val < (candidates.map Candidate.binding).length := by simp
  have hsame : (candidates.map Candidate.binding)[j.val] =
      (candidates.map Candidate.binding)[i.val] := by
    simpa using heq
  have hval : j.val < i.val := hj
  exact absurd (h.nodup.getElem_inj_iff.mp hsame) (by omega)

theorem toList_binding_tuple (fields : List Field) (i : Nat)
    (h : i < (Body.tuple fields).candidates.length) :
    (Body.tuple fields).candidates[i].binding.toList = "field".toList ++ Text.decimal i := by
  simp [Body.candidates, Field.positionalCandidate, Text.decimal]

/-- The fields of a tuple struct have different names, as different positions have different
digits. -/
theorem nameable_tuple (fields : List Field) : Nameable (Body.tuple fields).candidates where
  nodup := by
    rw [List.Nodup, List.pairwise_iff_getElem]
    intro i j hi hj hij heq
    rw [List.getElem_map, List.getElem_map] at heq
    have hnames := congrArg String.toList heq
    rw [toList_binding_tuple, toList_binding_tuple, List.append_cancel_left_eq] at hnames
    exact absurd (Text.decimal_injective hnames) (by omega)
  ne_empty := by
    intro candidate hcandidate hempty
    obtain ⟨i, hi, rfl⟩ := List.mem_iff_getElem.mp hcandidate
    have hname := toList_binding_tuple fields i hi
    rw [hempty] at hname
    simp at hname
  not_isSeparator := by
    intro candidate hcandidate c hc
    obtain ⟨i, hi, rfl⟩ := List.mem_iff_getElem.mp hcandidate
    rw [toList_binding_tuple] at hc
    rcases List.mem_append.mp hc with hc | hc
    · have hletters : ("field".toList.all fun d ↦ !Answer.isSeparator d) = true := by decide
      simpa using List.all_eq_true.mp hletters c hc
    · exact Answer.isSeparator_of_isDigit (Text.isDigit_of_mem_decimal hc)

theorem Script.indicesOfNames_get {candidates : List Candidate} (h : Nameable candidates)
    (positions : List (Fin candidates.length)) :
    indicesOfNames candidates (positions.map fun i ↦ (candidates.get i).binding) =
      .ok (positions.map Fin.val) := by
  induction positions with
  | nil => rfl
  | cons i positions ih =>
    rw [List.map_cons, indicesOfNames, h.indexOfName?_get i, ih]
    rfl

/-! ## Answers -/

namespace Answer

/-- What may stand between the pieces of an answer. -/
def InGap (c : Char) : Prop := isSeparator c = true ∧ c ≠ '\n'

instance (c : Char) : Decidable (InGap c) :=
  inferInstanceAs (Decidable (isSeparator c = true ∧ c ≠ '\n'))

theorem indices_map {candidates : List Candidate} {α : Type} {pieceOf : α → List Char}
    {indexOf : α → Nat} (items : List α)
    (h : ∀ item ∈ items, index candidates (pieceOf item) = .ok (indexOf item)) :
    indices candidates (items.map pieceOf) = .ok (items.map indexOf) := by
  induction items with
  | nil => rfl
  | cons item items ih =>
    rw [List.map_cons, indices, h item List.mem_cons_self,
      ih fun other hother ↦ h other (List.mem_cons_of_mem item hother)]
    rfl

theorem indexOfName?_decimal {candidates : List Candidate} {number : Nat}
    (h : ∀ candidate ∈ candidates, candidate.binding ≠ toString number) :
    Candidate.indexOfName? candidates (String.ofList (Text.decimal number)) = none := by
  rw [Text.decimal, String.ofList_toList, Candidate.indexOfName?_eq_none_iff]
  exact h

/-- A number that is nobody's name stands for the candidate that it counts to. -/
theorem index_decimal {candidates : List Candidate}
    (hcount : candidates.length < Text.numeralLimit) (i : Fin candidates.length)
    (hnumber : ∀ candidate ∈ candidates, candidate.binding ≠ toString (i.val + 1)) :
    index candidates (Text.decimal (i.val + 1)) = .ok i.val := by
  have hnumeral : Text.numeral? (Text.decimal (i.val + 1)) = some (i.val + 1) :=
    Text.numeral?_decimal (by omega)
  rw [index, indexOfName?_decimal hnumber, hnumeral]
  simp [Nat.succ_le_of_lt i.isLt]

theorem keyword?_decimal (number : Nat) : keyword? (Text.decimal number) = none := by
  obtain ⟨c, rest, hdecimal⟩ := List.exists_cons_of_ne_nil (Text.decimal_ne_nil number)
  have hc : c ∈ Text.decimal number := by rw [hdecimal]; exact List.mem_cons_self
  exact keyword?_eq_none hc (Text.isAlpha_of_isDigit (Text.isDigit_of_mem_decimal hc))

/-- Joined pieces are read one by one. A single piece is read as a whole, but then it is a name and
gives the same, or it must not be a keyword. -/
theorem read_of_joined {candidates : List Candidate} (hnameable : Nameable candidates)
    {pieces : List (List Char)} {answer blanks : List Char} {chosen : List Nat}
    (hjoined : Text.Joined InGap pieces answer) (hne : ∀ piece ∈ pieces, piece ≠ [])
    (hfree : ∀ piece ∈ pieces, ∀ c ∈ piece, isSeparator c = false)
    (hblanks : ∀ c ∈ blanks, Text.isBlank c = true)
    (hkeyword : ∀ piece ∈ pieces,
      Candidate.indexOfName? candidates (String.ofList piece) = none → keyword? piece = none)
    (hindices : indices candidates pieces = .ok chosen) :
    read (String.ofList (answer ++ blanks)) candidates = .ok (.chosen chosen) := by
  have hblank : ∀ piece ∈ pieces, ∀ c ∈ piece, Text.isBlank c = false := by
    intro piece hpiece c hc
    rw [Bool.eq_false_iff]
    intro hisBlank
    have hfalse := hfree piece hpiece c hc
    rw [isSeparator_of_isBlank hisBlank] at hfalse
    exact absurd hfalse (by decide)
  have htrim : Text.trim (answer ++ blanks) = answer :=
    (hjoined.isTrimmed_append hne hblank hblanks).trim_eq
  have hruns : Text.runsBetween isSeparator answer = pieces :=
    (hjoined.parted (fun c hc ↦ hc.1) hne hfree).runsBetween_eq
  rw [read, String.toList_ofList, htrim]
  cases hname : Candidate.indexOfName? candidates (String.ofList answer) with
  | some i =>
    rcases hjoined.eq_single_or_mem with hsingle | ⟨c, hc, hgap⟩
    · rw [hsingle, indices, index, hname] at hindices
      have hchosen : [i] = chosen := Except.ok.inj hindices
      rw [← hchosen]
    · -- no name has a separator in it
      obtain ⟨candidate, hcandidate, hbinding⟩ := Candidate.exists_of_indexOfName? hname
      have hfalse := hnameable.not_isSeparator candidate hcandidate c (by rw [hbinding]; simpa)
      rw [hgap.1] at hfalse
      exact absurd hfalse (by decide)
  | none =>
    have hnone : keyword? answer = none := by
      rcases hjoined.eq_single_or_mem with hsingle | ⟨c, hc, hgap⟩
      · exact hkeyword answer (by rw [hsingle]; exact List.mem_cons_self) hname
      · have halphanum := isAlphanum_of_isSeparator hgap.1
        exact keyword?_eq_none hc (Bool.or_eq_false_iff.mp halphanum).1
    simp only [hnone, hruns, hindices]
    rfl

section Pieces

variable {candidates : List Candidate} {positions : List (Fin candidates.length)}

theorem names_ne_nil (h : Nameable candidates) :
    ∀ piece ∈ positions.map (fun i ↦ (candidates.get i).binding.toList), piece ≠ [] := by
  intro piece hpiece
  obtain ⟨i, _, rfl⟩ := List.mem_map.mp hpiece
  simpa using h.ne_empty _ (List.get_mem candidates i)

theorem names_not_isSeparator (h : Nameable candidates) :
    ∀ piece ∈ positions.map (fun i ↦ (candidates.get i).binding.toList),
      ∀ c ∈ piece, isSeparator c = false := by
  intro piece hpiece
  obtain ⟨i, _, rfl⟩ := List.mem_map.mp hpiece
  exact h.not_isSeparator _ (List.get_mem candidates i)

theorem numbers_ne_nil :
    ∀ piece ∈ positions.map (fun i ↦ Text.decimal (i.val + 1)), piece ≠ [] := by
  intro piece hpiece
  obtain ⟨i, _, rfl⟩ := List.mem_map.mp hpiece
  exact Text.decimal_ne_nil (i.val + 1)

theorem numbers_not_isSeparator :
    ∀ piece ∈ positions.map (fun i ↦ Text.decimal (i.val + 1)),
      ∀ c ∈ piece, isSeparator c = false := by
  intro piece hpiece c hc
  obtain ⟨i, _, rfl⟩ := List.mem_map.mp hpiece
  exact isSeparator_of_isDigit (Text.isDigit_of_mem_decimal hc)

variable {answer blanks : List Char}

theorem read_of_names (h : Nameable candidates)
    (hjoined : Text.Joined InGap
      (positions.map fun i ↦ (candidates.get i).binding.toList) answer)
    (hblanks : ∀ c ∈ blanks, Text.isBlank c = true) :
    read (String.ofList (answer ++ blanks)) candidates =
      .ok (.chosen (positions.map Fin.val)) := by
  have hindex : ∀ i ∈ positions,
      index candidates (candidates.get i).binding.toList = .ok i.val := by
    intro i _
    rw [index, String.ofList_toList, h.indexOfName?_get i]
  apply read_of_joined h hjoined (names_ne_nil h) (names_not_isSeparator h) hblanks _
    (indices_map positions hindex)
  intro piece hpiece hnone
  obtain ⟨i, _, rfl⟩ := List.mem_map.mp hpiece
  rw [String.ofList_toList, h.indexOfName?_get i] at hnone
  exact absurd hnone (by simp)

theorem read_of_numbers (h : Nameable candidates)
    (hcount : candidates.length < Text.numeralLimit)
    (hjoined : Text.Joined InGap (positions.map fun i ↦ Text.decimal (i.val + 1)) answer)
    (hblanks : ∀ c ∈ blanks, Text.isBlank c = true)
    (hnumber : ∀ i ∈ positions, ∀ candidate ∈ candidates,
      candidate.binding ≠ toString (i.val + 1)) :
    read (String.ofList (answer ++ blanks)) candidates =
      .ok (.chosen (positions.map Fin.val)) := by
  have hindex : ∀ i ∈ positions, index candidates (Text.decimal (i.val + 1)) = .ok i.val :=
    fun i hi ↦ index_decimal hcount i (hnumber i hi)
  apply read_of_joined h hjoined numbers_ne_nil numbers_not_isSeparator hblanks _
    (indices_map positions hindex)
  intro piece hpiece _
  obtain ⟨i, _, rfl⟩ := List.mem_map.mp hpiece
  exact keyword?_decimal (i.val + 1)

end Pieces

/-- Joined pieces are on one line. -/
theorem lineFeed_not_mem_joined {pieces : List (List Char)} {line : List Char}
    (hjoined : Text.Joined InGap pieces line)
    (hfree : ∀ piece ∈ pieces, ∀ c ∈ piece, isSeparator c = false) : '\n' ∉ line := by
  intro hmem
  rcases hjoined.mem hmem with ⟨piece, hpiece, hc⟩ | hgap
  · exact absurd (hfree piece hpiece '\n' hc) (by decide)
  · exact hgap.2 rfl

end Answer

/-! ## Lines at the prompt -/

namespace Prompt

theorem inputLines_append_lineFeed {line : List UInt8} (h : 10 ∉ line) (rest : List UInt8) :
    inputLines (line ++ 10 :: rest) = (line ++ [10]) :: inputLines rest := by
  induction line with
  | nil => rfl
  | cons byte line ih =>
    have hbyte : byte ≠ 10 := fun heq ↦ h (heq ▸ List.mem_cons_self)
    rw [List.cons_append, inputLines, if_neg hbyte,
      ih fun hmem ↦ h (List.mem_cons_of_mem byte hmem)]
    rfl

theorem inputLines_of_not_mem {line : List UInt8} (h : 10 ∉ line) (hne : line ≠ []) :
    inputLines line = [line] := by
  induction line with
  | nil => exact absurd rfl hne
  | cons byte line ih =>
    have hbyte : byte ≠ 10 := fun heq ↦ h (heq ▸ List.mem_cons_self)
    rw [inputLines, if_neg hbyte]
    cases line with
    | nil => rfl
    | cons second line =>
      rw [ih (fun hmem ↦ h (List.mem_cons_of_mem byte hmem)) (List.cons_ne_nil second line)]

/-- The input goes on with this line: behind it comes a line feed, or nothing. -/
def NextLine (prompt : Prompt) (line : List Char) : Prop :=
  ∃ rest : List UInt8, (rest = [] ∨ rest.head? = some 10) ∧
    prompt.pending = inputLines (encode line ++ rest)

theorem NextLine.exists_pending {prompt : Prompt} {line : List Char} (h : prompt.NextLine line)
    (hne : line ≠ []) (hfeed : '\n' ∉ line) :
    ∃ blanks others, prompt.pending = encode (line ++ blanks) :: others ∧
      ∀ c ∈ blanks, Text.isBlank c = true := by
  obtain ⟨rest, hrest, hpending⟩ := h
  have hbytes : 10 ∉ encode line := lineFeed_not_mem_encode hfeed
  rcases hrest with rfl | hhead
  · refine ⟨[], [], ?_, by simp⟩
    rw [hpending, List.append_nil, List.append_nil,
      inputLines_of_not_mem hbytes (encode_ne_nil hne)]
  · obtain ⟨others, rfl⟩ := List.head?_eq_some_iff.mp hhead
    have hblank : Text.isBlank '\n' = true := by decide
    refine ⟨['\n'], inputLines others, ?_, by simpa using hblank⟩
    rw [hpending, inputLines_append_lineFeed hbytes, encode_append, encode_lineFeed]

/-- The screen takes the candidates and a question. -/
def Takes (prompt : Prompt) (candidates : List Candidate) : Prop :=
  prompt.screen.fits (encode (listing prompt.structName prompt.colour candidates) ++
    encode (question prompt.colour)) = true

theorem fits_append {screen : Screen} {front back : List UInt8}
    (h : screen.fits (front ++ back) = true) :
    screen.fits front = true ∧ (screen.put front).fits back = true := by
  obtain ⟨limit, shown⟩ := screen
  cases limit with
  | none => exact ⟨rfl, rfl⟩
  | some limit =>
    simp only [Screen.fits, Screen.put, decide_eq_true_eq, List.length_append,
      List.length_take] at h ⊢
    omega

/-- An answer on the next line is what the prompt returns, whether or not a line feed follows. -/
theorem present_of_nextLine {prompt : Prompt} {candidates : List Candidate} {line : List Char}
    {response : Response} (htakes : prompt.Takes candidates) (hline : prompt.NextLine line)
    (hne : line ≠ []) (hfeed : '\n' ∉ line)
    (hread : ∀ blanks, (∀ c ∈ blanks, Text.isBlank c = true) →
      Answer.read (String.ofList (line ++ blanks)) candidates = .ok response) :
    (present candidates prompt).1 = .ok response := by
  obtain ⟨blanks, others, hpending, hblanks⟩ := hline.exists_pending hne hfeed
  obtain ⟨hlisting, hquestion⟩ := fits_append htakes
  simp only [present, hlisting, hpending, ask, hquestion, decode?_encode, hread blanks hblanks]
  rfl

theorem present_of_joined {prompt : Prompt} {candidates : List Candidate}
    {pieces : List (List Char)} {line : List Char} {response : Response}
    (htakes : prompt.Takes candidates) (hline : prompt.NextLine line)
    (hjoined : Text.Joined Answer.InGap pieces line) (hne : ∀ piece ∈ pieces, piece ≠ [])
    (hfree : ∀ piece ∈ pieces, ∀ c ∈ piece, Answer.isSeparator c = false)
    (hread : ∀ blanks, (∀ c ∈ blanks, Text.isBlank c = true) →
      Answer.read (String.ofList (line ++ blanks)) candidates = .ok response) :
    (present candidates prompt).1 = .ok response := by
  have hline_ne : line ≠ [] := by
    rintro rfl
    obtain ⟨c, hhead, _⟩ := hjoined.exists_head? hne
    simp at hhead
  exact present_of_nextLine htakes hline hline_ne
    (Answer.lineFeed_not_mem_joined hjoined hfree) hread

end Prompt

end Memberwise
