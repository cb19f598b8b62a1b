import Memberwise.Proofs.Text.Spacing

/-!
# Source text without its comments

Comments are deleted by reading a text once, from its beginning. What has been read decides what the
next character means: inside a literal nothing opens a comment, and a slash is held back until it is
clear whether it opens one. Deleting leaves the line feed that ends a line comment where it is.

For a blank only one thing matters besides: whether it is the line feed that ends a line comment.
So a reader for whom line comments go on to the end of the text sees the same words in a text and
in its collapsed form, in which there is no line feed.

The main statement: collapsing a text loses the words behind its first line comment, and no others.
-/

namespace Memberwise.Source

/-! ## Reading -/

/-- What the text read so far ends with. -/
inductive Reader where
  | code
  /-- A slash that may open a comment. -/
  | slash
  /-- The mark of a raw string, with the number of hash signs behind it. -/
  | mark (hashes : Nat)
  | string
  | stringEscape
  | raw (hashes : Nat)
  /-- A quote in a raw string, which as many more hash signs would end. -/
  | rawQuote (hashes missing : Nat)
  /-- A single quote, which begins a character literal or a lifetime. -/
  | quote
  | quoteBlank
  | quoteOther
  | quoteEscape
  /-- An escape in a character literal, which goes on as far as the next single quote. -/
  | charEscape
  | lineComment
  /-- A block comment, with the number of comments around it. -/
  | comment (outer : Nat)
  | commentSlash (outer : Nat)
  | commentAsterisk (outer : Nat)
deriving DecidableEq, Repr

namespace Reader

/-- What a character in code opens. -/
def opening (c : Char) : Reader :=
  if c = '/' then slash
  else if c = 'r' then mark 0
  else if c = '\x22' then string
  else if c = '\x27' then quote
  else code

/-- What a block comment with `outer` comments around it is followed by. -/
def behindComment : Nat → Reader
  | 0 => code
  | further + 1 => comment further

/-- One more character. Unless `lines`, a line comment goes on to the end of the text. -/
def next (lines : Bool) : Reader → Char → Reader
  | code, c => opening c
  | slash, c => if c = '/' then lineComment else if c = '*' then comment 0 else opening c
  | mark hashes, c =>
    if c = '#' then mark (hashes + 1) else if c = '\x22' then raw hashes else opening c
  | string, c => if c = '\x22' then code else if c = '\\' then stringEscape else string
  | stringEscape, _ => string
  | raw hashes, c =>
    if c = '\x22' then if hashes = 0 then code else rawQuote hashes hashes else raw hashes
  | rawQuote hashes missing, c =>
    if c = '\x22' then rawQuote hashes hashes
    else if c = '#' then if missing ≤ 1 then code else rawQuote hashes (missing - 1)
    else raw hashes
  | quote, c =>
    if Text.isBlank c then quoteBlank else if c = '\\' then quoteEscape else quoteOther
  | quoteBlank, c =>
    if Text.isBlank c then quoteBlank else if c = '\x27' then code else opening c
  | quoteOther, c => if c = '\x27' then code else opening c
  | quoteEscape, _ => charEscape
  | charEscape, c => if c = '\x27' then code else charEscape
  | lineComment, c => if lines && c = '\n' then code else lineComment
  | comment outer, c =>
    if c = '/' then commentSlash outer else if c = '*' then commentAsterisk outer
    else comment outer
  | commentSlash outer, c =>
    if c = '*' then comment (outer + 1) else if c = '/' then commentSlash outer
    else comment outer
  | commentAsterisk outer, c =>
    if c = '/' then behindComment outer
    else if c = '*' then commentAsterisk outer
    else comment outer

/-- Whether the reader stands in a comment. -/
def hides : Reader → Bool
  | lineComment | comment _ | commentSlash _ | commentAsterisk _ => true
  | _ => false

/-- What was read and is held back. -/
def held : Reader → List Char
  | slash => ['/']
  | _ => []

/-- What one more character leaves of the text. -/
def output (lines : Bool) (reader : Reader) (c : Char) : List Char :=
  if reader.hides then if lines && reader = lineComment && c = '\n' then [c] else []
  else if (reader.next lines c).hides then []
  else if reader.next lines c = slash then []
  else reader.held ++ [c]

/-- The rest of a text without its comments. -/
def uncommented (lines : Bool) : Reader → List Char → List Char
  | reader, [] => reader.held
  | reader, c :: rest => reader.output lines c ++ (reader.next lines c).uncommented lines rest

/-! ## Blanks -/

theorem ne_of_isBlank {b c : Char} (hb : Text.isBlank b = true) (hc : Text.isBlank c = false) :
    b ≠ c := by
  rintro rfl
  exact absurd hb (by simp [hc])

/-- No blank opens or closes anything. -/
theorem blank_ne {b : Char} (hb : Text.isBlank b = true) :
    b ≠ '/' ∧ b ≠ '*' ∧ b ≠ 'r' ∧ b ≠ '#' ∧ b ≠ '\\' ∧ b ≠ '\x22' ∧ b ≠ '\x27' :=
  ⟨ne_of_isBlank hb (by decide), ne_of_isBlank hb (by decide), ne_of_isBlank hb (by decide),
    ne_of_isBlank hb (by decide), ne_of_isBlank hb (by decide), ne_of_isBlank hb (by decide),
    ne_of_isBlank hb (by decide)⟩

/-- The reader behind a blank, whichever it is. -/
def afterBlank : Reader → Reader
  | string | stringEscape => string
  | raw hashes | rawQuote hashes _ => raw hashes
  | quote | quoteBlank => quoteBlank
  | quoteEscape | charEscape => charEscape
  | lineComment => lineComment
  | comment outer | commentSlash outer | commentAsterisk outer => comment outer
  | code | slash | mark _ | quoteOther => code

theorem next_blank {b : Char} (hb : Text.isBlank b = true) (reader : Reader) :
    reader.next false b = reader.afterBlank := by
  obtain ⟨hslash, hasterisk, hr, hhash, hbackslash, hdouble, hsingle⟩ := blank_ne hb
  cases reader <;>
    simp [next, opening, afterBlank, hb, hslash, hasterisk, hr, hhash, hbackslash, hdouble, hsingle]

@[simp] theorem hides_afterBlank (reader : Reader) : reader.afterBlank.hides = reader.hides := by
  cases reader <;> rfl

@[simp] theorem held_afterBlank (reader : Reader) : reader.afterBlank.held = [] := by
  cases reader <;> rfl

@[simp] theorem afterBlank_afterBlank (reader : Reader) :
    reader.afterBlank.afterBlank = reader.afterBlank := by
  cases reader <;> rfl

theorem held_of_hides {reader : Reader} (h : reader.hides = true) : reader.held = [] := by
  cases reader <;> first | rfl | simp [hides] at h

theorem uncommented_cons_blank {b : Char} (hb : Text.isBlank b = true) (reader : Reader)
    (rest : List Char) :
    reader.uncommented false (b :: rest) =
      reader.held ++ ((if reader.hides then [] else [b]) ++
        reader.afterBlank.uncommented false rest) := by
  have hslash : reader.afterBlank ≠ slash := by cases reader <;> simp [afterBlank]
  rw [uncommented, output, next_blank hb]
  cases hhides : reader.hides with
  | true => simp [held_of_hides hhides]
  | false => simp [hhides, hslash]

/-- With other blanks a text has the same words outside of its comments, if line comments go on to
the end of the text. -/
theorem sameWords_uncommented {text other : List Char} (h : Text.Respaced text other)
    (reader : Reader) :
    Text.SameWords (reader.uncommented false text) (reader.uncommented false other) := by
  induction h generalizing reader with
  | nil => exact .refl _
  | cons c h ih => exact (ih (reader.next false c)).append_left (reader.output false c)
  | blank hb h ih =>
    have hspace : Text.isBlank ' ' = true := by decide
    rw [uncommented_cons_blank hb, uncommented_cons_blank hspace]
    apply Text.SameWords.append_left
    cases reader.hides with
    | true => exact ih reader.afterBlank
    | false => exact (ih reader.afterBlank).cons_blank hb hspace
  | @merge b d hb hd text other h ih =>
    refine Text.SameWords.trans ?_ (ih reader)
    rw [uncommented_cons_blank hb, uncommented_cons_blank hd, uncommented_cons_blank hd,
      held_afterBlank, hides_afterBlank, afterBlank_afterBlank]
    apply Text.SameWords.append_left
    cases reader.hides with
    | true => exact .refl _
    | false => exact .merge_blanks hb hd _
  | last hb =>
    have hnil : reader.uncommented false [] = reader.held ++ [] := (List.append_nil _).symm
    rw [uncommented_cons_blank hb, hnil, uncommented, held_afterBlank, List.append_nil]
    apply Text.SameWords.append_left
    cases reader.hides with
    | true => exact .refl _
    | false => exact .last_blank hb

/-! ## Line comments -/

theorem next_lines {reader : Reader} {c : Char} (h : reader = lineComment → c ≠ '\n') :
    reader.next true c = reader.next false c := by
  cases reader <;> simp_all [next]

theorem output_lines {reader : Reader} {c : Char} (h : reader = lineComment → c ≠ '\n') :
    reader.output true c = reader.output false c := by
  rw [output, output, next_lines h]
  cases reader <;> simp_all

theorem uncommented_of_not_mem {text : List Char} (h : '\n' ∉ text) (reader : Reader) :
    reader.uncommented true text = reader.uncommented false text := by
  induction text generalizing reader with
  | nil => rfl
  | cons c rest ih =>
    have hc : c ≠ '\n' := fun heq ↦ h (heq ▸ List.mem_cons_self)
    rw [uncommented, uncommented, output_lines fun _ ↦ hc, next_lines fun _ ↦ hc,
      ih fun hmem ↦ h (List.mem_cons_of_mem c hmem)]

/-- The rest of a text from the end of the line of its first line comment. -/
def behindLine : Reader → List Char → List Char
  | _, [] => []
  | reader, c :: rest =>
    if reader.next false c = lineComment then rest.dropWhile (· ≠ '\n')
    else (reader.next false c).behindLine rest

theorem behindComment_ne (outer : Nat) :
    behindComment outer ≠ slash ∧ behindComment outer ≠ lineComment := by
  cases outer <;> simp [behindComment]

theorem eq_slash_of_next_eq_lineComment {reader : Reader} {c : Char} (h : reader ≠ lineComment)
    (hnext : reader.next false c = lineComment) : reader = slash ∧ c = '/' := by
  cases reader <;> grind [next, opening, behindComment_ne]

theorem eq_slash_char_of_next {reader : Reader} {c : Char} (hnext : reader.next false c = slash) :
    c = '/' := by
  cases reader <;> grind [next, opening, behindComment_ne]

/-- Two slashes begin a line comment, and nothing else does. -/
theorem behindLine_eq_nil {reader : Reader} {text : List Char} (hline : reader ≠ lineComment)
    (hslash : reader = slash → text.head? ≠ some '/') (h : ¬ ['/', '/'] <:+: text) :
    reader.behindLine text = [] := by
  induction text generalizing reader with
  | nil => rfl
  | cons c rest ih =>
    have hnext : reader.next false c ≠ lineComment := by
      intro hopened
      obtain ⟨hreader, rfl⟩ := eq_slash_of_next_eq_lineComment hline hopened
      exact hslash hreader rfl
    rw [behindLine, if_neg hnext]
    refine ih hnext (fun hnextslash hhead ↦ ?_) fun hinfix ↦ h (List.infix_cons hinfix)
    obtain rfl := eq_slash_char_of_next hnextslash
    obtain ⟨more, rfl⟩ := List.head?_eq_some_iff.mp hhead
    exact h (List.prefix_append ['/', '/'] more).isInfix

theorem uncommented_lineComment_false (text : List Char) :
    lineComment.uncommented false text = [] := by
  induction text with
  | nil => rfl
  | cons c rest ih => simpa [uncommented, output, hides, next] using ih

theorem uncommented_lineComment_true (text : List Char) :
    lineComment.uncommented true text = code.uncommented true (text.dropWhile (· ≠ '\n')) := by
  induction text with
  | nil => rfl
  | cons c rest ih =>
    by_cases hc : c = '\n'
    · subst hc
      rfl
    · rw [List.dropWhile_cons_of_pos (by simpa using hc), ← ih]
      simp [uncommented, output, hides, next, hc]

/-- A text without its comments is what a reader sees for whom its first line comment does not end,
and then what is behind the line of that comment. -/
theorem uncommented_eq_append {reader : Reader} (h : reader ≠ lineComment) (text : List Char) :
    reader.uncommented true text =
      reader.uncommented false text ++ code.uncommented true (reader.behindLine text) := by
  induction text generalizing reader with
  | nil => simp [uncommented, behindLine, held]
  | cons c rest ih =>
    have hlines : reader = lineComment → c ≠ '\n' := fun heq ↦ absurd heq h
    rw [uncommented, uncommented, output_lines hlines, next_lines hlines, behindLine,
      List.append_assoc]
    split
    · rename_i hline
      rw [hline, uncommented_lineComment_true, uncommented_lineComment_false, List.nil_append]
    · rename_i hline
      rw [ih hline]

/-- Behind a line there is nothing, or the line feed that ends it. -/
theorem words_append_behindLine (front : List Char) (reader : Reader) (text : List Char) :
    Text.words (front ++ code.uncommented true (reader.behindLine text)) =
      Text.words front ++ Text.words (code.uncommented true (reader.behindLine text)) := by
  induction text generalizing reader with
  | nil => simp [behindLine, uncommented, held, Text.words]
  | cons c rest ih =>
    rw [behindLine]
    split
    · cases hrest : rest.dropWhile (· ≠ '\n') with
      | nil => simp [uncommented, held, Text.words]
      | cons d more =>
        have hhead := List.head?_dropWhile_not (· ≠ '\n') rest
        rw [hrest] at hhead
        have hd : d = '\n' := by simpa using hhead
        subst hd
        have hfeed : Text.isBlank '\n' = true := by decide
        have hmore : code.uncommented true ('\n' :: more) = '\n' :: code.uncommented true more :=
          rfl
        rw [hmore, Text.words_append_blank hfeed, Text.words_cons_blank hfeed]
    · exact ih _

/-- Blanks at the beginning belong to no word. -/
theorem words_uncommented_squeeze (text : List Char) :
    Text.words (code.uncommented false (Text.squeeze text)) =
      Text.words (code.uncommented false (Text.collapse text)) := by
  cases text with
  | nil => rfl
  | cons c rest =>
    cases hc : Text.isBlank c with
    | false => rw [Text.squeeze_eq_collapse hc]
    | true =>
      rw [Text.squeeze_cons_blank hc, Text.collapse_cons_blank hc]
      split
      · rename_i hwords
        rw [Text.collapse_eq_nil_iff.mpr hwords]
      · have hspace : Text.isBlank ' ' = true := by decide
        rw [uncommented_cons_blank hspace]
        exact Text.words_cons_blank hspace _

end Reader

/-- A source text without its comments. -/
def uncommented (text : List Char) : List Char := Reader.code.uncommented true text

/-- The words of a source text outside of its comments. -/
def visibleWords (text : List Char) : List (List Char) := Text.words (uncommented text)

/-- What is behind the line of the first line comment in a source text. -/
def behindLineComment (text : List Char) : List Char := Reader.code.behindLine text

/-- Collapsing loses what is behind the line of the first line comment, which then goes on to the
end. -/
theorem visibleWords_eq_append (text : List Char) :
    visibleWords text =
      visibleWords (Text.collapse text) ++ visibleWords (behindLineComment text) := by
  have hcollapse : Reader.code.uncommented true (Text.collapse text) =
      Reader.code.uncommented false (Text.collapse text) :=
    Reader.uncommented_of_not_mem (Text.lineFeed_not_mem_squeeze text).2 _
  have hspaced := Reader.sameWords_uncommented (Text.respaced_squeeze text) .code
  simp only [visibleWords, uncommented, behindLineComment]
  rw [Reader.uncommented_eq_append (by simp), Reader.words_append_behindLine, hspaced.words_eq,
    Reader.words_uncommented_squeeze, hcollapse]

/-- Collapsing keeps the words outside of comments exactly if there are none behind the line of the
first line comment. -/
theorem visibleWords_collapse_iff (text : List Char) :
    visibleWords (Text.collapse text) = visibleWords text ↔
      visibleWords (behindLineComment text) = [] := by
  rw [visibleWords_eq_append text, List.self_eq_append_right]

/-- Without two slashes in a row nothing is lost. -/
theorem visibleWords_collapse {text : List Char} (h : ¬ ['/', '/'] <:+: text) :
    visibleWords (Text.collapse text) = visibleWords text := by
  rw [visibleWords_collapse_iff, behindLineComment,
    Reader.behindLine_eq_nil (by simp) (by simp) h]
  rfl

end Memberwise.Source
