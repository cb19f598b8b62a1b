import Memberwise.Proofs.Selection.Dialogue

/-!
# A screen that takes no more

A screen with a limit keeps the first bytes that are written and refuses all others. The prompt
stops at the first refusal, before it reads or answers anything, so the limited screen always shows
the beginning of what an unlimited one would show. Both runs are followed side by side: they go
alike as long as everything fits, and from then on the limited one fails.

The main statement: of the uses of a prompt exactly those fail for want of room that would have
shown more than the limit by their end, and every other one has the result that it has without a
limit.
-/

namespace Memberwise

namespace Screen

variable {limit : Nat} {shown bytes : List UInt8}

/-- The screen that keeps the first `limit` bytes of what was written. -/
def cut (limit : Nat) (shown : List UInt8) : Screen := ⟨some limit, shown.take limit⟩

theorem put_cut (bytes : List UInt8) :
    (cut limit shown).put bytes = cut limit (shown ++ bytes) := by
  have hroom : limit - min limit shown.length = limit - shown.length := by omega
  simp only [cut, put, List.take_append, List.take_take, Nat.min_self, List.length_take, hroom]

/-- Something to write fits if the limit is not below all that was written. -/
theorem fits_cut (h : bytes ≠ []) :
    (cut limit shown).fits bytes = decide ((shown ++ bytes).length ≤ limit) := by
  have hpos := List.length_pos_iff.mpr h
  simp only [cut, fits, List.length_take, List.length_append, decide_eq_decide]
  omega

/-- A full screen shows nothing of what comes later. -/
theorem cut_append (h : limit ≤ shown.length) (bytes : List UInt8) :
    cut limit (shown ++ bytes) = cut limit shown := by
  rw [cut, cut, List.take_append_of_le_length h]

end Screen

namespace Prompt

theorem listing_ne_nil (structName : String) (colour : Bool) (candidates : List Candidate) :
    listing structName colour candidates ≠ [] := by
  simp [listing, titleLine]

theorem question_ne_nil (colour : Bool) : question colour ≠ [] := by
  simp [question]

theorem refusal_ne_nil (colour : Bool) (cause : AnswerError) : refusal colour cause ≠ [] := by
  simp [refusal]

/-- What comes of asking: the result, the lines left and the screen. -/
abbrev Asked := Except SelectionError Response × List (List UInt8) × Screen

/-- `limited` is what `free` becomes on a screen that keeps `limit` bytes: the same, if that is room
enough, and else an error and a full screen. -/
structure LimitedTo (limit : Nat) (free limited : Asked) : Prop where
  screen : limited.2.2 = .cut limit free.2.2.shown
  result : limited.1 = if free.2.2.shown.length ≤ limit then free.1 else .error screenFull
  pending : free.2.2.shown.length ≤ limit → limited.2.1 = free.2.1

theorem limitedTo_of_refused {limit : Nat} {free : Asked} {shown : List UInt8}
    (hfree : shown <+: free.2.2.shown) (hfull : limit < shown.length)
    (pending : List (List UInt8)) :
    LimitedTo limit free (.error screenFull, pending, .cut limit shown) := by
  obtain ⟨later, hlater⟩ := hfree
  have hlength : shown.length ≤ free.2.2.shown.length := by simp [← hlater]
  refine ⟨?_, ?_, fun hle ↦ ?_⟩
  · rw [← hlater, Screen.cut_append (Nat.le_of_lt hfull)]
  · rw [if_neg (by omega)]
  · omega

theorem limitedTo_of_written {limit : Nat} {shown : List UInt8} (h : shown.length ≤ limit)
    (result : Except SelectionError Response) (pending : List (List UInt8)) :
    LimitedTo limit (result, pending, ⟨none, shown⟩) (result, pending, .cut limit shown) :=
  ⟨rfl, (if_pos h).symm, fun _ ↦ rfl⟩

section Ask

variable {colour : Bool} {candidates : List Candidate} {screen : Screen}

/-- Where the question has no room nothing is read. -/
theorem ask_of_not_fits (h : screen.fits (encode (question colour)) = false)
    (pending : List (List UInt8)) :
    ask colour candidates pending screen =
      (.error screenFull, pending, screen.put (encode (question colour))) := by
  cases pending <;> simp [ask, h]

theorem ask_nil_of_fits (h : screen.fits (encode (question colour)) = true) :
    ask colour candidates [] screen =
      let asked := screen.put (encode (question colour))
      (if asked.fits (encode ['\n']) then .ok .cancelled else .error screenFull, [],
        asked.put (encode ['\n'])) := by
  rw [ask, h]
  simp only [Bool.not_true, Bool.false_eq_true, if_false]
  split <;> rfl

theorem ask_cons_of_fits (h : screen.fits (encode (question colour)) = true)
    (line : List UInt8) (others : List (List UInt8)) :
    ask colour candidates (line :: others) screen =
      let asked := screen.put (encode (question colour))
      match (decode? line).map fun text ↦ Answer.read text candidates with
      | none => (.error inputNotText, others, asked)
      | some (.ok response) => (.ok response, others, asked)
      | some (.error cause) =>
        let refused := asked.put (encode (refusal colour cause))
        if asked.fits (encode (refusal colour cause)) then ask colour candidates others refused
        else (.error screenFull, others, refused) := by
  rw [ask, h]
  cases decode? line with
  | none => rfl
  | some text => cases hread : Answer.read text candidates <;> simp [hread]

end Ask

/-- What was shown before asking stays, and the question comes next. -/
theorem exists_screen_ask (colour : Bool) (candidates : List Candidate)
    (pending : List (List UInt8)) (shown : List UInt8) :
    ∃ later, (ask colour candidates pending ⟨none, shown⟩).2.2 =
      ⟨none, shown ++ encode (question colour) ++ later⟩ := by
  induction pending generalizing shown with
  | nil => exact ⟨encode ['\n'], by simp [ask]⟩
  | cons line others ih =>
    rw [ask_cons_of_fits rfl]
    simp only [put_unlimited, fits_unlimited, if_true]
    split
    · exact ⟨[], by simp⟩
    · exact ⟨[], by simp⟩
    · rename_i cause _
      obtain ⟨later, hlater⟩ := ih (shown ++ encode (question colour) ++
        encode (refusal colour cause))
      refine ⟨encode (refusal colour cause) ++ encode (question colour) ++ later, ?_⟩
      rw [hlater]
      simp only [List.append_assoc]

theorem isPrefix_ask (colour : Bool) (candidates : List Candidate) (pending : List (List UInt8))
    (shown : List UInt8) :
    shown ++ encode (question colour) <+:
      (ask colour candidates pending ⟨none, shown⟩).2.2.shown := by
  obtain ⟨later, hlater⟩ := exists_screen_ask colour candidates pending shown
  rw [hlater]
  exact List.prefix_append _ later

section Limited

variable (limit : Nat) (colour : Bool) (candidates : List Candidate)

theorem fits_cut_question (shown : List UInt8) :
    (Screen.cut limit shown).fits (encode (question colour)) =
      decide ((shown ++ encode (question colour)).length ≤ limit) :=
  Screen.fits_cut (encode_ne_nil (question_ne_nil colour))

theorem limitedTo_ask_of_lt {shown : List UInt8} (pending : List (List UInt8))
    (h : limit < (shown ++ encode (question colour)).length) :
    LimitedTo limit (ask colour candidates pending ⟨none, shown⟩)
      (ask colour candidates pending (.cut limit shown)) := by
  have hfits := fits_cut_question limit colour shown
  rw [decide_eq_false (Nat.not_le_of_lt h)] at hfits
  rw [ask_of_not_fits hfits, Screen.put_cut]
  exact limitedTo_of_refused (isPrefix_ask colour candidates pending shown) h pending

/-- Asking goes alike on both screens up to the first write that has no room. -/
theorem limitedTo_ask (pending : List (List UInt8)) (shown : List UInt8) :
    LimitedTo limit (ask colour candidates pending ⟨none, shown⟩)
      (ask colour candidates pending (.cut limit shown)) := by
  induction pending generalizing shown with
  | nil =>
    rcases Nat.lt_or_ge limit (shown ++ encode (question colour)).length with hfull | hroom
    · exact limitedTo_ask_of_lt limit colour candidates [] hfull
    have hend : encode ['\n'] ≠ [] := encode_ne_nil (List.cons_ne_nil _ _)
    have hfits := fits_cut_question limit colour shown
    rw [decide_eq_true hroom] at hfits
    rw [ask_nil_of_fits rfl, ask_nil_of_fits hfits]
    simp only [Screen.put_cut, Screen.fits_cut hend, fits_unlimited, put_unlimited, if_true,
      decide_eq_true_eq]
    split
    · exact limitedTo_of_written ‹_› _ _
    · exact limitedTo_of_refused List.prefix_rfl (Nat.lt_of_not_le ‹_›) _
  | cons line others ih =>
    rcases Nat.lt_or_ge limit (shown ++ encode (question colour)).length with hfull | hroom
    · exact limitedTo_ask_of_lt limit colour candidates (line :: others) hfull
    have hfits := fits_cut_question limit colour shown
    rw [decide_eq_true hroom] at hfits
    rw [ask_cons_of_fits rfl, ask_cons_of_fits hfits]
    simp only [Screen.put_cut, put_unlimited]
    rcases (decode? line).map fun text ↦ Answer.read text candidates with _ | cause | response
    · exact limitedTo_of_written hroom _ _
    · have hrefusal := encode_ne_nil (refusal_ne_nil colour cause)
      simp only [Screen.fits_cut hrefusal, fits_unlimited, if_true, decide_eq_true_eq]
      split
      · exact ih _
      · have hprefix := isPrefix_ask colour candidates others
          (shown ++ encode (question colour) ++ encode (refusal colour cause))
        exact limitedTo_of_refused ((List.prefix_append _ _).trans hprefix)
          (Nat.lt_of_not_le ‹_›) _
    · exact limitedTo_of_written hroom _ _

end Limited

/-! ## Uses -/

/-- The second prompt was used like the first one, on a screen that keeps `limit` bytes. Once that
is full it may have read less. -/
inductive Lags (limit : Nat) : Prompt → Prompt → Prop where
  | mk {structName : String} {colour : Bool} {pending others : List (List UInt8)}
      {shown : List UInt8} (h : shown.length ≤ limit → others = pending) :
      Lags limit ⟨structName, colour, pending, ⟨none, shown⟩⟩
        ⟨structName, colour, others, .cut limit shown⟩

theorem lags_start (structName : String) (colour : Bool) (limit : Nat) (input : List UInt8) :
    Lags limit (start structName colour none input)
      (start structName colour (some limit) input) := by
  have hblank : Screen.blank (some limit) = .cut limit [] := by
    rw [Screen.blank, Screen.cut, List.take_nil]
  rw [start, start, hblank]
  exact .mk fun _ ↦ rfl

theorem Lags.shown_eq {limit : Nat} {free limited : Prompt} (h : Lags limit free limited) :
    limited.screen.shown = free.screen.shown.take limit := by
  cases h
  rfl

/-- A use has its result if all that was shown by its end fits the limit, and else it fails. -/
theorem Lags.present {limit : Nat} {free limited : Prompt} (h : Lags limit free limited)
    (candidates : List Candidate) :
    Lags limit (present candidates free).2 (present candidates limited).2 ∧
      (present candidates limited).1 =
        if (present candidates free).2.screen.shown.length ≤ limit then
          (present candidates free).1
        else .error screenFull := by
  cases h with
  | @mk structName colour pending others shown h =>
    have hlisting := encode_ne_nil (listing_ne_nil structName colour candidates)
    have hfits := @Screen.fits_cut limit shown _ hlisting
    simp only [Prompt.present, fits_unlimited, put_unlimited, Screen.put_cut, if_true, hfits,
      decide_eq_true_eq]
    generalize encode (listing structName colour candidates) = bytes
    obtain ⟨later, hlater⟩ := exists_screen_ask colour candidates pending (shown ++ bytes)
    split
    · rename_i hroom
      obtain rfl := h (Nat.le_trans (by simp) hroom)
      have hask := limitedTo_ask limit colour candidates others (shown ++ bytes)
      rcases hfree : ask colour candidates others ⟨none, shown ++ bytes⟩ with ⟨result, left, screen⟩
      rcases hlimited : ask colour candidates others (.cut limit (shown ++ bytes)) with
        ⟨otherResult, otherLeft, otherScreen⟩
      rw [hfree] at hlater hask
      rw [hlimited] at hask
      obtain ⟨hscreen, hresult, hpending⟩ := hask
      subst hlater hscreen
      exact ⟨.mk hpending, hresult⟩
    · rename_i hfull
      rw [hlater, ← Screen.cut_append (Nat.le_of_not_le hfull) (encode (question colour) ++ later),
        ← List.append_assoc, if_neg (by simp at hfull ⊢; omega)]
      exact ⟨.mk fun hle ↦ absurd hle (by simp at hfull ⊢; omega), rfl⟩

theorem converse_cons (prompt : Prompt) (candidates : List Candidate)
    (calls : List (List Candidate)) :
    prompt.converse (candidates :: calls) =
      let next := (Prompt.present candidates prompt).2
      ((Prompt.present candidates prompt).1 :: (next.converse calls).1, (next.converse calls).2) :=
  rfl

theorem Lags.converse {limit : Nat} {free limited : Prompt} (h : Lags limit free limited)
    (calls : List (List Candidate)) :
    Lags limit (free.converse calls).2 (limited.converse calls).2 := by
  induction calls generalizing free limited with
  | nil => exact h
  | cons candidates calls ih =>
    rw [converse_cons, converse_cons]
    exact ih (h.present candidates).1

/-- Each use has its own result or fails, by what was shown up to its end. -/
theorem Lags.exists_result {limit : Nat} {free limited : Prompt} (h : Lags limit free limited)
    {calls : List (List Candidate)} {k : Nat} (hk : k < calls.length) :
    ∃ result, (free.converse calls).1[k]? = some result ∧
      (limited.converse calls).1[k]? = some
        (if (free.converse (calls.take (k + 1))).2.screen.shown.length ≤ limit then result
        else .error screenFull) := by
  induction calls generalizing free limited k with
  | nil => simp at hk
  | cons candidates calls ih =>
    obtain ⟨hnext, hresult⟩ := h.present candidates
    cases k with
    | zero =>
      refine ⟨_, rfl, ?_⟩
      simp only [converse_cons, List.getElem?_cons_zero, hresult]
      rfl
    | succ k => exact ih hnext (Nat.lt_of_succ_lt_succ hk)

/-- A screen that keeps `limit` bytes shows the first bytes of what is shown without a limit. A use
has the result that it has there if no more was shown by its end, and every later use fails. -/
theorem converse_start_limited (structName : String) (colour : Bool) (input : List UInt8)
    (limit : Nat) (calls : List (List Candidate)) :
    let free := start structName colour none input
    let limited := start structName colour (some limit) input
    (limited.converse calls).2.screen.shown = (free.converse calls).2.screen.shown.take limit ∧
      ∀ k < calls.length,
        let total := (free.converse (calls.take (k + 1))).2.screen.shown.length
        ∃ result, (free.converse calls).1[k]? = some result ∧
          (total ≤ limit → (limited.converse calls).1[k]? = some result) ∧
          (limit < total → (limited.converse calls).1[k]? =
            some (.error (.presenterFailed "failed to write whole buffer"))) := by
  intro free limited
  have hlags := lags_start structName colour limit input
  refine ⟨(hlags.converse calls).shown_eq, fun k hk ↦ ?_⟩
  obtain ⟨result, hfree, hlimited⟩ := hlags.exists_result hk
  refine ⟨result, hfree, fun hle ↦ ?_, fun hlt ↦ ?_⟩
  · rw [hlimited, if_pos hle]
  · rw [hlimited, if_neg (Nat.not_le_of_lt hlt)]
    rfl

/-- The first of three uses has room; the second one fails within the reason for which its line is
refused, and the third one at its title. -/
theorem converse_start_limited_of_three_uses :
    let candidates : List Candidate := [⟨0, "a", "a", "u8"⟩]
    let calls := [candidates, candidates, candidates]
    let run (limit : Option Nat) :=
      (start "S" false limit "1\nx\nall\n".toUTF8.toList).converse calls
    (run (some 190)).1[0]? = some (.ok (.chosen [0])) ∧
      (run (some 190)).1[1]? = some (.error (.presenterFailed "failed to write whole buffer")) ∧
      (run (some 190)).1[2]? = some (.error (.presenterFailed "failed to write whole buffer")) ∧
      (run (some 190)).2.screen.shown = (run none).2.screen.shown.take 190 := by
  intro candidates calls run
  obtain ⟨hshown, huses⟩ :=
    converse_start_limited "S" false "1\nx\nall\n".toUTF8.toList 190 calls
  obtain ⟨first, hfirst, hroom, -⟩ := huses 0 (by decide)
  obtain ⟨_, -, -, hsecond⟩ := huses 1 (by decide)
  obtain ⟨_, -, -, hthird⟩ := huses 2 (by decide)
  have hanswer : (run none).1[0]? = some (.ok (.chosen [0])) := by decide +kernel
  obtain rfl := Option.some.inj (hfirst.symm.trans hanswer)
  exact ⟨hroom (by decide +kernel), hsecond (by decide +kernel), hthird (by decide +kernel), hshown⟩

end Prompt

end Memberwise
