import Memberwise.Source.Lenient.FieldList
import Memberwise.Source.Lenient.GenericList
import Memberwise.Source.Lenient.StructItem
import Mathlib.Data.List.Basic
import Mathlib.Data.List.TakeDrop

/-!
# Parts of a run of tokens

Reading a declaration cuts its tokens into parts, drops some and takes one of several. Whatever is
taken, no token is made up: the parts consist of tokens of the whole.
-/

namespace Memberwise.Source.Lenient

namespace Token

/-! ## Cuts -/

section Cuts

variable {stops : Token → Bool} {nesting : Nesting} {tokens front back : List Token}

theorem subset_of_append_eq (h : front ++ back = tokens) : front ⊆ tokens ∧ back ⊆ tokens := by
  subst h
  exact ⟨List.subset_append_left front back, List.subset_append_right front back⟩

theorem subset_of_splitAtTop (h : splitAtTop stops nesting tokens = (front, back)) :
    front ⊆ tokens ∧ back ⊆ tokens := by
  have happend := splitAtTop_append stops nesting tokens
  rw [h] at happend
  exact subset_of_append_eq happend

theorem subset_of_splitBeforeItem {last : Token}
    (h : splitBeforeItem stops last nesting tokens = (front, back)) :
    front ⊆ tokens ∧ back ⊆ tokens := by
  have happend := splitBeforeItem_append stops last nesting tokens
  rw [h] at happend
  exact subset_of_append_eq happend

theorem splitStray_append (stops : Token → Bool) (tokens : List Token) :
    (splitStray stops tokens).1 ++ (splitStray stops tokens).2 = tokens := by
  unfold splitStray
  split
  · rename_i first second others
    split
    · split
      · rfl
      · exact splitAtTop_append stops [] (first :: second :: others)
    · split <;> rfl
  · rfl

theorem subset_of_splitStray (h : splitStray stops tokens = (front, back)) :
    front ⊆ tokens ∧ back ⊆ tokens := by
  have happend := splitStray_append stops tokens
  rw [h] at happend
  exact subset_of_append_eq happend

theorem subset_of_splitBrokenEnd {comment : Option Token}
    (h : splitBrokenEnd tokens = (front, comment)) : front ⊆ tokens ∧ comment.toList ⊆ tokens := by
  unfold splitBrokenEnd at h
  split at h
  · rename_i last hlast
    split at h
    · obtain ⟨rfl, rfl⟩ := Prod.mk.inj h
      exact ⟨List.dropLast_subset tokens, by simpa using List.mem_of_getLast? hlast⟩
    · obtain ⟨rfl, rfl⟩ := Prod.mk.inj h
      exact ⟨List.Subset.refl _, List.nil_subset _⟩
  · obtain ⟨rfl, rfl⟩ := Prod.mk.inj h
    exact ⟨List.Subset.refl _, List.nil_subset _⟩

theorem behindBroken_subset (tokens : List Token) : behindBroken tokens ⊆ tokens :=
  ((List.drop_suffix 1 _).trans (List.dropWhile_suffix _)).subset

theorem trimBroken_subset (tokens : List Token) : trimBroken tokens ⊆ tokens := by
  have hfront : ∀ opened : List Token, opened ⊆ tokens →
      (if (behindBroken (opened.span fun token ↦ !token.isBroken).2).isEmpty then
        (opened.span fun token ↦ !token.isBroken).1 else opened) ⊆ tokens := by
    intro opened hopened
    rw [List.span_eq_takeWhile_dropWhile]
    split
    · exact List.Subset.trans (List.takeWhile_subset _) hopened
    · exact hopened
  refine hfront _ ?_
  split
  · rename_i first others
    split
    · exact List.subset_cons_of_subset first (behindBroken_subset others)
    · exact List.Subset.refl _
  · exact List.Subset.refl _

theorem dropAttributes_subset (tokens : List Token) : dropAttributes tokens ⊆ tokens :=
  (List.dropWhile_suffix _).subset

theorem bareField_subset (tokens : List Token) : bareField tokens ⊆ tokens :=
  (bareField_suffix tokens).subset

end Cuts

/-! ## Groups -/

theorem subset_of_mem_commaGroups {nesting : Nesting} {tokens group : List Token}
    (h : group ∈ commaGroups nesting tokens) : group ⊆ tokens := by
  fun_induction commaGroups nesting tokens generalizing group with
  | case1 =>
    rw [List.mem_singleton.mp h]
    exact List.Subset.refl []
  | case2 nesting token others hcomma ih =>
    rcases List.mem_cons.mp h with rfl | h
    · exact List.nil_subset _
    · exact List.subset_cons_of_subset token (ih h)
  | case3 nesting token others hcomma hnil ih =>
    rw [List.mem_singleton.mp h]
    simp
  | case4 nesting token others hcomma first groups heq ih =>
    rcases List.mem_cons.mp h with rfl | h
    · exact List.cons_subset_cons token (ih (heq ▸ List.mem_cons_self))
    · exact List.subset_cons_of_subset token (ih (heq ▸ List.mem_cons_of_mem first h))

theorem subset_of_mem_commaEndedGroups {nesting : Nesting} {tokens group : List Token}
    (h : group ∈ commaEndedGroups nesting tokens) : group ⊆ tokens := by
  fun_induction commaEndedGroups nesting tokens generalizing group with
  | case1 =>
    rw [List.mem_singleton.mp h]
    exact List.Subset.refl []
  | case2 nesting token others hcomma ih =>
    rcases List.mem_cons.mp h with rfl | h
    · simp
    · exact List.subset_cons_of_subset token (ih h)
  | case3 nesting token others hcomma hnil ih =>
    rw [List.mem_singleton.mp h]
    simp
  | case4 nesting token others hcomma first groups heq ih =>
    rcases List.mem_cons.mp h with rfl | h
    · exact List.cons_subset_cons token (ih (heq ▸ List.mem_cons_self))
    · exact List.subset_cons_of_subset token (ih (heq ▸ List.mem_cons_of_mem first h))

theorem dropComma_subset (group : List Token) : dropComma group ⊆ group := by
  rw [dropComma]
  split
  · exact List.dropLast_subset group
  · exact List.Subset.refl group

end Token

/-! ## Choices -/

theorem Reading.subset_of_mem_choices {skipped : List Token} {pieces : Nat}
    {phrases : List (List Token)} {reading : Reading}
    (h : reading ∈ Reading.choices skipped pieces phrases) :
    reading.type ⊆ phrases.flatten ∧ reading.excess ⊆ phrases.flatten := by
  fun_induction Reading.choices skipped pieces phrases with
  | case1 => simp at h
  | case2 skipped pieces phrase others excess weight later htype ih =>
    rw [List.flatten_cons]
    rcases List.mem_cons.mp h with rfl | h
    · exact ⟨List.subset_append_left _ _, List.subset_append_right _ _⟩
    · exact ⟨List.subset_append_of_subset_right _ (ih h).1,
        List.subset_append_of_subset_right _ (ih h).2⟩
  | case3 skipped pieces phrase others weight later htype ih =>
    rw [List.flatten_cons]
    exact ⟨List.subset_append_of_subset_right _ (ih h).1,
      List.subset_append_of_subset_right _ (ih h).2⟩

theorem Reading.subset_of_ofTokens? {tokens : List Token} {reading : Reading}
    (h : Reading.ofTokens? tokens = some reading) :
    reading.type ⊆ tokens ∧ reading.excess ⊆ tokens := by
  have hparts := subset_of_mem_choices (mem_of_leastBy? h)
  rwa [Token.flatten_phrases] at hparts

theorem NameReading.subset_of_mem_choices {skipped tokens : List Token} {reading : NameReading}
    (h : reading ∈ NameReading.choices skipped tokens) :
    reading.name ∈ tokens ∧ reading.excess ⊆ tokens := by
  fun_induction NameReading.choices skipped tokens with
  | case1 => simp at h
  | case2 skipped token others later _ ih =>
    rcases List.mem_cons.mp h with rfl | h
    · exact ⟨List.mem_cons_self, List.subset_cons_self token others⟩
    · exact ⟨List.mem_cons_of_mem token (ih h).1, List.subset_cons_of_subset token (ih h).2⟩
  | case3 skipped token others later _ ih =>
    exact ⟨List.mem_cons_of_mem token (ih h).1, List.subset_cons_of_subset token (ih h).2⟩

theorem NameReading.subset_of_ofTokens? {tokens : List Token} {reading : NameReading}
    (h : NameReading.ofTokens? tokens = some reading) :
    reading.name ∈ tokens ∧ reading.excess ⊆ tokens :=
  subset_of_mem_choices (mem_of_leastBy? h)

/-! ## Parts of a list of fields -/

theorem splitBeforeField_append (nesting : Nesting) (tokens : List Token) :
    (splitBeforeField nesting tokens).1 ++ (splitBeforeField nesting tokens).2 = tokens := by
  fun_induction splitBeforeField nesting tokens with
  | case1 => rfl
  | case2 => rfl
  | case3 nesting token others hbegins front back heq ih =>
    rw [heq] at ih
    exact congrArg (token :: ·) ih

theorem subset_of_splitBeforeField {nesting : Nesting} {tokens front field : List Token}
    (h : splitBeforeField nesting tokens = (front, field)) : front ⊆ tokens ∧ field ⊆ tokens := by
  have happend := splitBeforeField_append nesting tokens
  rw [h] at happend
  exact Token.subset_of_append_eq happend

theorem subset_of_joinField? {group joined : List Token} (h : joinField? group = some joined) :
    joined ⊆ group := by
  unfold joinField? at h
  split at h
  rename_i stretch back hcut
  obtain ⟨hstretch, hback⟩ := Token.subset_of_splitAtTop hcut
  split at h
  · simp at h
  · obtain ⟨reading, hreading, rfl⟩ := Option.map_eq_some_iff.mp h
    have hname := hstretch (NameReading.subset_of_ofTokens? hreading).1
    exact List.Subset.trans (List.cons_subset.mpr ⟨hname, hback⟩) (Token.bareField_subset group)

theorem keptMisplaced_subset (misplaced : List Token) : keptMisplaced misplaced ⊆ misplaced := by
  rw [keptMisplaced]
  split
  · exact List.nil_subset _
  · exact List.Subset.refl _

/-! ## Parts of a declaration -/

namespace StructItem

theorem subset_of_splitName? {tokens rest : List Token} {name : Token}
    (h : splitName? tokens = some (name, rest)) : name ∈ tokens ∧ rest ⊆ tokens := by
  unfold splitName? at h
  split at h
  rename_i stretch back hcut
  obtain ⟨hstretch, hback⟩ := Token.subset_of_splitAtTop hcut
  split at h
  · simp at h
  · rename_i only
    split at h
    · obtain ⟨rfl, rfl⟩ := Prod.mk.inj (Option.some.inj h)
      exact ⟨hstretch List.mem_cons_self, hback⟩
    · simp at h
  · rename_i first second others
    by_cases hmissing :
      (first.isWord && (back.isEmpty || !(second.isStray || second.isBrief others))) = true
    · rw [if_pos hmissing] at h
      obtain ⟨rfl, rfl⟩ := Prod.mk.inj (Option.some.inj h)
      obtain ⟨hfirst, hothers⟩ := List.cons_subset.mp hstretch
      exact ⟨hfirst, List.append_subset.mpr ⟨hothers, hback⟩⟩
    · rw [if_neg hmissing] at h
      obtain ⟨reading, hreading, heq⟩ := Option.map_eq_some_iff.mp h
      obtain ⟨rfl, rfl⟩ := Prod.mk.inj heq
      obtain ⟨hname, hexcess⟩ := NameReading.subset_of_ofTokens? hreading
      refine ⟨hstretch hname, ?_⟩
      split
      · exact List.Subset.trans hexcess hstretch
      · exact hback

/-- The generic parameters and what follows them are tokens of the whole, and the mark behind them
is that of a token, or the one before them. -/
theorem subset_of_splitParameters? {last mark : Mark} {tokens after : List Token}
    {parameters : Option (List Token)}
    (h : splitParameters? last tokens = some (parameters, mark, after)) :
    (∀ shown ∈ parameters, shown ⊆ tokens) ∧ after ⊆ tokens ∧
      (mark = last ∨ ∃ token ∈ tokens, mark = token.start ∨ mark = token.stop) := by
  unfold splitParameters? at h
  split at h
  · split at h
    rename_i shown back hcut
    obtain ⟨hshown, hback⟩ := Token.subset_of_splitAtTop hcut
    have hdrop : tokens.drop 1 ⊆ tokens := List.drop_subset 1 tokens
    split at h
    · simp at h
    · rename_i close behind
      have hclose : close ∈ tokens := hdrop (hback List.mem_cons_self)
      have hbehind : close :: behind ⊆ tokens := List.Subset.trans hback hdrop
      split at h
      · simp only [Option.some.injEq, Prod.mk.injEq] at h
        obtain ⟨rfl, rfl, rfl⟩ := h
        refine ⟨?_, (List.cons_subset.mp hbehind).2, Or.inr ⟨close, hclose, Or.inr rfl⟩⟩
        rintro _ ⟨⟩
        exact List.Subset.trans hshown hdrop
      · split at h
        · simp only [Option.some.injEq, Prod.mk.injEq] at h
          obtain ⟨rfl, rfl, rfl⟩ := h
          exact ⟨by simp, hbehind, Or.inr ⟨close, hclose, Or.inl rfl⟩⟩
        · simp only [Option.some.injEq, Prod.mk.injEq] at h
          obtain ⟨rfl, rfl, rfl⟩ := h
          refine ⟨?_, hbehind, Or.inr ⟨close, hclose, Or.inl rfl⟩⟩
          rintro _ ⟨⟩
          exact List.Subset.trans hshown hdrop
  · simp only [Option.some.injEq, Prod.mk.injEq] at h
    obtain ⟨rfl, rfl, rfl⟩ := h
    exact ⟨by simp, List.Subset.refl _, Or.inl rfl⟩

theorem exists_of_visibilityStart? {before : List Token} {mark : Mark}
    (h : Token.visibilityStart? before = some mark) : ∃ token ∈ before, mark = token.start := by
  unfold Token.visibilityStart? at h
  split at h
  · simp at h
  · rename_i last earlier
    split at h
    · split at h
      · simp at h
      · exact ⟨last, List.mem_cons_self, (Option.some.inj h).symm⟩
    · split at h
      · split at h
        · rename_i paren keyword front hopened
          have hsub : paren :: keyword :: front ⊆ earlier :=
            hopened ▸ (List.dropWhile_suffix _).subset
          have hkeyword : keyword ∈ earlier := hsub (by simp)
          split at h
          · exact ⟨keyword, List.mem_cons_of_mem last hkeyword, (Option.some.inj h).symm⟩
          · simp at h
        · simp at h
      · simp at h

end StructItem

end Memberwise.Source.Lenient
