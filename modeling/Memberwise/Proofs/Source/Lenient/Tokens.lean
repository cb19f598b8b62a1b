import Memberwise.Proofs.Source.Mark
import Memberwise.Source.Lenient.Boundary
import Mathlib.Data.List.TakeDrop

/-!
# Where tokens lie

Tokens are cut out of the source text one behind the other, so every token starts and ends on a
boundary of it. Giving them roles, and breaking what is not closed, moves none of them.
-/

namespace Memberwise.Source.Lenient.Token

variable {source : List Char}

/-- The token starts and ends on boundaries of the source. -/
structure Fits (source : List Char) (token : Token) : Prop where
  start : token.start.IsBoundary source
  stop : token.stop.IsBoundary source

def AllFit (source : List Char) (tokens : List Token) : Prop := ∀ token ∈ tokens, token.Fits source

@[simp] theorem allFit_nil : AllFit source [] := fun _ h ↦ absurd h List.not_mem_nil

namespace AllFit

variable {tokens part : List Token}

theorem of_subset (h : AllFit source tokens) (hpart : part ⊆ tokens) : AllFit source part :=
  fun token htoken ↦ h token (hpart htoken)

theorem cons_iff {token : Token} :
    AllFit source (token :: tokens) ↔ token.Fits source ∧ AllFit source tokens :=
  List.forall_mem_cons

theorem append_iff : AllFit source (tokens ++ part) ↔ AllFit source tokens ∧ AllFit source part :=
  List.forall_mem_append

theorem stopOr {mark : Mark} (hmark : mark.IsBoundary source) (h : AllFit source tokens) :
    (Token.stopOr mark tokens).IsBoundary source := by
  rw [Token.stopOr]
  split
  · exact hmark
  · rename_i last hlast
    exact (h last (List.mem_of_getLast? hlast)).stop

end AllFit

/-! ## The tokens of a text -/

theorem allFit_readFrom (rounds : Nat) {mark : Mark} (gap : List Char) {text : List Char}
    (hmarks : ∀ front, front <+: text → (mark.advance front).IsBoundary source) :
    AllFit source (readFrom rounds mark gap text) := by
  induction rounds generalizing mark gap text with
  | zero => exact allFit_nil
  | succ rounds ih =>
    cases text with
    | nil => exact allFit_nil
    | cons c rest =>
      rw [readFrom]
      generalize Lexeme.scan c rest = scanned
      obtain ⟨kind, length⟩ := scanned
      have hcut : (c :: rest.take length) ++ rest.drop length = c :: rest := by simp
      have hread : c :: rest.take length <+: c :: rest := ⟨_, hcut⟩
      have hlater : ∀ front, front <+: rest.drop length →
          ((mark.advance (c :: rest.take length)).advance front).IsBoundary source := by
        intro front hfront
        rw [← Mark.advance_append]
        refine hmarks _ ?_
        rw [← hcut]
        exact (List.prefix_append_right_inj _).mpr hfront
      cases kind with
      | none => exact ih _ hlater
      | some kind =>
        exact AllFit.cons_iff.mpr ⟨⟨hmarks [] List.nil_prefix, hmarks _ hread⟩, ih [] hlater⟩

theorem allFit_readAll (source : List Char) : AllFit source (readAll source) := by
  refine allFit_readFrom _ _ fun front hfront ↦ ⟨_, ?_, (Mark.advance_append _ _ front).symm⟩
  conv_rhs => rw [← List.take_append_drop (Lexeme.interpreterLineLength source) source]
  exact (List.prefix_append_right_inj _).mpr hfront

theorem AllFit.withRoles {tokens : List Token} (h : AllFit source tokens) (region : Region) :
    AllFit source (withRoles region tokens) := by
  induction tokens generalizing region with
  | nil => exact h
  | cons token others ih =>
    obtain ⟨htoken, hothers⟩ := cons_iff.mp h
    exact cons_iff.mpr ⟨⟨htoken.start, htoken.stop⟩, ih hothers _⟩

theorem AllFit.breakUnclosed {tokens : List Token} (h : AllFit source tokens) :
    AllFit source (breakUnclosed tokens) := by
  unfold Token.breakUnclosed
  split
  · rename_i brace comment earlier hreverse
    have hall : AllFit source (brace :: comment :: earlier) :=
      h.of_subset fun token htoken ↦ List.mem_reverse.mp (hreverse ▸ htoken)
    split
    · dsimp only
      split
      · exact h
      · rename_i bracket _
        obtain ⟨hbrace, hrest⟩ := cons_iff.mp hall
        obtain ⟨hcomment, hearlier⟩ := cons_iff.mp hrest
        have hreversed : AllFit source earlier.reverse :=
          hearlier.of_subset fun token htoken ↦ List.mem_reverse.mp htoken
        simp only [List.span_eq_takeWhile_dropWhile]
        have hfront := hreversed.of_subset (List.takeWhile_subset fun token ↦ token ≠ bracket)
        have hback : AllFit source (earlier.reverse.dropWhile fun token ↦ token ≠ bracket) :=
          hreversed.of_subset (List.dropWhile_suffix _).subset
        refine append_iff.mpr ⟨append_iff.mpr ⟨hfront, fun token htoken ↦ ?_⟩, ?_⟩
        · obtain ⟨whole, hwhole, rfl⟩ := List.mem_map.mp htoken
          have hfits := hback whole hwhole
          split
          · exact ⟨hfits.start, hfits.stop⟩
          · exact hfits
        · exact cons_iff.mpr ⟨hcomment, cons_iff.mpr ⟨hbrace, allFit_nil⟩⟩
    · exact h
  · exact h

/-- Every token of a source lies between boundaries of it. -/
theorem allFit_breakUnclosed_ofSource (source : List Char) :
    AllFit source (breakUnclosed (ofSource source)) :=
  ((allFit_readAll source).withRoles .code).breakUnclosed

end Memberwise.Source.Lenient.Token
