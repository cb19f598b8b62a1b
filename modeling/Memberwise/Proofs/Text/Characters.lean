import Memberwise.Proofs.Text.Decimal
import Memberwise.Proofs.Text.Runs
import Memberwise.Text.Line

/-!
# The characters of composed texts

Texts are cut, trimmed, joined and indented, and nothing of this makes up characters: a property of
all characters passes from the parts to the whole if the few that are written between them have it.
-/

namespace Memberwise.Text

/-- Every character of the text satisfies `p`. -/
def Over (p : Char → Prop) (text : List Char) : Prop := ∀ c ∈ text, p c

/-- The visible characters of ASCII, and the space. -/
def isGraphic (c : Char) : Bool := 32 ≤ c.toNat && c.toNat < 127

section Over

variable {p : Char → Prop}

@[simp] theorem over_nil : Over p [] := fun _ h ↦ absurd h List.not_mem_nil

@[simp] theorem over_cons {c : Char} {text : List Char} :
    Over p (c :: text) ↔ p c ∧ Over p text := List.forall_mem_cons

@[simp] theorem over_append {front back : List Char} :
    Over p (front ++ back) ↔ Over p front ∧ Over p back := List.forall_mem_append

theorem Over.of_subset {text part : List Char} (h : Over p text) (hpart : part ⊆ text) :
    Over p part :=
  fun c hc ↦ h c (hpart hc)

theorem Over.of_all {text : List Char} (hp : ∀ c, isGraphic c = true → p c)
    (h : text.all isGraphic = true) : Over p text :=
  fun c hc ↦ hp c (List.all_eq_true.mp h c hc)

theorem over_decimal (hp : ∀ c, isGraphic c = true → p c) (number : Nat) :
    Over p (decimal number) := by
  intro c hc
  have hdigit : 48 ≤ c.toNat ∧ c.toNat ≤ 57 := by
    simpa [Char.isDigit, UInt32.le_iff_toNat_le] using isDigit_of_mem_decimal hc
  refine hp c ?_
  simp only [isGraphic, Bool.and_eq_true, decide_eq_true_eq]
  omega

/-! ## Joining -/

theorem over_intercalate {separator : List Char} {pieces : List (List Char)}
    (hseparator : Over p separator) (hpieces : ∀ piece ∈ pieces, Over p piece) :
    Over p (separator.intercalate pieces) := by
  induction pieces with
  | nil => exact over_nil
  | cons piece others ih =>
    have hpiece := hpieces piece List.mem_cons_self
    have hothers := ih fun other hother ↦ hpieces other (List.mem_cons_of_mem piece hother)
    cases others with
    | nil => simpa using hpiece
    | cons next rest =>
      rw [List.intercalate_cons_cons, over_append, over_append]
      exact ⟨⟨hpiece, hseparator⟩, hothers⟩

theorem over_toList_intercalate {separator : String} {texts : List String}
    (hseparator : Over p separator.toList) (htexts : ∀ text ∈ texts, Over p text.toList) :
    Over p (separator.intercalate texts).toList := by
  rw [String.toList_intercalate]
  exact over_intercalate hseparator (by simpa using htexts)

/-! ## Cutting -/

theorem subset_of_mem_splitAtEach {isSeparator : Char → Bool} {text piece : List Char}
    (h : piece ∈ splitAtEach isSeparator text) : piece ⊆ text := by
  induction text generalizing piece with
  | nil =>
    rw [List.mem_singleton.mp h]
    exact List.Subset.refl []
  | cons c rest ih =>
    rw [splitAtEach] at h
    split at h
    · rcases List.mem_cons.mp h with rfl | h
      · exact List.nil_subset _
      · exact List.subset_cons_of_subset c (ih h)
    · split at h
      · rename_i hnil
        exact absurd hnil (splitAtEach_ne_nil isSeparator rest)
      · rename_i first others heq
        rcases List.mem_cons.mp h with rfl | h
        · exact List.cons_subset_cons c (ih (heq ▸ List.mem_cons_self))
        · exact List.subset_cons_of_subset c (ih (heq ▸ List.mem_cons_of_mem first h))

theorem trimStart_subset (text : List Char) : trimStart text ⊆ text :=
  (List.dropWhile_suffix isBlank).subset

theorem trimEnd_subset (text : List Char) : trimEnd text ⊆ text := by
  have h := trimEnd_prefix text
  exact h.subset

theorem trim_subset (text : List Char) : trim text ⊆ text :=
  List.Subset.trans (trimEnd_subset _) (trimStart_subset text)

theorem over_collapse {text : List Char} (hspace : p ' ') (h : Over p text) :
    Over p (collapse text) := by
  refine over_intercalate (by simpa using hspace) fun word hword ↦ ?_
  exact h.of_subset (subset_of_mem_splitAtEach (List.mem_of_mem_filter hword))

/-! ## Lines -/

theorem dropCarriageReturn_subset (line : List Char) : dropCarriageReturn line ⊆ line := by
  rw [dropCarriageReturn]
  split
  · exact List.dropLast_subset line
  · exact List.Subset.refl line

theorem exists_of_mem_linesOfPieces {pieces : List (List Char)} {line : List Char}
    (h : line ∈ linesOfPieces pieces) : ∃ piece ∈ pieces, line ⊆ piece := by
  fun_induction linesOfPieces pieces with
  | case1 => simp at h
  | case2 last => simp at h
  | case3 last =>
    obtain rfl := List.mem_singleton.mp h
    exact ⟨line, List.mem_singleton_self line, List.Subset.refl line⟩
  | case4 piece pieces _ ih =>
    rcases List.mem_cons.mp h with rfl | h
    · exact ⟨piece, List.mem_cons_self, dropCarriageReturn_subset piece⟩
    · obtain ⟨other, hother, hsubset⟩ := ih h
      exact ⟨other, List.mem_cons_of_mem piece hother, hsubset⟩

theorem over_indentLines {indent text : List Char} (hfeed : p '\n') (hindent : Over p indent)
    (h : Over p text) : Over p (indentLines indent text) := by
  refine over_intercalate (by simpa using hfeed) fun line hline ↦ ?_
  obtain ⟨bare, hbare, rfl⟩ := List.mem_map.mp hline
  obtain ⟨piece, hpiece, hsubset⟩ := exists_of_mem_linesOfPieces hbare
  have hover : Over p bare :=
    h.of_subset (List.Subset.trans hsubset (subset_of_mem_splitAtEach hpiece))
  rw [indentLine]
  split
  · exact over_nil
  · exact over_append.mpr ⟨hindent, hover⟩

end Over

end Memberwise.Text
