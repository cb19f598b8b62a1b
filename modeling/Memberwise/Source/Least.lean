/-!
# Least elements

The first element of a list at which a measure is least: it is in the list, and no element has a
smaller measure.
-/

namespace Memberwise.Source

/-- The element with the least measure; of several, the first. -/
def leastBy? {α : Type} (measure : α → Nat) : List α → Option α
  | [] => none
  | first :: others =>
    match leastBy? measure others with
    | none => some first
    | some best => some (if measure best < measure first then best else first)

theorem leastBy?_eq_none_iff {α : Type} {measure : α → Nat} {elements : List α} :
    leastBy? measure elements = none ↔ elements = [] := by
  cases elements with
  | nil => simp [leastBy?]
  | cons first others =>
    rw [leastBy?]
    split <;> simp

theorem mem_of_leastBy? {α : Type} {measure : α → Nat} {elements : List α} {least : α}
    (h : leastBy? measure elements = some least) : least ∈ elements := by
  induction elements generalizing least with
  | nil => simp [leastBy?] at h
  | cons first others ih =>
    rw [leastBy?] at h
    cases hbest : leastBy? measure others with
    | none =>
      simp only [hbest, Option.some.injEq] at h
      simp [h]
    | some best =>
      simp only [hbest, Option.some.injEq] at h
      split at h
      · exact List.mem_cons_of_mem _ (h ▸ ih hbest)
      · simp [h]

theorem measure_leastBy?_le {α : Type} {measure : α → Nat} {elements : List α} {least element : α}
    (h : leastBy? measure elements = some least) (hmem : element ∈ elements) :
    measure least ≤ measure element := by
  induction elements generalizing least with
  | nil => simp at hmem
  | cons first others ih =>
    rw [leastBy?] at h
    cases hbest : leastBy? measure others with
    | none =>
      rw [leastBy?_eq_none_iff] at hbest
      simp only [hbest, leastBy?, Option.some.injEq] at h
      simp only [hbest, List.mem_singleton] at hmem
      simp [hmem, h]
    | some best =>
      simp only [hbest, Option.some.injEq] at h
      rcases List.mem_cons.mp hmem with rfl | hothers
      · split at h <;> subst h <;> omega
      · have hle := ih hbest hothers
        split at h <;> subst h <;> omega

end Memberwise.Source
