import Memberwise.Text.Numeral
import Mathlib.Data.List.Basic

/-!
# Decimal numerals that are read back

The decimal digits of a number denote it, so a number below the limit is read back from its digits,
and different numbers have different digits. What is read is exactly the numerals: digits behind a
plus sign or not, however many, as long as their value is below the limit.
-/

namespace Memberwise.Text

/-- The decimal digits of a number. -/
def decimal (number : Nat) : List Char := (toString number).toList

theorem decimal_eq_toDigits (number : Nat) : decimal number = Nat.toDigits 10 number :=
  Nat.toList_repr

theorem isDigit_of_mem_decimal {number : Nat} {c : Char} (h : c ∈ decimal number) :
    c.isDigit = true := by
  rw [decimal_eq_toDigits] at h
  exact Nat.isDigit_of_mem_toDigits (by decide) (by decide) h

theorem decimal_ne_nil (number : Nat) : decimal number ≠ [] := by
  rw [decimal_eq_toDigits]
  exact Nat.toDigits_ne_nil

theorem digitsValue?_of_isDigit {digits : List Char} (h : ∀ c ∈ digits, c.isDigit = true)
    (value : Nat) : digitsValue? value digits = some (Nat.ofDigitChars 10 digits value) := by
  induction digits generalizing value with
  | nil => rw [digitsValue?, Nat.ofDigitChars_nil]
  | cons c digits ih =>
    have hc : '0' ≤ c ∧ c ≤ '9' := by
      simpa [Char.isDigit, Char.le_def] using h c List.mem_cons_self
    rw [digitsValue?, if_pos hc, ih fun d hd ↦ h d (List.mem_cons_of_mem c hd),
      Nat.ofDigitChars_cons]

/-- Only digits have a value. -/
theorem digitsValue?_eq_some_iff {digits : List Char} {start value : Nat} :
    digitsValue? start digits = some value ↔
      (∀ c ∈ digits, c.isDigit = true) ∧ Nat.ofDigitChars 10 digits start = value := by
  constructor
  · intro h
    have hdigits : ∀ c ∈ digits, c.isDigit = true := by
      induction digits generalizing start with
      | nil => simp
      | cons c digits ih =>
        rw [digitsValue?] at h
        split at h
        · rename_i hc
          exact List.forall_mem_cons.mpr ⟨by simpa [Char.isDigit, Char.le_def] using hc, ih h⟩
        · simp at h
    rw [digitsValue?_of_isDigit hdigits] at h
    exact ⟨hdigits, Option.some.inj h⟩
  · rintro ⟨hdigits, rfl⟩
    exact digitsValue?_of_isDigit hdigits start

theorem digitsValue?_decimal (number : Nat) : digitsValue? 0 (decimal number) = some number := by
  rw [digitsValue?_of_isDigit fun c hc ↦ isDigit_of_mem_decimal hc, decimal_eq_toDigits,
    Nat.ofDigitChars_ten_toDigits]

theorem dropPlus_of_isDigit {digits : List Char} (h : ∀ c ∈ digits, c.isDigit = true) :
    dropPlus digits = digits := by
  cases digits with
  | nil => rfl
  | cons c rest =>
    have hplus : c ≠ '+' := by
      rintro rfl
      exact absurd (h '+' List.mem_cons_self) (by decide)
    simp [dropPlus, hplus]

theorem numeral?_decimal {number : Nat} (h : number < numeralLimit) :
    numeral? (decimal number) = some number := by
  rw [numeral?, dropPlus_of_isDigit fun c hc ↦ isDigit_of_mem_decimal hc, digitsValue?_decimal]
  simp [decimal_ne_nil, h]

theorem decimal_injective : Function.Injective decimal := by
  intro a b h
  have hvalue : some a = some b := by rw [← digitsValue?_decimal a, h, digitsValue?_decimal b]
  exact Option.some.inj hvalue

/-! ## Numerals -/

/-- A numeral of any length, and the number that it denotes. -/
inductive IsNumeral : List Char → Nat → Prop where
  | plain {digits : List Char} (ne_nil : digits ≠ []) (isDigit : ∀ c ∈ digits, c.isDigit = true) :
      IsNumeral digits (Nat.ofDigitChars 10 digits 0)
  | plus {digits : List Char} (ne_nil : digits ≠ []) (isDigit : ∀ c ∈ digits, c.isDigit = true) :
      IsNumeral ('+' :: digits) (Nat.ofDigitChars 10 digits 0)

theorem dropPlus_eq_or (text : List Char) : text = dropPlus text ∨ text = '+' :: dropPlus text := by
  fun_cases dropPlus text with
  | case1 rest => exact Or.inr rfl
  | case2 => exact Or.inl rfl

theorem isNumeral_iff {text : List Char} {value : Nat} :
    IsNumeral text value ↔ dropPlus text ≠ [] ∧ digitsValue? 0 (dropPlus text) = some value := by
  constructor
  · intro h
    cases h with
    | plain hne hdigits =>
      rw [dropPlus_of_isDigit hdigits]
      exact ⟨hne, digitsValue?_of_isDigit hdigits 0⟩
    | plus hne hdigits => exact ⟨hne, digitsValue?_of_isDigit hdigits 0⟩
  · rintro ⟨hne, hvalue⟩
    obtain ⟨hdigits, rfl⟩ := digitsValue?_eq_some_iff.mp hvalue
    rcases dropPlus_eq_or text with htext | htext
    · rw [← htext] at hne hdigits ⊢
      exact .plain hne hdigits
    · rw [htext]
      exact .plus hne hdigits

theorem numeral?_eq_some_iff {text : List Char} {value : Nat} :
    numeral? text = some value ↔ IsNumeral text value ∧ value < numeralLimit := by
  rw [isNumeral_iff, numeral?]
  by_cases hnil : dropPlus text = []
  · simp [hnil]
  · simp [hnil, Option.filter_eq_some_iff]

theorem numeral?_eq_none_iff {text : List Char} :
    numeral? text = none ↔ ∀ value, IsNumeral text value → numeralLimit ≤ value := by
  constructor
  · intro h value hvalue
    by_contra hlt
    have hsome := numeral?_eq_some_iff.mpr ⟨hvalue, Nat.lt_of_not_le hlt⟩
    simp [h] at hsome
  · intro h
    cases hvalue : numeral? text with
    | none => rfl
    | some value =>
      obtain ⟨hnumeral, hlt⟩ := numeral?_eq_some_iff.mp hvalue
      exact absurd (h value hnumeral) (Nat.not_le.mpr hlt)

end Memberwise.Text
