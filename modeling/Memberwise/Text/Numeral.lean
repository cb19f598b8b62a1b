/-!
# Decimal numerals

Reading admits one leading plus sign and any number of leading zeros, and refuses a value of
2 ^ 64 or more. Writing can align a numeral to the right.
-/

namespace Memberwise.Text

/-- Numbers that a command line or an answer gives are below this bound. -/
def numeralLimit : Nat := 0x10000000000000000

/-- The value of a run of decimal digits that continues the digits of `value`. -/
def digitsValue? (value : Nat) : List Char → Option Nat
  | [] => some value
  | c :: rest =>
    if '0' ≤ c ∧ c ≤ '9' then digitsValue? (10 * value + (c.toNat - '0'.toNat)) rest else none

/-- A numeral without its leading plus sign. -/
def dropPlus : List Char → List Char
  | '+' :: rest => rest
  | text => text

/-- The number that a numeral denotes, if it is one and its value is below the limit. -/
def numeral? (text : List Char) : Option Nat :=
  let digits := dropPlus text
  if digits.isEmpty then none else (digitsValue? 0 digits).filter (· < numeralLimit)

/-- A text with spaces before it up to `width` characters. -/
def alignRight (width : Nat) (text : List Char) : List Char :=
  List.replicate (width - text.length) ' ' ++ text

end Memberwise.Text
