import Apicast.Foundation.DelimitedString
import Mathlib.Algebra.Ring.Nat
import Mathlib.Data.Nat.Log

/-!
# Numbers as text

Integral numbers are written with at most fourteen significant digits. A longer number
is rounded and written with an exponent, so that different numbers can look the same.
-/

namespace Foundation

namespace Number

/-- Without the zeros at its end. -/
def trimZeros (digits : String) : String :=
  String.ofList (digits.toList.reverse.dropWhile (· == '0')).reverse

/-- The first fourteen digits of a longer number and the exponent of the first one. A digit
that is cut off in the middle is rounded to even. -/
def roundDigits (value : Nat) : Nat × Nat :=
  let exponent := Nat.log 10 value
  let unit := 10 ^ (exponent - 13)
  let digits := value / unit
  let cut := 2 * (value % unit)
  let digits := if unit < cut ∨ cut = unit ∧ digits % 2 = 1 then digits + 1 else digits
  if digits = 10 ^ 14 then (10 ^ 13, exponent + 1) else (digits, exponent)

/-- A number with an exponent. -/
def scientific (value : Nat) : String :=
  let rounded := roundDigits value
  let digits := (trimZeros rounded.1.repr).toList
  let fraction := if digits.tail = [] then "" else "." ++ String.ofList digits.tail
  String.ofList (digits.take 1) ++ fraction ++ "e+" ++ rounded.2.repr

/-- The first number with fifteen digits. -/
def firstRounded : Nat := 100000000000000

/-- `tostring` of an integral number, in the format `%.14g`. -/
def tostring (value : Int) : String :=
  if value.natAbs < firstRounded then value.repr
  else (if value < 0 then "-" else "") ++ scientific value.natAbs

/-- `tonumber` of decimal digits. -/
def tonumber (text : String) : Option Nat :=
  if text ≠ "" ∧ text.toList.all Char.isDigit then some (Nat.ofDigitChars 10 text.toList 0)
  else none

example : tostring 100000000000001 = "1e+14" := by decide +kernel

/-- The number is written with all of its digits. -/
def Exact (value : Int) : Prop := value.natAbs < firstRounded

instance (value : Int) : Decidable (Exact value) :=
  inferInstanceAs (Decidable (value.natAbs < firstRounded))

theorem tostring_of_exact {value : Int} (exact : Exact value) : tostring value = value.repr :=
  if_pos exact

/-- The text of an exact number contains no delimiter. -/
theorem free_tostring {delimiter : Char} {value : Int} (exact : Exact value)
    (digit : delimiter.isDigit = false) (sign : delimiter ≠ '-') :
    Delimited.Free delimiter (tostring value) := by
  rw [tostring_of_exact exact]
  exact Delimited.free_decimal value digit sign

/-- Different exact numbers are written differently. -/
theorem tostring_injective {value other : Int} (exact : Exact value) (otherExact : Exact other)
    (equal : tostring value = tostring other) : value = other := by
  rw [tostring_of_exact exact, tostring_of_exact otherExact] at equal
  exact Delimited.decimal_injective equal

/-- Decimal digits are read back. -/
theorem tonumber_repr (value : Nat) : tonumber value.repr = some value := by
  have filled : value.repr ≠ "" := by
    intro empty
    have letters := congrArg String.toList empty
    rw [Nat.toList_repr] at letters
    exact Nat.toDigits_ne_nil letters
  have digits : value.repr.toList.all Char.isDigit := by
    rw [List.all_eq_true]
    intro letter member
    rw [Nat.toList_repr] at member
    exact Nat.isDigit_of_mem_toDigits (by decide) (by decide) member
  unfold tonumber
  rw [if_pos ⟨filled, digits⟩, Nat.toList_repr, Nat.ofDigitChars_ten_toDigits]

/-- An exact number can be read back. -/
theorem tonumber_tostring {value : Nat} (exact : Exact value) :
    tonumber (tostring value) = some value := by
  rw [tostring_of_exact exact]
  exact tonumber_repr value

end Number

end Foundation
