import Apicast.Foundation.Bytes
import Mathlib.Data.List.Forall2
import Mathlib.Data.Nat.Digits.Defs

/-!
# Numerals

Numbers written in digits of a base up to sixteen, and read from the beginning of a string of
bytes as far as the digits go.
-/

namespace Foundation

namespace Numeral

/-- The value of a hexadecimal digit, in either case. -/
def hexValue (byte : UInt8) : Option Nat :=
  if Bytes.isDigit byte then some (byte.toNat - 48)
  else if 97 ≤ byte ∧ byte ≤ 102 then some (byte.toNat - 87)
  else if 65 ≤ byte ∧ byte ≤ 70 then some (byte.toNat - 55)
  else none

/-- The value of a digit of a base. -/
def digitValue (base : Nat) (byte : UInt8) : Option Nat := (hexValue byte).filter (· < base)

def digit (value : Nat) : UInt8 := UInt8.ofNat (if value < 10 then 48 + value else 87 + value)

/-- The digits of a number (`%d` and `%x`). -/
def numeral (base number : Nat) : Bytes :=
  if number = 0 then [48] else (Nat.digits base number).reverse.map digit

/-- A numeral with zeros in front of it up to a width. -/
def padded (base width number : Nat) : Bytes :=
  List.replicate (width - (numeral base number).length) 48 ++ numeral base number

/-- The number that digits stand for. -/
def number (base : Nat) (values : List Nat) : Nat := Nat.ofDigits base values.reverse

/-- The bytes are digits of these values. -/
def Denote (base : Nat) : Bytes → List Nat → Prop :=
  List.Forall₂ fun byte value => digitValue base byte = some value

/-- The digits at the beginning, and the rest. -/
def takeDigits (base : Nat) : Bytes → List Nat × Bytes
  | [] => ([], [])
  | byte :: rest =>
      match digitValue base byte with
      | some value => (value :: (takeDigits base rest).1, (takeDigits base rest).2)
      | none => ([], byte :: rest)

variable {base : Nat}

theorem digitValue_digit {value : Nat} (small : base ≤ 16) (valid : value < base) :
    digitValue base (digit value) = some value := by
  have every : ∀ value : Fin 16, hexValue (digit value) = some value.val := by decide
  rw [digitValue, every ⟨value, by omega⟩]
  simp [valid]

theorem digitValue_zero (least : 2 ≤ base) (small : base ≤ 16) : digitValue base 48 = some 0 :=
  @digitValue_digit base 0 small (by omega)

theorem numeral_ne_nil (number : Nat) : numeral base number ≠ [] := by
  unfold numeral
  split
  · exact List.cons_ne_nil _ _
  · next positive => simpa using Nat.digits_ne_nil_iff_ne_zero.mpr positive

/-- A numeral denotes its number. -/
theorem exists_denote_numeral (least : 2 ≤ base) (small : base ≤ 16) (value : Nat) :
    ∃ values, Denote base (numeral base value) values ∧ number base values = value := by
  unfold numeral
  split
  · next zero =>
      subst zero
      exact ⟨[0], .cons (digitValue_zero least small) .nil, by simp [number]⟩
  · refine ⟨(Nat.digits base value).reverse, ?_, ?_⟩
    · rw [Denote, List.forall₂_map_left_iff, List.forall₂_same]
      intro digit member
      exact digitValue_digit small (Nat.digits_lt_base (by omega) (List.mem_reverse.mp member))
    · rw [number, List.reverse_reverse, Nat.ofDigits_digits]

/-- Zeros in front do not change the number. -/
theorem exists_denote_padded (least : 2 ≤ base) (small : base ≤ 16) (width value : Nat) :
    ∃ values, Denote base (padded base width value) values ∧ number base values = value := by
  obtain ⟨values, denote, stands⟩ := exists_denote_numeral least small value
  refine ⟨List.replicate (width - (numeral base value).length) 0 ++ values, ?_, ?_⟩
  · refine List.rel_append ?_ denote
    rw [List.forall₂_iff_get]
    refine ⟨by simp, fun position _ _ => ?_⟩
    simpa using digitValue_zero least small
  · rw [number, List.reverse_append, List.reverse_replicate, Nat.ofDigits_append_replicate_zero]
    exact stands

theorem Denote.exists_value {digits : Bytes} {values : List Nat}
    (denote : Denote base digits values) :
    ∀ byte ∈ digits, ∃ value, digitValue base byte = some value := by
  induction denote with
  | nil => simp
  | cons digit _ ih => exact List.forall_mem_cons.mpr ⟨⟨_, digit⟩, ih⟩

theorem takeDigits_append {digits rest : Bytes} {values : List Nat}
    (denote : Denote base digits values)
    (stops : ∀ byte ∈ rest.head?, digitValue base byte = none) :
    takeDigits base (digits ++ rest) = (values, rest) := by
  induction denote with
  | nil =>
      cases rest with
      | nil => rfl
      | cons byte rest => simp [takeDigits, stops byte rfl]
  | cons digit _ ih => simp [takeDigits, digit, ih]

end Numeral

end Foundation
