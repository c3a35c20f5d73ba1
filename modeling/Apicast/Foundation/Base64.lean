import Apicast.Foundation.Bytes
import Mathlib.Tactic.Common

/-!
# The base64 encoding

The encoding of RFC 4648, with padding: three bytes become four digits of six bits each. The
decoder accepts padded texts and inverts the encoding.
-/

namespace Foundation

namespace Base64

/-- The digit for six bits. -/
def digit (value : Nat) : UInt8 :=
  UInt8.ofNat <|
    if value < 26 then 65 + value
    else if value < 52 then 71 + value
    else if value < 62 then value - 4
    else if value = 62 then 43
    else 47

def padding : UInt8 := 61

/-- The six bits of a digit. -/
def value (byte : UInt8) : Option Nat :=
  if Bytes.isUpper byte then some (byte.toNat - 65)
  else if Bytes.isLower byte then some (byte.toNat - 71)
  else if Bytes.isDigit byte then some (byte.toNat + 4)
  else if byte = 43 then some 62
  else if byte = 47 then some 63
  else none

def encode : Bytes → Bytes
  | [] => []
  | [first] => [digit (first.toNat / 4), digit (first.toNat % 4 * 16), padding, padding]
  | [first, second] =>
      [digit (first.toNat / 4), digit (first.toNat % 4 * 16 + second.toNat / 16),
        digit (second.toNat % 16 * 4), padding]
  | first :: second :: third :: rest =>
      digit (first.toNat / 4) :: digit (first.toNat % 4 * 16 + second.toNat / 16) ::
        digit (second.toNat % 16 * 4 + third.toNat / 64) :: digit (third.toNat % 64) :: encode rest

/-- The first byte of a group. -/
def firstByte (one two : Nat) : UInt8 := UInt8.ofNat (one * 4 + two / 16)

def secondByte (two three : Nat) : UInt8 := UInt8.ofNat (two % 16 * 16 + three / 4)

def thirdByte (three four : Nat) : UInt8 := UInt8.ofNat (three % 4 * 64 + four)

def decode : Bytes → Option Bytes
  | [] => some []
  | one :: two :: three :: four :: rest =>
      match value one, value two, value three, value four with
      | some one, some two, some three, some four =>
          (decode rest).map fun bytes =>
            firstByte one two :: secondByte two three :: thirdByte three four :: bytes
      | some one, some two, some three, none =>
          if four = padding ∧ rest = [] then some [firstByte one two, secondByte two three]
          else none
      | some one, some two, none, none =>
          if three = padding ∧ four = padding ∧ rest = [] then some [firstByte one two] else none
      | _, _, _, _ => none
  | _ => none

theorem value_digit {bits : Nat} (small : bits < 64) : value (digit bits) = some bits := by
  have every : ∀ bits : Fin 64, value (digit bits) = some bits.val := by decide
  exact every ⟨bits, small⟩

@[simp] theorem value_padding : value padding = none := by decide

theorem firstByte_eq (first : UInt8) {two : Nat} (high : two / 16 = first.toNat % 4) :
    firstByte (first.toNat / 4) two = first := by
  have whole : first.toNat / 4 * 4 + two / 16 = first.toNat := by omega
  rw [firstByte, whole, UInt8.ofNat_toNat]

theorem secondByte_eq (second : UInt8) {two three : Nat} (high : two % 16 = second.toNat / 16)
    (low : three / 4 = second.toNat % 16) : secondByte two three = second := by
  have whole : two % 16 * 16 + three / 4 = second.toNat := by omega
  rw [secondByte, whole, UInt8.ofNat_toNat]

theorem thirdByte_eq (third : UInt8) {three : Nat} (high : three % 4 = third.toNat / 64) :
    thirdByte three (third.toNat % 64) = third := by
  have whole : three % 4 * 64 + third.toNat % 64 = third.toNat := by omega
  rw [thirdByte, whole, UInt8.ofNat_toNat]

/-- **The decoder inverts the encoder.** -/
theorem decode_encode (bytes : Bytes) : decode (encode bytes) = some bytes := by
  fun_induction encode bytes with
  | case1 => rfl
  | case2 first =>
      have bound := first.toNat_lt
      have one : value (digit (first.toNat / 4)) = some _ := value_digit (by omega)
      have two : value (digit (first.toNat % 4 * 16)) = some _ := value_digit (by omega)
      simp only [decode, one, two, value_padding, and_self, ↓reduceIte]
      rw [firstByte_eq first (by omega)]
  | case3 first second =>
      have bound := first.toNat_lt
      have secondBound := second.toNat_lt
      have one : value (digit (first.toNat / 4)) = some _ := value_digit (by omega)
      have two : value (digit (first.toNat % 4 * 16 + second.toNat / 16)) = some _ :=
        value_digit (by omega)
      have three : value (digit (second.toNat % 16 * 4)) = some _ := value_digit (by omega)
      simp only [decode, one, two, three, value_padding, and_self, ↓reduceIte]
      rw [firstByte_eq first (by omega), secondByte_eq second (by omega) (by omega)]
  | case4 first second third rest ih =>
      have bound := first.toNat_lt
      have secondBound := second.toNat_lt
      have thirdBound := third.toNat_lt
      have one : value (digit (first.toNat / 4)) = some _ := value_digit (by omega)
      have two : value (digit (first.toNat % 4 * 16 + second.toNat / 16)) = some _ :=
        value_digit (by omega)
      have three : value (digit (second.toNat % 16 * 4 + third.toNat / 64)) = some _ :=
        value_digit (by omega)
      have four : value (digit (third.toNat % 64)) = some _ := value_digit (by omega)
      simp only [decode, one, two, three, four, ih, Option.map_some]
      rw [firstByte_eq first (by omega), secondByte_eq second (by omega) (by omega),
        thirdByte_eq third (by omega)]

/-- An encoding starts with no blank. -/
theorem isSpace_head_encode (bytes : Bytes) :
    ∀ byte ∈ (encode bytes).head?, Bytes.isSpace byte = false := by
  have every : ∀ bits : Fin 64, Bytes.isSpace (digit bits) = false := by decide
  intro byte head
  cases bytes with
  | nil => cases head
  | cons first rest =>
      have starts : (encode (first :: rest)).head? = some (digit (first.toNat / 4)) := by
        rcases rest with - | ⟨second, - | ⟨third, rest⟩⟩ <;> rfl
      rw [starts, Option.mem_some_iff] at head
      have bound := first.toNat_lt
      exact head ▸ every ⟨first.toNat / 4, by omega⟩

end Base64

end Foundation
