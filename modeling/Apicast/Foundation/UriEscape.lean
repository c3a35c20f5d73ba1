import Apicast.Foundation.DelimitedString

/-!
# Percent encoding

The escaping of a string as a component of a URI: letters, digits and four marks
stand for themselves, every other byte becomes a percent sign and two hexadecimal
digits. Escaping is injective, and an escaped string contains no delimiters.
-/

namespace Foundation

namespace UriEscape

/-- The characters that are not escaped. -/
def isUnreserved (char : Char) : Bool :=
  char.isAlphanum || char == '-' || char == '.' || char == '_' || char == '~'

def hexDigit (value : Nat) : Char := Char.ofNat (if value < 10 then 48 + value else 55 + value)

def escapeByte (byte : UInt8) : List Char :=
  if isUnreserved (Char.ofNat byte.toNat) then [Char.ofNat byte.toNat]
  else ['%', hexDigit (byte.toNat / 16), hexDigit (byte.toNat % 16)]

/-- `ngx.escape_uri` -/
def escapeUri (text : String) : String :=
  String.ofList (text.toByteArray.data.toList.flatMap escapeByte)

private theorem toNat_ofNat {code : Nat} (byte : code < 256) : (Char.ofNat code).toNat = code := by
  have valid : code.isValidChar := Or.inl (by omega)
  unfold Char.ofNat
  rw [dif_pos valid]
  rfl

private theorem value_of_hexDigit : ∀ first second : Fin 16,
    hexDigit first = hexDigit second → first = second := by decide

private theorem isUnreserved_hexDigit : ∀ value : Fin 16, isUnreserved (hexDigit value) := by decide

/-- Equal characters stand for equal bytes. -/
private theorem byte_of_char {first second : UInt8}
    (same : Char.ofNat first.toNat = Char.ofNat second.toNat) : first = second := by
  have codes := congrArg Char.toNat same
  rw [toNat_ofNat first.toNat_lt, toNat_ofNat second.toNat_lt] at codes
  exact UInt8.toNat_inj.mp codes

/-- Equal pairs of digits stand for equal bytes. -/
private theorem byte_of_digits {first second : UInt8}
    (high : hexDigit (first.toNat / 16) = hexDigit (second.toNat / 16))
    (low : hexDigit (first.toNat % 16) = hexDigit (second.toNat % 16)) : first = second := by
  have firstBound := first.toNat_lt
  have secondBound := second.toNat_lt
  have highs := value_of_hexDigit ⟨first.toNat / 16, by omega⟩ ⟨second.toNat / 16, by omega⟩ high
  have lows := value_of_hexDigit ⟨first.toNat % 16, by omega⟩ ⟨second.toNat % 16, by omega⟩ low
  apply UInt8.toNat_inj.mp
  have highEqual := congrArg Fin.val highs
  have lowEqual := congrArg Fin.val lows
  dsimp only at highEqual lowEqual
  omega

/-- What an escaped byte stands for can be told from the text that starts with it. -/
theorem escapeByte_append_inj {first second : UInt8} {rest remaining : List Char}
    (equal : escapeByte first ++ rest = escapeByte second ++ remaining) :
    first = second ∧ rest = remaining := by
  have percent : isUnreserved '%' = false := by decide
  unfold escapeByte at equal
  by_cases firstPlain : isUnreserved (Char.ofNat first.toNat)
  · rw [if_pos firstPlain] at equal
    by_cases secondPlain : isUnreserved (Char.ofNat second.toNat)
    · rw [if_pos secondPlain] at equal
      obtain ⟨chars, rests⟩ := List.cons.inj equal
      exact ⟨byte_of_char chars, rests⟩
    · rw [if_neg secondPlain] at equal
      have chars := (List.cons.inj equal).1
      rw [chars, percent] at firstPlain
      cases firstPlain
  · rw [if_neg firstPlain] at equal
    by_cases secondPlain : isUnreserved (Char.ofNat second.toNat)
    · rw [if_pos secondPlain] at equal
      have chars := (List.cons.inj equal).1
      rw [← chars, percent] at secondPlain
      cases secondPlain
    · rw [if_neg secondPlain] at equal
      obtain ⟨high, rest⟩ := List.cons.inj (List.cons.inj equal).2
      obtain ⟨low, rests⟩ := List.cons.inj rest
      exact ⟨byte_of_digits high low, rests⟩

private theorem flatMap_escapeByte_injective {first second : List UInt8}
    (equal : first.flatMap escapeByte = second.flatMap escapeByte) : first = second := by
  have nonempty (byte : UInt8) : escapeByte byte ≠ [] := by
    unfold escapeByte
    split <;> exact List.cons_ne_nil _ _
  induction first generalizing second with
  | nil =>
      cases second with
      | nil => rfl
      | cons byte bytes =>
          rw [List.flatMap_nil, List.flatMap_cons] at equal
          exact absurd (List.append_eq_nil_iff.mp equal.symm).1 (nonempty byte)
  | cons byte bytes ih =>
      cases second with
      | nil =>
          rw [List.flatMap_nil, List.flatMap_cons] at equal
          exact absurd (List.append_eq_nil_iff.mp equal).1 (nonempty byte)
      | cons other others =>
          rw [List.flatMap_cons, List.flatMap_cons] at equal
          obtain ⟨same, rests⟩ := escapeByte_append_inj equal
          rw [same, ih rests]

/-- Different strings are escaped differently. -/
theorem escapeUri_injective {first second : String}
    (equal : escapeUri first = escapeUri second) : first = second := by
  unfold escapeUri at equal
  have chars := flatMap_escapeByte_injective (String.ofList_injective equal)
  apply String.toByteArray_inj.mp
  apply ByteArray.ext
  exact Array.toList_inj.mp chars

/-- An escaped string consists of unreserved characters and percent signs. -/
theorem mem_escapeUri {text : String} {char : Char} (member : char ∈ (escapeUri text).toList) :
    isUnreserved char ∨ char = '%' := by
  unfold escapeUri at member
  rw [String.toList_ofList] at member
  obtain ⟨byte, _, escaped⟩ := List.mem_flatMap.mp member
  unfold escapeByte at escaped
  by_cases plain : isUnreserved (Char.ofNat byte.toNat)
  · rw [if_pos plain] at escaped
    rw [List.mem_singleton.mp escaped]
    exact Or.inl plain
  · rw [if_neg plain] at escaped
    have bound := byte.toNat_lt
    rcases List.mem_cons.mp escaped with percent | digit
    · exact Or.inr percent
    · left
      rcases List.mem_cons.mp digit with high | low
      · rw [high]
        exact isUnreserved_hexDigit ⟨byte.toNat / 16, by omega⟩
      · rw [List.mem_singleton.mp low]
        exact isUnreserved_hexDigit ⟨byte.toNat % 16, by omega⟩

/-- An escaped string does not contain a delimiter. -/
theorem free_escapeUri {delimiter : Char} (reserved : isUnreserved delimiter = false)
    (percent : delimiter ≠ '%') (text : String) : Delimited.Free delimiter (escapeUri text) := by
  intro member
  rcases mem_escapeUri member with plain | same
  · rw [reserved] at plain
    cases plain
  · exact percent same

section Args

/-- An argument of a query. -/
def encodeArg (pair : String × String) : String :=
  Delimited.join '=' (escapeUri pair.1) (escapeUri pair.2)

/-- `ngx.encode_args` of a table with strings, whose pairs are given in the order in which the
table is gone through. -/
def encodeArgs (pairs : List (String × String)) : String :=
  Delimited.joinAll '&' (pairs.map encodeArg)

theorem encodeArg_injective {first second : String × String}
    (same : encodeArg first = encodeArg second) : first = second := by
  have free (text : String) : Delimited.Free '=' (escapeUri text) :=
    free_escapeUri rfl (by decide) text
  obtain ⟨keys, values⟩ := (Delimited.join_inj (free _) (free _)).mp same
  exact Prod.ext (escapeUri_injective keys) (escapeUri_injective values)

theorem free_encodeArg {delimiter : Char} (reserved : isUnreserved delimiter = false)
    (percent : delimiter ≠ '%') (equals : delimiter ≠ '=') (pair : String × String) :
    Delimited.Free delimiter (encodeArg pair) := by
  intro member
  unfold encodeArg at member
  rw [Delimited.toList_join, List.mem_append, List.mem_cons] at member
  rcases member with key | same | value
  · exact free_escapeUri reserved percent _ key
  · exact equals same
  · exact free_escapeUri reserved percent _ value

/-- Only a table without entries is encoded as nothing. -/
theorem encodeArgs_eq_empty {pairs : List (String × String)} :
    encodeArgs pairs = "" ↔ pairs = [] := by
  constructor
  · intro empty
    by_contra nonempty
    apply Delimited.joinAll_ne_empty (fun none => nonempty (List.map_eq_nil_iff.mp none)) _ empty
    intro field member
    obtain ⟨pair, _, rfl⟩ := List.mem_map.mp member
    exact Delimited.join_ne_empty _ _ _
  · intro empty
    rw [empty]
    rfl

/-- The arguments can be read back. -/
theorem encodeArgs_injective {first second : List (String × String)}
    (equal : encodeArgs first = encodeArgs second) : first = second := by
  have free (pairs : List (String × String)) : ∀ field ∈ pairs.map encodeArg,
      Delimited.Free '&' field := by
    intro field member
    obtain ⟨pair, _, rfl⟩ := List.mem_map.mp member
    exact free_encodeArg rfl (by decide) (by decide) pair
  by_cases firstEmpty : first = []
  · rw [firstEmpty]
    symm
    rw [← encodeArgs_eq_empty, ← equal, encodeArgs_eq_empty]
    exact firstEmpty
  · have secondNonempty : second ≠ [] := by
      rw [Ne, ← encodeArgs_eq_empty, ← equal, encodeArgs_eq_empty]
      exact firstEmpty
    apply List.map_injective_iff.mpr fun _ _ => encodeArg_injective
    apply Delimited.joinAll_injective (free first) (free second) _ _ equal
    · exact fun none => firstEmpty (List.map_eq_nil_iff.mp none)
    · exact fun none => secondNonempty (List.map_eq_nil_iff.mp none)

/-- Encoded arguments contain no delimiter but their own. -/
theorem free_encodeArgs {delimiter : Char} (reserved : isUnreserved delimiter = false)
    (percent : delimiter ≠ '%') (equals : delimiter ≠ '=') (ampersand : delimiter ≠ '&')
    (pairs : List (String × String)) : Delimited.Free delimiter (encodeArgs pairs) := by
  apply Delimited.free_joinAll ampersand
  intro field member
  obtain ⟨pair, _, rfl⟩ := List.mem_map.mp member
  exact free_encodeArg reserved percent equals pair

end Args

end UriEscape

end Foundation
