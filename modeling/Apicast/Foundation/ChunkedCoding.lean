import Apicast.Foundation.Lines
import Apicast.Foundation.Numeral

/-!
# The chunked transfer coding

The grammar of chunked bodies (RFC 7230, section 4.1) and its decoder. A body is a sequence of
chunks, each behind a line with its size in hexadecimal digits, then a chunk of size zero and the
trailer. Extensions of a size line and fields of a trailer are lines that are not looked into. A
decoder that stops at the end of the body leaves the rest, so that no body starts another one.
-/

namespace Foundation

namespace ChunkedCoding

open Lines Numeral

/-! ### The grammar -/

def Extension (line : Bytes) : Prop := line = [] ∨ line.head? = some 59 ∧ Unbroken line

/-- The digits of a size and extensions, on a line of their own. -/
def SizeLine (size : Nat) (line : Bytes) : Prop :=
  ∃ digits values extension, line = digits ++ (extension ++ crlf) ∧ digits ≠ [] ∧
    Denote 16 digits values ∧ number 16 values = size ∧ Extension extension

/-- Fields up to an empty line. -/
def TrailerPart (bytes : Bytes) : Prop :=
  ∃ fields, bytes = block fields ∧ ∀ field ∈ fields, field ≠ [] ∧ Unbroken field

/-- A chunked body and what it decodes to. -/
inductive ChunkedBody : Bytes → Bytes → Prop
  | last {line trailer : Bytes} : SizeLine 0 line → TrailerPart trailer →
      ChunkedBody (line ++ trailer) []
  | chunk {line data body payload : Bytes} : data ≠ [] → SizeLine data.length line →
      ChunkedBody body payload → ChunkedBody (line ++ (data ++ (crlf ++ body))) (data ++ payload)

/-! ### The decoder -/

/-- The size of the next chunk. -/
def takeSize (bytes : Bytes) : Option (Nat × Bytes) :=
  let (values, rest) := takeDigits 16 bytes
  if values = [] then none
  else
    (takeLine rest).bind fun (extension, rest) =>
      if extension = [] ∨ extension.head? = some 59 then some (number 16 values, rest) else none

/-- Decode chunk by chunk. -/
def decodeChunks : Nat → Bytes → Option (Bytes × Bytes)
  | 0, _ => none
  | fuel + 1, bytes =>
      (takeSize bytes).bind fun (size, rest) =>
        if size = 0 then (takeBlock fuel rest).map fun (_, left) => ([], left)
        else if (rest.drop size).take 2 = crlf then
          (decodeChunks fuel (rest.drop (size + 2))).map fun (payload, left) =>
            (rest.take size ++ payload, left)
        else none

/-- What a body at the beginning decodes to, and what is left over. -/
def decode (bytes : Bytes) : Option (Bytes × Bytes) := decodeChunks bytes.length bytes

/-! ### Reading what the grammar allows -/

theorem sizeLine_numeral (size : Nat) : SizeLine size (numeral 16 size ++ crlf) := by
  obtain ⟨values, denote, stands⟩ := exists_denote_numeral (by omega) le_rfl size
  exact ⟨numeral 16 size, values, [], rfl, numeral_ne_nil size, denote, stands, .inl rfl⟩

theorem takeSize_append {size : Nat} {line rest : Bytes} (sized : SizeLine size line) :
    takeSize (line ++ rest) = some (size, rest) := by
  obtain ⟨digits, values, extension, rfl, nonempty, stand, rfl, shape⟩ := sized
  have unbroken : Unbroken extension := by
    rcases shape with rfl | ⟨-, unbroken⟩
    · exact fun byte member => by cases member
    · exact unbroken
  have stops : ∀ byte ∈ (extension ++ (crlf ++ rest)).head?, digitValue 16 byte = none := by
    rcases shape with rfl | ⟨semicolon, -⟩
    · simp only [List.nil_append, crlf, List.cons_append, List.head?_cons, Option.mem_some_iff,
        forall_eq']
      decide
    · intro byte first
      rw [List.head?_append, semicolon, Option.some_or, Option.mem_some_iff] at first
      subst first
      decide
  have allowed : extension = [] ∨ extension.head? = some 59 := shape.imp_right And.left
  have found : values ≠ [] := fun none => nonempty (by
    subst none
    cases stand
    rfl)
  unfold takeSize
  rw [List.append_assoc, List.append_assoc, takeDigits_append stand stops]
  dsimp only
  rw [if_neg found, takeLine_append unbroken, Option.bind_some]
  dsimp only
  rw [if_pos allowed]

theorem SizeLine.length_pos {size : Nat} {line : Bytes} (sized : SizeLine size line) :
    0 < line.length := by
  obtain ⟨digits, _, extension, rfl, -⟩ := sized
  simp [crlf]

theorem decodeChunks_append {body payload rest : Bytes} (wellFormed : ChunkedBody body payload)
    {fuel : Nat} (enough : body.length ≤ fuel) :
    decodeChunks fuel (body ++ rest) = some (payload, rest) := by
  induction wellFormed generalizing fuel with
  | @last line trailer sized part =>
      obtain ⟨fields, rfl, unbroken⟩ := part
      have long := sized.length_pos
      have short := @length_lt_length_block fields
      rw [List.length_append] at enough
      obtain ⟨fuel, rfl⟩ : ∃ less, fuel = less + 1 := ⟨fuel - 1, by omega⟩
      rw [List.append_assoc, decodeChunks, takeSize_append sized, Option.bind_some]
      dsimp only
      rw [if_pos rfl, takeBlock_append unbroken (by omega), Option.map_some]
  | @chunk line data body payload nonempty sized _ ih =>
      have long := sized.length_pos
      have positive := List.length_pos_iff.mpr nonempty
      simp only [crlf, List.length_append, List.length_cons, List.length_nil] at enough
      obtain ⟨fuel, rfl⟩ : ∃ less, fuel = less + 1 := ⟨fuel - 1, by omega⟩
      have ended : ((data ++ (crlf ++ (body ++ rest))).drop data.length).take 2 = crlf := by
        rw [List.drop_left]
        rfl
      have next : (data ++ (crlf ++ (body ++ rest))).drop (data.length + 2) = body ++ rest := by
        rw [← List.drop_drop, List.drop_left]
        rfl
      rw [List.append_assoc, List.append_assoc, List.append_assoc, decodeChunks,
        takeSize_append sized, Option.bind_some]
      dsimp only
      rw [if_neg (by omega), if_pos ended, next, ih (by omega), Option.map_some]
      dsimp only
      rw [List.take_left]

/-- A body is decoded to the end, and what follows is left over. -/
theorem decode_append {body payload : Bytes} (wellFormed : ChunkedBody body payload)
    (rest : Bytes) : decode (body ++ rest) = some (payload, rest) :=
  decodeChunks_append wellFormed (by simp)

end ChunkedCoding

end Foundation
