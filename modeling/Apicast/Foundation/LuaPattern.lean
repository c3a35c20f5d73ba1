import Apicast.Foundation.Bytes
import Mathlib.Data.List.TakeWhile

/-!
# Patterns of the string library

The fragment of Lua patterns in which every piece is a class of bytes, matched once or as often as
possible, with or without a capture around it, and which are anchored at both ends. A repeated
piece takes the longest run after which the rest of the pattern still matches.
-/

namespace Foundation

inductive Repetition
  | once
  /-- `*` -/
  | many
  /-- `+` -/
  | some

structure LuaPiece where
  accepts : UInt8 → Bool
  times : Repetition
  captured : Bool

abbrev LuaPattern := List LuaPiece

namespace LuaPattern

/-- The first success from a count downwards (`max_expand`). -/
def expand {Result : Type*} (attempt : Nat → Option Result) (least : Nat) : Nat → Option Result
  | 0 => if least = 0 then attempt 0 else none
  | count + 1 =>
      if least ≤ count + 1 then (attempt (count + 1)).orElse fun _ => expand attempt least count
      else none

/-- Match a piece with a number of bytes and go on with the rest. -/
def attempt (piece : LuaPiece) (next : Bytes → Option (List Bytes)) (bytes : Bytes) (count : Nat) :
    Option (List Bytes) :=
  (next (bytes.drop count)).map fun captures =>
    if piece.captured then bytes.take count :: captures else captures

def matchPiece (piece : LuaPiece) (next : Bytes → Option (List Bytes)) (bytes : Bytes) :
    Option (List Bytes) :=
  let longest := (bytes.takeWhile piece.accepts).length
  match piece.times with
  | .once => if 1 ≤ longest then attempt piece next bytes 1 else none
  | .many => expand (attempt piece next bytes) 0 longest
  | .some => expand (attempt piece next bytes) 1 longest

/-- The captures of a match of the whole string (`match` with `^` and `$`). -/
def matchAll : LuaPattern → Bytes → Option (List Bytes)
  | [], bytes => if bytes = [] then some [] else none
  | piece :: pieces, bytes => matchPiece piece (matchAll pieces) bytes

/-- The largest count that succeeds is the one that counts. -/
theorem expand_eq {Result : Type*} {attempt : Nat → Option Result} {least count longest : Nat}
    {result : Result} (enough : least ≤ count) (bounded : count ≤ longest)
    (found : attempt count = some result)
    (more : ∀ larger, count < larger → larger ≤ longest → attempt larger = none) :
    expand attempt least longest = some result := by
  induction longest with
  | zero =>
      obtain rfl : count = 0 := by omega
      rw [expand, if_pos (by omega), found]
  | succ longest ih =>
      rw [expand, if_pos (by omega)]
      rcases Nat.lt_or_eq_of_le bounded with below | rfl
      · rw [more _ below le_rfl]
        exact ih (by omega) fun larger above inside => more larger above (by omega)
      · rw [found]
        rfl

variable {piece : LuaPiece} {pieces : LuaPattern} {bytes rest : Bytes} {captures : List Bytes}

/-- A piece that is matched once fails on any other byte. -/
theorem matchAll_once_eq_none (once : piece.times = .once)
    (other : ∀ byte ∈ bytes.head?, piece.accepts byte = false) :
    matchAll (piece :: pieces) bytes = none := by
  have empty : bytes.takeWhile piece.accepts = [] := by
    cases bytes with
    | nil => rfl
    | cons byte bytes => simp [other byte rfl]
  simp [matchAll, matchPiece, once, empty]

theorem matchAll_once {byte : UInt8} (once : piece.times = .once) (plain : piece.captured = false)
    (accepted : piece.accepts byte = true) :
    matchAll (piece :: pieces) (byte :: rest) = matchAll pieces rest := by
  simp [matchAll, matchPiece, once, accepted, attempt, plain]

/-- A repeated piece takes everything up to a byte outside of its class, if the rest matches. -/
theorem matchAll_longest {run : Bytes} (repeated : piece.times ≠ .once)
    (nonempty : piece.times = .some → run ≠ []) (inside : ∀ byte ∈ run, piece.accepts byte = true)
    (outside : ∀ byte ∈ rest.head?, piece.accepts byte = false)
    (matched : matchAll pieces rest = some captures) :
    matchAll (piece :: pieces) (run ++ rest) =
      some (if piece.captured then run :: captures else captures) := by
  have none_left : rest.takeWhile piece.accepts = [] := by
    cases rest with
    | nil => rfl
    | cons byte rest => simp [outside byte rfl]
  have longest : ((run ++ rest).takeWhile piece.accepts).length = run.length := by
    rw [List.takeWhile_append_of_pos inside, none_left, List.append_nil]
  have found : attempt piece (matchAll pieces) (run ++ rest) run.length =
      some (if piece.captured then run :: captures else captures) := by
    rw [attempt, List.drop_left, matched, Option.map_some, List.take_left]
  rw [matchAll, matchPiece, longest]
  cases times : piece.times with
  | once => exact absurd times repeated
  | many => exact expand_eq (Nat.zero_le _) le_rfl found fun larger above inside => by omega
  | some =>
      exact expand_eq (List.length_pos_iff.mpr (nonempty times)) le_rfl found
        fun larger above inside => by omega

/-- A run that must leave a separator leaves the last one. -/
theorem matchAll_last {before after : Bytes} {separator : UInt8} {field closing : LuaPiece}
    (many : field.times = .many) (every : ∀ byte, field.accepts byte = true)
    (captured : field.captured = true) (once : closing.times = .once)
    (plain : closing.captured = false)
    (exact : ∀ byte, closing.accepts byte = true ↔ byte = separator) (last : separator ∉ after)
    (matched : matchAll pieces after = some captures) :
    matchAll (field :: closing :: pieces) (before ++ separator :: after) =
      some (before :: captures) := by
  have bounded : before.length ≤
      ((before ++ separator :: after).takeWhile field.accepts).length := by
    rw [List.takeWhile_eq_self_iff.mpr fun byte _ => every byte]
    simp
  rw [matchAll, matchPiece, many]
  refine expand_eq (Nat.zero_le _) bounded ?_ ?_
  · rw [attempt, List.drop_left, matchAll_once once plain ((exact _).mpr rfl), matched]
    simp [captured]
  · intro larger above _
    obtain ⟨offset, rfl⟩ : ∃ offset, larger = before.length + (offset + 1) :=
      ⟨larger - before.length - 1, by omega⟩
    have tail : (before ++ separator :: after).drop (before.length + (offset + 1)) =
        after.drop offset := by
      rw [← List.drop_drop, List.drop_left, List.drop_succ_cons]
    rw [attempt, tail, matchAll_once_eq_none once, Option.map_none]
    intro byte first
    have member := List.mem_of_mem_drop (List.mem_of_mem_head? first)
    cases accepted : closing.accepts byte with
    | false => rfl
    | true => exact absurd ((exact byte).mp accepted ▸ member) last

end LuaPattern

end Foundation
