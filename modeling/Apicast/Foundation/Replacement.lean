import Mathlib.Data.List.Count
import Mathlib.Algebra.Order.Group.Nat

/-!
# Replacements with references to groups

In the replacement of a match `$n` and `${n}` stand for what a group captured, `$0` for the whole
match, and `$$` for one `$`. Any other `$` is an error. A text stands for itself only without `$`.
-/

namespace Foundation

namespace Replacement

inductive Piece
  | letter (c : Char)
  | group (number : Nat)
  deriving DecidableEq, Repr

/-- What was read of a reference. -/
inductive Mode
  | text
  /-- After `$`. -/
  | dollar
  | number (value : Nat)
  /-- After a brace, with the digits in it if there are some. -/
  | braced (value : Option Nat)

def digitValue (c : Char) : Nat := c.toNat - '0'.toNat

def compileFrom : Mode → List Char → Option (List Piece)
  | .text, [] => some []
  | .text, c :: rest =>
      if c = '$' then compileFrom .dollar rest
      else (compileFrom .text rest).map (.letter c :: ·)
  | .dollar, [] => none
  | .dollar, c :: rest =>
      if c = '$' then (compileFrom .text rest).map (.letter '$' :: ·)
      else if c.isDigit then compileFrom (.number (digitValue c)) rest
      else if c = '{' then compileFrom (.braced none) rest
      else none
  | .number value, [] => some [.group value]
  | .number value, c :: rest =>
      if c.isDigit then compileFrom (.number (value * 10 + digitValue c)) rest
      else if c = '$' then (compileFrom .dollar rest).map (.group value :: ·)
      else (compileFrom .text rest).map (.group value :: .letter c :: ·)
  | .braced _, [] => none
  | .braced value, c :: rest =>
      if c.isDigit then compileFrom (.braced (some (value.getD 0 * 10 + digitValue c))) rest
      else
        match c, value with
        | '}', some value => (compileFrom .text rest).map (.group value :: ·)
        | _, _ => none

/-- The pieces of a replacement, or none when it has an error. -/
def compile (replacement : List Char) : Option (List Piece) := compileFrom .text replacement

/-- A group that did not take part in the match is empty. -/
def Piece.expand (groups : List (List Char)) : Piece → List Char
  | .letter c => [c]
  | .group number => groups.getD number []

def expand (groups : List (List Char)) (pieces : List Piece) : List Char :=
  pieces.flatMap (Piece.expand groups)

theorem compileFrom_text {replacement : List Char} (plain : '$' ∉ replacement) :
    compileFrom .text replacement = some (replacement.map .letter) := by
  induction replacement with
  | nil => rfl
  | cons c rest ih =>
      obtain ⟨other, others⟩ := not_or.mp (mt List.mem_cons.mpr plain)
      unfold compileFrom
      rw [if_neg (Ne.symm other), ih others]
      rfl

/-- A text without `$` stands for itself. -/
theorem expand_compile_of_plain {replacement : List Char} (plain : '$' ∉ replacement)
    (groups : List (List Char)) :
    (compile replacement).map (expand groups) = some replacement := by
  have itself : expand groups (replacement.map .letter) = replacement := by
    unfold expand
    rw [List.flatMap_map]
    exact List.flatMap_singleton' replacement
  exact (congrArg (Option.map _) (compileFrom_text plain)).trans (congrArg some itself)

section Dollars

variable {groups : List (List Char)} (plain : ∀ group ∈ groups, '$' ∉ group)

def dollars (text : List Char) : Nat := text.count '$'

theorem dollars_expand_cons (piece : Piece) (pieces : List Piece) :
    dollars (expand groups (piece :: pieces)) =
      dollars (piece.expand groups) + dollars (expand groups pieces) := by
  unfold expand dollars
  rw [List.flatMap_cons, List.count_append]

include plain in
theorem dollars_group (number : Nat) : dollars (Piece.expand groups (.group number)) = 0 := by
  refine List.count_eq_zero.mpr ?_
  change '$' ∉ groups.getD number []
  rw [List.getD_eq_getElem?_getD]
  cases found : groups[number]? with
  | none => exact List.not_mem_nil
  | some group => exact plain group (List.mem_of_getElem? found)

theorem dollars_cons (c : Char) (rest : List Char) :
    dollars (c :: rest) = dollars (Piece.expand groups (.letter c)) + dollars rest := by
  change List.count '$' ([c] ++ rest) = _
  exact List.count_append

include plain in
/-- References use up dollars. -/
theorem dollars_expand_le {mode : Mode} {replacement : List Char} {pieces : List Piece}
    (compiled : compileFrom mode replacement = some pieces) :
    dollars (expand groups pieces) ≤ dollars replacement := by
  fun_induction compileFrom mode replacement generalizing pieces with
  | case1 =>
      obtain rfl := Option.some.inj compiled
      exact le_rfl
  | case9 value =>
      obtain rfl := Option.some.inj compiled
      rw [dollars_expand_cons, dollars_group plain]
      exact le_rfl
  -- The errors.
  | case4 | case8 | case13 | case16 => nomatch compiled
  -- Inside of a reference.
  | case2 rest ih | case6 c rest _ _ ih | case7 rest _ _ ih | case10 _ c rest _ ih
  | case14 _ c rest _ ih => exact (ih compiled).trans List.count_le_count_cons
  -- A letter.
  | case3 c rest _ ih | case5 rest ih =>
      obtain ⟨later, found, rfl⟩ := Option.map_eq_some_iff.mp compiled
      rw [dollars_expand_cons, dollars_cons]
      exact Nat.add_le_add_left (ih found) _
  -- The end of a reference.
  | case11 value rest _ ih | case15 rest value _ ih =>
      obtain ⟨later, found, rfl⟩ := Option.map_eq_some_iff.mp compiled
      rw [dollars_expand_cons, dollars_group plain, Nat.zero_add]
      exact (ih found).trans List.count_le_count_cons
  | case12 value c rest _ _ ih =>
      obtain ⟨later, found, rfl⟩ := Option.map_eq_some_iff.mp compiled
      rw [dollars_expand_cons, dollars_expand_cons, dollars_group plain, Nat.zero_add, dollars_cons]
      exact Nat.add_le_add_left (ih found) _

include plain in
theorem dollars_expand_lt {replacement : List Char} {pieces : List Piece}
    (compiled : compile replacement = some pieces) (member : '$' ∈ replacement) :
    dollars (expand groups pieces) < dollars replacement := by
  unfold compile at compiled
  induction replacement generalizing pieces with
  | nil => nomatch member
  | cons c rest ih =>
      unfold compileFrom at compiled
      split at compiled
      · next dollar =>
        refine (dollars_expand_le plain compiled).trans_lt ?_
        rw [dollar]
        exact (Nat.lt_succ_self _).trans_eq List.count_cons_self.symm
      · next other =>
        obtain ⟨later, found, rfl⟩ := Option.map_eq_some_iff.mp compiled
        rw [dollars_expand_cons, dollars_cons]
        exact Nat.add_lt_add_left (ih found (List.mem_of_ne_of_mem (Ne.symm other) member)) _

end Dollars

end Replacement

end Foundation
