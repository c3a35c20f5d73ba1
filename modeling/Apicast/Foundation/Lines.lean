import Apicast.Foundation.Bytes
import Mathlib.Data.List.Basic

/-!
# Lines of a message

Lines that end with a carriage return and a line feed, and blocks of lines up to an empty one.
-/

namespace Foundation

namespace Lines

def cr : UInt8 := 13

def lf : UInt8 := 10

def crlf : Bytes := [cr, lf]

/-- A line does not contain a line break. -/
def Unbroken (line : Bytes) : Prop := ∀ byte ∈ line, byte ≠ cr ∧ byte ≠ lf

/-- Lines and the empty one at their end. -/
def block (lines : List Bytes) : Bytes := lines.flatMap (· ++ crlf) ++ crlf

/-- The line at the beginning. -/
def takeLine : Bytes → Option (Bytes × Bytes)
  | [] => none
  | byte :: rest =>
      if byte = cr then
        if rest.head? = some lf then some ([], rest.tail) else none
      else if byte = lf then none
      else (takeLine rest).map fun (line, rest) => (byte :: line, rest)

/-- The lines up to an empty one. -/
def takeBlock : Nat → Bytes → Option (List Bytes × Bytes)
  | 0, _ => none
  | fuel + 1, bytes =>
      (takeLine bytes).bind fun (line, rest) =>
        if line = [] then some ([], rest)
        else (takeBlock fuel rest).map fun (lines, rest) => (line :: lines, rest)

variable {line rest : Bytes} {lines : List Bytes}

theorem unbroken_of_all (all : line.all (fun byte => byte ≠ cr && byte ≠ lf) = true) :
    Unbroken line := by
  intro byte member
  simpa using List.all_eq_true.mp all byte member

theorem unbroken_append {first second : Bytes} :
    Unbroken (first ++ second) ↔ Unbroken first ∧ Unbroken second := List.forall_mem_append

theorem takeLine_append (unbroken : Unbroken line) :
    takeLine (line ++ (crlf ++ rest)) = some (line, rest) := by
  induction line with
  | nil => simp [takeLine, crlf]
  | cons byte line ih =>
      obtain ⟨notCr, notLf⟩ := unbroken byte List.mem_cons_self
      have inner := ih fun other member => unbroken other (List.mem_cons_of_mem _ member)
      simp [takeLine, notCr, notLf, inner]

theorem length_lt_length_block : lines.length < (block lines).length := by
  induction lines with
  | nil => simp [block, crlf]
  | cons line lines ih =>
      simp only [block, List.flatMap_cons, List.append_assoc, List.length_append,
        List.length_cons] at ih ⊢
      have : crlf.length = 2 := rfl
      omega

theorem takeBlock_append (unbroken : ∀ line ∈ lines, line ≠ [] ∧ Unbroken line) {fuel : Nat}
    (enough : lines.length < fuel) :
    takeBlock fuel (block lines ++ rest) = some (lines, rest) := by
  obtain ⟨fuel, rfl⟩ : ∃ less, fuel = less + 1 := ⟨fuel - 1, by omega⟩
  induction lines generalizing fuel with
  | nil =>
      have empty : takeLine (crlf ++ rest) = some ([], rest) :=
        @takeLine_append [] rest fun byte member => by cases member
      rw [block, List.flatMap_nil, List.nil_append, takeBlock, empty, Option.bind_some]
      exact if_pos rfl
  | cons line lines ih =>
      rw [List.length_cons] at enough
      obtain ⟨fuel, rfl⟩ : ∃ less, fuel = less + 1 := ⟨fuel - 1, by omega⟩
      obtain ⟨nonempty, whole⟩ := unbroken line List.mem_cons_self
      have inner := ih (fun other member => unbroken other (List.mem_cons_of_mem _ member)) fuel
        (by omega)
      have first : block (line :: lines) ++ rest = line ++ (crlf ++ (block lines ++ rest)) := by
        simp [block]
      rw [first, takeBlock, takeLine_append whole, Option.bind_some]
      dsimp only
      rw [if_neg nonempty, inner, Option.map_some]

end Lines

end Foundation
