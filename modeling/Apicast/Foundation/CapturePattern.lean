import Apicast.Foundation.Marker
import Mathlib.Data.List.Infix

/-!
# Patterns with capturing runs

The fragment of regular expressions that reads delimited fields: literal text,
and groups that capture a run of at least one character of a class. A group takes
the longest run after which the rest of the pattern still matches, and a pattern
matches at the leftmost position where it can.
-/

namespace Foundation

/-- One piece of a pattern. -/
inductive PatternPiece
  | literal (text : String)
  | capture (accepts : Char → Bool)

/-- Pieces that follow each other without a gap. -/
abbrev CapturePattern := List PatternPiece

namespace CapturePattern

/-- The captured fields of a match at the start of the input. -/
def matchStart : CapturePattern → List Char → Option (List String)
  | [], _ => some []
  | .literal text :: pieces, input =>
      if text.toList <+: input then matchStart pieces (input.drop text.toList.length) else none
  | .capture accepts :: pieces, input =>
      -- The longest run comes first, shorter ones are what backtracking tries.
      (List.range (input.takeWhile accepts).length).reverse.findSome? fun others =>
        (matchStart pieces (input.drop (others + 1))).map fun fields =>
          String.ofList (input.take (others + 1)) :: fields

/-- The captured fields of the leftmost match. -/
def match? (pattern : CapturePattern) (text : String) : Option (List String) :=
  text.toList.tails.findSome? (matchStart pattern)

section Matches

variable {accepts : Char → Bool} {pieces : CapturePattern} {input : List Char}
  {fields : List String}

/-- A literal matches where it stands, and the rest matches after it. -/
theorem matchStart_literal {text : String} :
    matchStart (.literal text :: pieces) input = some fields ↔
      ∃ rest, input = text.toList ++ rest ∧ matchStart pieces rest = some fields := by
  rw [matchStart]
  split
  · rename_i start
    obtain ⟨rest, rfl⟩ := start
    rw [List.drop_left]
    constructor
    · intro matched
      exact ⟨rest, rfl, matched⟩
    · rintro ⟨other, same, matched⟩
      rw [List.append_cancel_left same]
      exact matched
  · rename_i start
    constructor
    · exact nofun
    · rintro ⟨rest, same, _⟩
      exact absurd ⟨rest, same.symm⟩ start

@[simp]
theorem matchStart_literal_append (text : String) (rest : List Char) :
    matchStart (.literal text :: pieces) (text.toList ++ rest) = matchStart pieces rest := by
  rw [matchStart, if_pos (List.prefix_append _ _), List.drop_left]

/-- The longest of the numbers below a bound for which there is a result. -/
private theorem findSome?_range_reverse {Result : Type*} {result : Nat → Option Result}
    {bound : Nat} {found : Result} :
    (List.range bound).reverse.findSome? result = some found ↔
      ∃ number < bound, result number = some found ∧
        ∀ larger, number < larger → larger < bound → result larger = none := by
  induction bound with
  | zero => exact iff_of_false nofun fun ⟨_, below, _⟩ => absurd below (Nat.not_lt_zero _)
  | succ bound ih =>
      rw [List.range_succ, List.reverse_append, List.reverse_singleton, List.singleton_append,
        List.findSome?_cons]
      cases last : result bound with
      | some other =>
          constructor
          · intro same
            refine ⟨bound, Nat.lt_succ_self _, last.trans same, ?_⟩
            intro larger above below
            omega
          · rintro ⟨number, below, matched, none⟩
            rcases Nat.lt_succ_iff_lt_or_eq.mp below with smaller | rfl
            · rw [none bound smaller (Nat.lt_succ_self _)] at last
              cases last
            · exact last.symm.trans matched
      | none =>
          rw [ih]
          constructor
          · rintro ⟨number, below, matched, none⟩
            refine ⟨number, Nat.lt_succ_of_lt below, matched, ?_⟩
            intro larger above within
            rcases Nat.lt_succ_iff_lt_or_eq.mp within with smaller | rfl
            · exact none larger above smaller
            · exact last
          · rintro ⟨number, below, matched, none⟩
            have different : number ≠ bound := by
              rintro rfl
              rw [last] at matched
              cases matched
            refine ⟨number, by omega, matched, ?_⟩
            intro larger above within
            exact none larger above (Nat.lt_succ_of_lt within)

private theorem lt_length_takeWhile {number : Nat} :
    number < (input.takeWhile accepts).length ↔
      number < input.length ∧ ∀ char ∈ input.take (number + 1), accepts char := by
  induction input generalizing number with
  | nil => exact iff_of_false (Nat.not_lt_zero _) fun both => Nat.not_lt_zero _ both.1
  | cons first rest ih =>
      rw [List.takeWhile_cons]
      cases accepted : accepts first with
      | false =>
          refine iff_of_false (Nat.not_lt_zero _) fun both => ?_
          have wrong := both.2 first List.mem_cons_self
          rw [accepted] at wrong
          cases wrong
      | true =>
          rw [if_pos rfl, List.length_cons, List.length_cons, List.take_succ_cons,
            List.forall_mem_cons]
          cases number with
          | zero => simp only [Nat.zero_lt_succ, List.take_zero, accepted, List.not_mem_nil,
              IsEmpty.forall_iff, implies_true, and_self]
          | succ number =>
              rw [Nat.succ_lt_succ_iff, Nat.succ_lt_succ_iff, ih]
              simp only [accepted, true_and]

/-- A group captures a run of its class after which the rest matches, and no longer run does. -/
theorem matchStart_capture {found : List String} :
    matchStart (.capture accepts :: pieces) input = some found ↔
      ∃ run rest fields, input = run ++ rest ∧ found = String.ofList run :: fields ∧ run ≠ [] ∧
        (∀ char ∈ run, accepts char) ∧ matchStart pieces rest = some fields ∧
        ∀ more remaining, more ≠ [] → rest = more ++ remaining → (∀ char ∈ more, accepts char) →
          matchStart pieces remaining = none := by
  rw [matchStart, findSome?_range_reverse]
  simp only [lt_length_takeWhile, Option.map_eq_some_iff, Option.map_eq_none_iff]
  constructor
  · rintro ⟨number, ⟨short, accepted⟩, ⟨fields, matched, rfl⟩, longer⟩
    refine ⟨input.take (number + 1), input.drop (number + 1), fields,
      (List.take_append_drop _ _).symm, rfl, ?_, accepted, matched, ?_⟩
    · rw [← List.length_pos_iff, List.length_take]
      omega
    · intro more remaining nonempty tail moreAccepted
      have moreLength := List.length_pos_iff.mpr nonempty
      have long : number + 1 + more.length ≤ input.length := by
        have lengths := congrArg List.length tail
        rw [List.length_drop, List.length_append] at lengths
        omega
      have taken : input.take (number + 1 + more.length) = input.take (number + 1) ++ more := by
        rw [List.take_add, tail, List.take_left]
      have dropped : input.drop (number + 1 + more.length) = remaining := by
        rw [← List.drop_drop, tail, List.drop_left]
      have none := longer (number + more.length) (by omega) ⟨by omega, ?_⟩
      · rw [show number + more.length + 1 = number + 1 + more.length by omega, dropped] at none
        exact none
      · rw [show number + more.length + 1 = number + 1 + more.length by omega, taken]
        intro char member
        rcases List.mem_append.mp member with early | late
        · exact accepted char early
        · exact moreAccepted char late
  · rintro ⟨run, rest, fields, rfl, rfl, nonempty, accepted, matched, longer⟩
    have runLength := List.length_pos_iff.mpr nonempty
    have whole : run.length - 1 + 1 = run.length := by omega
    refine ⟨run.length - 1, ⟨?_, ?_⟩, ⟨fields, ?_, ?_⟩, ?_⟩
    · rw [List.length_append]
      omega
    · rw [whole, List.take_left]
      exact accepted
    · rw [whole, List.drop_left]
      exact matched
    · rw [whole, List.take_left]
    · rintro larger above ⟨short, moreAccepted⟩
      have dropped : (run ++ rest).drop (larger + 1) = rest.drop (larger + 1 - run.length) := by
        rw [List.drop_append, List.drop_eq_nil_of_le (by omega), List.nil_append]
      have taken : (run ++ rest).take (larger + 1) =
          run ++ rest.take (larger + 1 - run.length) := by
        rw [List.take_append, List.take_of_length_le (by omega)]
      rw [List.length_append] at short
      rw [dropped]
      apply longer (rest.take (larger + 1 - run.length)) _ _ (List.take_append_drop _ _).symm
      · intro char member
        apply moreAccepted
        rw [taken]
        exact List.mem_append_right _ member
      · rw [← List.length_pos_iff, List.length_take]
        omega

/-- A field is captured when the rest of the pattern matches after it and not further on. -/
theorem matchStart_capture_append {field : String} {rest : List Char} :
    matchStart (.capture accepts :: pieces) (field.toList ++ rest) = some (field :: fields) ↔
      field ≠ "" ∧ (∀ char ∈ field.toList, accepts char) ∧ matchStart pieces rest = some fields ∧
        ∀ more remaining, more ≠ [] → rest = more ++ remaining → (∀ char ∈ more, accepts char) →
          matchStart pieces remaining = none := by
  rw [matchStart_capture]
  constructor
  · rintro ⟨run, others, later, whole, same, nonempty, accepted, matched, longer⟩
    obtain ⟨rfl, rfl⟩ := List.cons.inj same
    rw [String.toList_ofList] at whole ⊢
    rw [List.append_cancel_left whole]
    refine ⟨?_, accepted, matched, longer⟩
    intro empty
    exact nonempty (String.ofList_eq_empty_iff.mp empty)
  · rintro ⟨filled, accepted, matched, longer⟩
    refine ⟨field.toList, rest, fields, rfl, by rw [String.ofList_toList], ?_, accepted, matched,
      longer⟩
    intro empty
    exact filled (String.toList_eq_nil_iff.mp empty)

/-- A field is captured up to the marker after it when the rest of the pattern matches behind the
marker and behind no later one. -/
theorem matchStart_capture_marker {marker : Marker} {field : String} {rest : List Char} :
    matchStart (.capture accepts :: .literal marker.text :: pieces)
        (field.toList ++ (marker.text.toList ++ rest)) = some (field :: fields) ↔
      field ≠ "" ∧ (∀ char ∈ field.toList, accepts char) ∧ matchStart pieces rest = some fields ∧
        ∀ before remaining, rest = before ++ (marker.text.toList ++ remaining) →
          (∀ char ∈ marker.text.toList ++ before, accepts char) →
            matchStart pieces remaining = none := by
  rw [matchStart_capture_append, matchStart_literal_append]
  apply and_congr_right
  intro _
  apply and_congr_right
  intro _
  apply and_congr_right
  intro _
  constructor
  · intro longer before remaining behind accepted
    have none := longer (marker.text.toList ++ before) (marker.text.toList ++ remaining)
      (by rw [Marker.toList_text]; exact List.cons_ne_nil _ _)
      (by rw [behind, List.append_assoc]) accepted
    rwa [matchStart_literal_append] at none
  · intro longer more remaining nonempty tail accepted
    rw [Option.eq_none_iff_forall_ne_some]
    intro found matched
    obtain ⟨others, rfl, remains⟩ := matchStart_literal.mp matched
    have whole := tail
    rw [Marker.toList_text, List.cons_append] at whole
    obtain ⟨before, later⟩ :=
      Delimited.exists_eq_append_of_later marker.fresh nonempty whole
    have behind : rest = before ++ (marker.text.toList ++ others) := by
      rw [later, Marker.toList_text]
      rfl
    have cut : more = marker.text.toList ++ before := by
      rw [behind, ← List.append_assoc] at tail
      exact (List.append_cancel_right tail).symm
    rw [cut] at accepted
    rw [longer before others behind accepted] at remains
    cases remains

/-- A group matches when there is some run after which the rest matches. -/
theorem isSome_matchStart_capture {run rest : List Char} (nonempty : run ≠ [])
    (accepted : ∀ char ∈ run, accepts char) (matched : (matchStart pieces rest).isSome) :
    (matchStart (.capture accepts :: pieces) (run ++ rest)).isSome := by
  have runLength := List.length_pos_iff.mpr nonempty
  have whole : run.length - 1 + 1 = run.length := by omega
  rw [matchStart, List.findSome?_isSome_iff]
  refine ⟨run.length - 1, ?_, ?_⟩
  · rw [List.mem_reverse, List.mem_range, lt_length_takeWhile, whole, List.take_left,
      List.length_append]
    exact ⟨by omega, accepted⟩
  · rw [Option.isSome_map, whole, List.drop_left]
    exact matched

/-- A match at the start is the leftmost one. -/
theorem match?_of_matchStart {pattern : CapturePattern} {text : String}
    (matched : matchStart pattern text.toList = some fields) :
    pattern.match? text = some fields := by
  unfold match?
  cases letters : text.toList with
  | nil =>
      rw [letters] at matched
      rw [List.tails, List.findSome?_cons, matched]
  | cons first rest =>
      rw [letters] at matched
      rw [List.tails_cons, List.findSome?_cons, matched]

/-- A match is one at the start of some rest of the text. -/
theorem exists_matchStart {pattern : CapturePattern} {text : String}
    (matched : pattern.match? text = some fields) :
    ∃ start, matchStart pattern start = some fields := by
  obtain ⟨start, _, found⟩ := List.exists_of_findSome?_eq_some matched
  exact ⟨start, found⟩

end Matches

end CapturePattern

end Foundation
